import Binger.Platform.RecvLoops
import Binger.Platform.SendAttempt

/-!
# A kernel that is not ready

The kernel reports that a socket is not ready when its first answer to an
attempt is `WouldBlock`.  The batched calls pass this on.  The loops with one
call for each packet return `Ok(0)`, and so do receives that never ask the
kernel or that get only messages without a packet.
-/

namespace Binger.Platform

open Binger.Foundation Binger.Sockaddr

def isNotReady {α : Type} : Except Fault α → Bool
  | .error .wouldBlock => true
  | _ => false

theorem isNotReady_iff {α : Type} {answer : Except Fault α} :
    isNotReady answer = true ↔ answer = .error .wouldBlock := by
  rcases answer with (- | - | code) | value <;> simp [isNotReady]

def notReadyAtOnce {α : Type} (n : Nat) (script : List (Except Fault α)) :
    Bool :=
  decide (n ≠ 0) && isNotReady (ask .wouldBlock script).1

theorem notReadyAtOnce_iff {α : Type} {n : Nat}
    {script : List (Except Fault α)} :
    notReadyAtOnce n script = true ↔
      n ≠ 0 ∧ (ask .wouldBlock script).1 = .error .wouldBlock := by
  simp [notReadyAtOnce, isNotReady_iff]

def reportsWouldBlock : IoResult Nat → Bool
  | .ok _ => false
  | .error error => decide (error.kind = .wouldBlock)

/-! ## Sending -/

def SendPath.isBatched : SendPath → Bool
  | .perPacket | .wsa => false
  | .batched | .batchedRetry => true

def sendNotReady (path : SendPath) (len : Nat)
    (script : List (Except Fault Unit)) : Bool :=
  match path with
  | .perPacket | .wsa => notReadyAtOnce len script
  | .batched => notReadyAtOnce (vlen len) script
  | .batchedRetry =>
      notReadyAtOnce (vlen len) (skipInterrupted (vlen len) script)

theorem batchedResult_reports (n : Nat) (script : List (Except Fault Unit)) :
    reportsWouldBlock (batchedResult n script) = notReadyAtOnce n script := by
  rw [batchedResult_first, notReadyAtOnce]
  by_cases hn : n = 0
  · simp [hn, reportsWouldBlock]
  · generalize (ask .wouldBlock script).1 = answer
    rcases answer with (- | - | code) | ⟨⟨⟩⟩ <;>
      simp [hn, reportsWouldBlock, isNotReady]

theorem reportsWouldBlock_eq_false {result : IoResult Nat}
    (h : ∀ error, result = .error error → error.kind ≠ .wouldBlock) :
    reportsWouldBlock result = false := by
  cases result with
  | ok n => rfl
  | error error => simpa [reportsWouldBlock] using h error rfl

theorem attempt_reports (path : SendPath) (len : Nat)
    (script : List (Except Fault Unit)) :
    reportsWouldBlock (attempt path len script).result =
      (path.isBatched && sendNotReady path len script) := by
  cases path with
  | perPacket =>
      apply reportsWouldBlock_eq_false
      intro error
      exact perPacketResult_ne_wouldBlock
  | wsa =>
      apply reportsWouldBlock_eq_false
      intro error
      exact wsaResult_ne_wouldBlock
  | batched => exact batchedResult_reports (vlen len) script
  | batchedRetry => exact batchedResult_reports (vlen len) _

theorem attempt_not_ready {path : SendPath} (hpath : path.isBatched = false)
    {len : Nat} {script : List (Except Fault Unit)}
    (h : sendNotReady path len script = true) :
    (attempt path len script).result = .ok 0 := by
  have hrefused : ∀ {len}, notReadyAtOnce len script = true →
      granted len script = [] ∧
        refusal .wouldBlock len script = some .wouldBlock := by
    intro len h
    rw [notReadyAtOnce_iff] at h
    have hfirst := refused_at_once h.2 len
    exact ⟨hfirst.1, hfirst.2 h.1⟩
  cases path with
  | perPacket => simp [attempt, perPacketResult, hrefused h]
  | wsa => simp [attempt, wsaResult, hrefused h]
  | batched | batchedRetry => cases hpath

/-! ## Receiving -/

section Receiving

variable {bufSize : Nat}

def recvNotReady (backend : Backend) (batch : RecvBatchRaw bufSize)
    (os : Os) : Bool :=
  if usesBatchedRecv backend os then
    notReadyAtOnce (vlen batch.capacity) (Linux.recvAnswers batch os)
  else notReadyAtOnce batch.capacity os.recvScript

def report (outcome : RecvOutcome bufSize) : Option (IoResult Nat) :=
  match outcome with
  | .ok (result, _) => some result
  | .error _ => none

/-- The receives that return `Ok(0)`: those that do not ask the kernel, the
loops that find the socket not ready, and `recvmmsg` with messages that are all
split into no packet. -/
def RecvsNothing (backend : Backend) (features : Features)
    (batch : RecvBatchRaw bufSize) (os : Os) : Prop :=
  batch.capacity = 0 ∨
    if usesBatchedRecv backend os then
      vlen batch.capacity = 0 ∨
        backend = .linux ∧ Linux.recvDatagrams batch os ≠ [] ∧
          totalSlots features bufSize (Linux.recvDatagrams batch os) = 0
    else (ask .wouldBlock os.recvScript).1 = .error .wouldBlock

theorem emitAll_out_nil_iff (features : Features) {messages : List Received}
    (hlen : ∀ message ∈ messages, message.msgLen ≤ bufSize)
    {slots out rest : List (RecvSlot bufSize)}
    (h : emitAll features messages slots = some (out, rest)) :
    out = [] ↔ (messages.map (slotCount features)).sum = 0 := by
  induction messages generalizing slots out rest with
  | nil =>
      obtain ⟨rfl, rfl⟩ : [] = out ∧ slots = rest := by
        simpa [emitAll] using h
      simp
  | cons message messages ih =>
      cases slots with
      | nil => simp [emitAll] at h
      | cons slot slots =>
          simp only [emitAll, Option.map_eq_some_iff, Prod.mk.injEq] at h
          obtain ⟨⟨tail, rest'⟩, htail, rfl, rfl⟩ := h
          have hrest := ih
            (fun message hmem => hlen message (List.mem_cons_of_mem _ hmem))
            htail
          have hfirst := (emit_lengths features
            (hlen message List.mem_cons_self) slot slots).1
          rw [List.append_eq_nil_iff, hrest, ← List.length_eq_zero_iff, hfirst,
            List.map_cons, List.sum_cons]
          omega

theorem totalSlots_dropLast_le (features : Features) (bufSize : Nat)
    (datagrams : List Datagram) :
    totalSlots features bufSize datagrams.dropLast ≤
      totalSlots features bufSize datagrams := by
  rcases List.eq_nil_or_concat datagrams with rfl | ⟨front, last, rfl⟩
  · exact Nat.le_refl _
  · simp [totalSlots]

theorem report_delivered (features : Features) {batch : RecvBatchRaw bufSize}
    (hcap : batch.capacity ≠ 0) (datagrams : List Datagram) :
    (report (Linux.delivered features batch datagrams) = some (.ok 0) ↔
        totalSlots features bufSize datagrams = 0) ∧
      ∀ error, report (Linux.delivered features batch datagrams) ≠
        some (.error error) := by
  unfold Linux.delivered
  split
  · next out rest hemit =>
      have hnil := emitAll_out_nil_iff features (by simp [asReceived]) hemit
      rw [List.map_map] at hnil
      refine ⟨?_, by simp [report]⟩
      simp only [report, Option.some.injEq, Except.ok.injEq,
        List.length_eq_zero_iff]
      exact hnil
  · next hemit =>
      -- a message found no slot, so the ones before it filled them all
      have hfull := (Linux.emitAll_datagrams_isSome_iff features datagrams
        (landed datagrams batch.slots)).not.mp (by simp [hemit])
      rw [not_or, Linux.landed_length] at hfull
      have hle := totalSlots_dropLast_le features bufSize datagrams
      rw [RecvBatchRaw.capacity] at hcap
      simp only [report, reduceCtorEq, false_iff, ne_eq, not_false_eq_true,
        implies_true, and_true]
      omega

theorem report_perPacket_zero_iff (batch : RecvBatchRaw bufSize)
    (slots : List (RecvSlot bufSize)) (answers : List (Except Fault Datagram)) :
    report (perPacketOutcome batch slots answers) = some (.ok 0) ↔
      batch.capacity = 0 ∨
        (ask .wouldBlock answers).1 = .error .wouldBlock := by
  rw [← nothing_taken_iff]
  simp [report, perPacketOutcome, Linux.perPacketRecvResult_eq_ok_iff]

theorem tryRecvBatch_loop (features : Features) (host : Host)
    (batch : RecvBatchRaw bufSize) {backend : Backend} {os : Os}
    (h : usesBatchedRecv backend os = false) :
    ∃ slots answers, (tryRecvBatch backend features host batch os).1 =
        perPacketOutcome batch slots answers ∧
      ((ask .wouldBlock answers).1 = .error .wouldBlock ↔
        (ask .wouldBlock os.recvScript).1 = .error .wouldBlock) := by
  have hloop := perPacketRecv_outcome host batch os
  cases backend with
  | linux =>
      have hcall : Linux.tryRecvBatch features host batch os =
          perPacketRecv host batch.capacity 0 0 batch os := by
        rcases Nat.eq_zero_or_pos batch.capacity with hzero | hcap
        · simp [Linux.tryRecvBatch, hzero, perPacketRecv]
        · exact Linux.tryRecvBatch_of_enosys features host hcap h
      exact ⟨_, _, congrArg Prod.fst (hcall.trans hloop), Iff.rfl⟩
  | macos =>
      have hcall := Macos.tryRecvBatch_of_recvfrom host batch h
      exact ⟨_, _, congrArg Prod.fst (hcall.trans hloop), Iff.rfl⟩
  | windows =>
      exact ⟨_, _, congrArg Prod.fst (Windows.tryRecvBatch_eq host batch os),
        ask_wsaAnswer bufSize os.recvScript⟩
  | fallback => exact ⟨_, _, congrArg Prod.fst hloop, Iff.rfl⟩

theorem report_batched_error (features : Features) (host : Host)
    {batch : RecvBatchRaw bufSize} (hcap : batch.capacity ≠ 0)
    {backend : Backend} {os : Os} (h : usesBatchedRecv backend os = true)
    {fault : Fault} (hresult : recvManyResult (vlen batch.capacity)
      (Linux.recvAnswers batch os) = .error fault) :
    report (tryRecvBatch backend features host batch os).1 =
      some (.error fault.error) := by
  have hpos := Nat.pos_of_ne_zero hcap
  cases backend with
  | linux =>
      rw [tryRecvBatch, Linux.tryRecvBatch_of_recvmmsg features host hpos h,
        hresult]
      rfl
  | macos =>
      rw [tryRecvBatch, Macos.tryRecvBatch_of_recvmsgX host hpos h, hresult]
      rfl
  | windows | fallback => cases h

theorem Macos.report_output (host : Host) (n : Nat) (headers : RecvHeaders)
    (batch : RecvBatchRaw bufSize) :
    (report (output host n headers batch) = some (.ok 0) ↔ n = 0) ∧
      ∀ error, report (output host n headers batch) ≠
        some (.error error) := by
  rw [output]
  cases hstored : storeMessages
      ((List.range' 0 n).filterMap (received host headers)) 0 batch with
  | error panic =>
      have hn : n ≠ 0 := by
        rintro rfl
        simp [storeMessages, pure, Except.pure] at hstored
      simp [bind, Except.bind, report, hn]
  | ok stored => simp [bind, Except.bind, pure, Except.pure, report]

theorem report_batched_ok (features : Features) (host : Host)
    {batch : RecvBatchRaw bufSize} (hcap : batch.capacity ≠ 0)
    {backend : Backend} {os : Os} (h : usesBatchedRecv backend os = true)
    {datagrams : List Datagram} (hresult : recvManyResult
      (vlen batch.capacity) (Linux.recvAnswers batch os) = .ok datagrams) :
    (report (tryRecvBatch backend features host batch os).1 = some (.ok 0) ↔
        datagrams = [] ∨
          backend = .linux ∧ totalSlots features bufSize datagrams = 0) ∧
      ∀ error, report (tryRecvBatch backend features host batch os).1 ≠
        some (.error error) := by
  have hpos := Nat.pos_of_ne_zero hcap
  cases backend with
  | linux =>
      rw [tryRecvBatch, Linux.tryRecvBatch_of_recvmmsg features host hpos h,
        hresult]
      have hdelivered := report_delivered features hcap datagrams
      refine ⟨?_, hdelivered.2⟩
      simp only [true_and]
      rw [hdelivered.1]
      constructor
      · exact .inr
      · rintro (rfl | hzero)
        · rfl
        · exact hzero
  | macos =>
      rw [tryRecvBatch, Macos.tryRecvBatch_of_recvmsgX host hpos h, hresult]
      simp only [reduceCtorEq, false_and, or_false]
      rw [← List.length_eq_zero_iff]
      exact Macos.report_output host datagrams.length _ _
  | windows | fallback => cases h

theorem perPacketRecvResult_ne_wouldBlock {received n : Nat}
    {script : List (Except Fault Datagram)} {error : IoError}
    (h : perPacketRecvResult received n script = .error error) :
    error.kind ≠ .wouldBlock := by
  unfold perPacketRecvResult at h
  split at h
  · simp at h
  · simp at h
  · next fault hne hrefusal =>
      obtain rfl : fault.error = error := by simpa using h
      rw [Ne, Fault.error_kind_wouldBlock]
      rintro rfl
      exact hne rfl

theorem tryRecvBatch_no_slots (backend : Backend) (features : Features)
    (host : Host) {batch : RecvBatchRaw bufSize} (h : batch.capacity = 0)
    (os : Os) :
    tryRecvBatch backend features host batch os = (.ok (.ok 0, batch), os) := by
  cases backend with
  | linux => simp [tryRecvBatch, Linux.tryRecvBatch, h]
  | macos => simp [tryRecvBatch, Macos.tryRecvBatch, h]
  | windows => simp [tryRecvBatch, Windows.tryRecvBatch, h]
  | fallback =>
      simp [tryRecvBatch, Fallback.tryRecvBatch, h, perPacketRecv]

theorem report_of_no_slots (backend : Backend) (features : Features)
    (host : Host) {batch : RecvBatchRaw bufSize} (h : batch.capacity = 0)
    (os : Os) :
    report (tryRecvBatch backend features host batch os).1 =
      some (.ok 0) := by
  rw [tryRecvBatch_no_slots backend features host h, report]

theorem recvManyResult_nil_iff {n : Nat}
    {script : List (Except Fault Datagram)} {datagrams : List Datagram}
    (h : recvManyResult n script = .ok datagrams) :
    datagrams = [] ↔ n = 0 := by
  obtain ⟨rfl, -⟩ := Linux.recvManyResult_length h
  constructor
  · intro hnil
    by_contra hn
    rw [recvManyResult_first, if_neg hn] at h
    cases hfirst : (ask .wouldBlock script).1 with
    | error fault => simp [hfirst] at h
    | ok datagram => exact granted_ne_nil hn hfirst hnil
  · rintro rfl
    exact granted_zero script

theorem report_zero_iff (backend : Backend) (features : Features)
    (host : Host) (batch : RecvBatchRaw bufSize) (os : Os) :
    report (tryRecvBatch backend features host batch os).1 = some (.ok 0) ↔
      RecvsNothing backend features batch os := by
  by_cases hcap : batch.capacity = 0
  · simp [report_of_no_slots backend features host hcap os, RecvsNothing, hcap]
  · simp only [RecvsNothing, hcap, false_or]
    cases hpath : usesBatchedRecv backend os with
    | false =>
        obtain ⟨slots, answers, hcall, hanswers⟩ :=
          tryRecvBatch_loop features host batch hpath
        simp [hcall, report_perPacket_zero_iff, hcap, hanswers]
    | true =>
        rw [if_pos rfl, Linux.recvDatagrams]
        cases hresult : recvManyResult (vlen batch.capacity)
            (Linux.recvAnswers batch os) with
        | error fault =>
            have hrefused := Linux.recvManyResult_error hresult
            have hvlen : vlen batch.capacity ≠ 0 := by
              intro hzero
              simp [hzero] at hrefused
            rw [report_batched_error features host hcap hpath hresult]
            simp [hrefused.1, hvlen]
        | ok datagrams =>
            have hnil := recvManyResult_nil_iff hresult
            rw [(report_batched_ok features host hcap hpath hresult).1,
              ← (Linux.recvManyResult_length hresult).1, hnil, Ne, hnil]
            by_cases hvlen : vlen batch.capacity = 0 <;> simp [hvlen]

theorem report_of_notReady (features : Features) (host : Host)
    {backend : Backend} {batch : RecvBatchRaw bufSize} {os : Os}
    (h : recvNotReady backend batch os = true) :
    report (tryRecvBatch backend features host batch os).1 =
      if usesBatchedRecv backend os then some (.error Fault.wouldBlock.error)
      else some (.ok 0) := by
  cases hpath : usesBatchedRecv backend os with
  | true =>
      rw [recvNotReady, hpath, if_pos rfl, notReadyAtOnce_iff] at h
      have hcap : batch.capacity ≠ 0 := by
        intro hzero
        simp [hzero, vlen] at h
      refine report_batched_error features host hcap hpath ?_
      rw [recvManyResult_first, if_neg h.1, h.2]
  | false =>
      rw [recvNotReady, hpath, if_neg Bool.false_ne_true,
        notReadyAtOnce_iff] at h
      simp only [Bool.false_eq_true, if_false]
      rw [report_zero_iff, RecvsNothing, hpath]
      exact .inr h.2

theorem notReady_of_report {features : Features} {host : Host}
    {backend : Backend} {batch : RecvBatchRaw bufSize} {os : Os}
    {error : IoError}
    (h : report (tryRecvBatch backend features host batch os).1 =
      some (.error error)) (hkind : error.kind = .wouldBlock) :
    recvNotReady backend batch os = true := by
  have hcap : batch.capacity ≠ 0 := by
    intro hzero
    simp [report_of_no_slots backend features host hzero os] at h
  rw [recvNotReady]
  cases hpath : usesBatchedRecv backend os with
  | false =>
      -- the loops do not report `WouldBlock`
      obtain ⟨slots, answers, hcall, -⟩ :=
        tryRecvBatch_loop features host batch hpath
      rw [hcall, perPacketOutcome, report, Option.some.injEq] at h
      exact absurd hkind (perPacketRecvResult_ne_wouldBlock h)
  | true =>
      rw [if_pos rfl, notReadyAtOnce_iff]
      cases hresult : recvManyResult (vlen batch.capacity)
          (Linux.recvAnswers batch os) with
      | ok datagrams =>
          exact absurd h
            ((report_batched_ok features host hcap hpath hresult).2 error)
      | error fault =>
          rw [report_batched_error features host hcap hpath hresult,
            Option.some.injEq, Except.error.injEq] at h
          obtain rfl : fault = .wouldBlock := by
            rwa [← h, Fault.error_kind_wouldBlock] at hkind
          obtain ⟨hnil, hrefusal⟩ := Linux.recvManyResult_error hresult
          refine ⟨?_, (refusal_of_granted_nil hrefusal hnil).1⟩
          intro hzero
          simp [hzero] at hrefusal

end Receiving

end Binger.Platform
