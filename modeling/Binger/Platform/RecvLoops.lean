import Binger.Platform.LinuxRecv

/-!
# What a receive reports about the batch

The Windows loop is the per-packet loop on the answers as Winsock gives them:
a datagram that does not fit the buffer is an error there.  With it all
backends are described, and the length that a successful receive leaves in the
batch can be compared with the count that it returns.  The batched calls write
the length once, the loops once for each packet, so not at all when there was
none.
-/

namespace Binger.Platform

open Binger.Foundation Binger.Sockaddr

variable {bufSize : Nat}

/-! ## The loops -/

def perPacketOutcome (batch : RecvBatchRaw bufSize)
    (slots : List (RecvSlot bufSize))
    (answers : List (Except Fault Datagram)) : RecvOutcome bufSize :=
  .ok (perPacketRecvResult 0 batch.capacity answers,
    ⟨slots, if granted batch.capacity answers = [] then batch.len
      else (granted batch.capacity answers).length⟩)

theorem perPacketRecv_outcome (host : Host) (batch : RecvBatchRaw bufSize)
    (os : Os) :
    perPacketRecv host batch.capacity 0 0 batch os =
      (perPacketOutcome batch
          (stored (granted batch.capacity os.recvScript) batch.slots)
          os.recvScript,
        { os with recvScript := remaining batch.capacity os.recvScript }) :=
  perPacketRecv_batch host batch os

def wsaAnswer (bufSize : Nat) : Except Fault Datagram → Except Fault Datagram
  | .ok datagram =>
      if datagram.payload.length ≤ wsaBufLen bufSize then .ok datagram
      else .error (.hard wsaemsgsize)
  | .error fault => .error fault

def wsaStored : List (Except Fault Datagram) → List (RecvSlot bufSize) →
    List (RecvSlot bufSize)
  | .ok datagram :: script, slot :: slots =>
      if datagram.payload.length ≤ wsaBufLen bufSize then
        datagramSlot datagram slot :: wsaStored script slots
      else slot.writeBuf (datagram.payload.take (wsaBufLen bufSize)) :: slots
  | _, slots => slots

@[simp] theorem wsaStored_nil (script : List (Except Fault Datagram)) :
    wsaStored script ([] : List (RecvSlot bufSize)) = [] := by
  unfold wsaStored
  split <;> simp_all

theorem writeBuf_nil (slot : RecvSlot bufSize) : slot.writeBuf [] = slot := by
  simp [RecvSlot.writeBuf, writePrefix]

theorem receive_of_ok {os : Os} {datagram : Datagram}
    {script : List (Except Fault Datagram)}
    (h : os.recvScript = .ok datagram :: script) :
    os.receive = (.ok datagram, { os with recvScript := script }) := by
  rw [Os.receive, h]
  rfl

theorem wsaRecv_refused (host : Host) (bufSize : Nat) {os : Os}
    {fault : Fault} {script : List (Except Fault Datagram)}
    (h : ask .wouldBlock os.recvScript = (.error fault, script)) :
    wsaRecv host bufSize os =
      (([], .error fault.error), { os with recvScript := script }) := by
  rw [wsaRecv, Os.receive, h]

theorem wsaRecv_too_long (host : Host) {os : Os} {datagram : Datagram}
    {script : List (Except Fault Datagram)}
    (h : os.recvScript = .ok datagram :: script)
    (hlong : ¬ datagram.payload.length ≤ wsaBufLen bufSize) :
    wsaRecv host bufSize os =
      ((datagram.payload.take (wsaBufLen bufSize),
        .error (Fault.hard wsaemsgsize).error),
        { os with recvScript := script }) := by
  simp only [wsaRecv, receive_of_ok h, if_neg hlong]

theorem wsaRecvLoop_error (host : Host) (before rest : List (RecvSlot bufSize))
    (slot : RecvSlot bufSize) (received len : Nat) {os os' : Os}
    {bytes : List UInt8} {fault : Fault}
    (h : wsaRecv host bufSize os = ((bytes, .error fault.error), os')) :
    wsaRecvLoop host (rest.length + 1) before.length received
        ⟨before ++ slot :: rest, len⟩ os =
      (.ok (if fault = .wouldBlock then .ok received else .error fault.error,
        ⟨before ++ slot.writeBuf bytes :: rest, len⟩), os') := by
  simp only [wsaRecvLoop, h, RecvBatchRaw.modifySlot_split,
    Fault.error_kind_wouldBlock]
  split <;> rfl

theorem wsaRecvLoop_ok (host : Host) (before rest : List (RecvSlot bufSize))
    (slot : RecvSlot bufSize) (received len : Nat) {os os' : Os}
    {datagram : Datagram} (hfits : datagram.payload.length ≤ wsaBufLen bufSize)
    (h : os.receive = (.ok datagram, os')) :
    wsaRecvLoop host (rest.length + 1) before.length received
        ⟨before ++ slot :: rest, len⟩ os =
      wsaRecvLoop host rest.length (before.length + 1) (received + 1)
        ⟨before ++ datagramSlot datagram slot :: rest, before.length + 1⟩
        os' := by
  have hbuf := hfits.trans (Nat.mod_le bufSize _)
  have hstore := storeDatagram_eq before rest slot len datagram
  rw [List.take_of_length_le hbuf] at hstore
  simp only [wsaRecvLoop, wsaRecv, h, if_pos hfits,
    List.take_of_length_le hfits, decodeSockaddr_encodeSockaddr, hstore]

theorem wsaRecvLoop_eq (host : Host) (slots before : List (RecvSlot bufSize))
    (received len : Nat) (os : Os) :
    wsaRecvLoop host slots.length before.length received
        ⟨before ++ slots, len⟩ os =
      (.ok (perPacketRecvResult received slots.length
          (os.recvScript.map (wsaAnswer bufSize)),
        ⟨before ++ wsaStored os.recvScript slots,
          if granted slots.length (os.recvScript.map (wsaAnswer bufSize)) = []
          then len
          else before.length + (granted slots.length
            (os.recvScript.map (wsaAnswer bufSize))).length⟩),
        { os with recvScript := os.recvScript.drop (consumed slots.length
            (os.recvScript.map (wsaAnswer bufSize))) }) := by
  induction slots generalizing before received len os with
  | nil => simp [wsaRecvLoop, perPacketRecvResult, consumed]
  | cons slot slots ih =>
      rw [List.length_cons]
      cases hscript : os.recvScript with
      | nil =>
          rw [wsaRecvLoop_error host _ _ _ _ _ (wsaRecv_refused host bufSize
            (congrArg (ask .wouldBlock) hscript))]
          simp [perPacketRecvResult, refusal, granted, consumed, wsaStored,
            writeBuf_nil]
      | cons answer script =>
          cases answer with
          | error fault =>
              rw [wsaRecvLoop_error host _ _ _ _ _ (wsaRecv_refused host
                bufSize (congrArg (ask .wouldBlock) hscript))]
              cases fault <;>
                simp [perPacketRecvResult, wsaAnswer, refusal, granted,
                  consumed, wsaStored, writeBuf_nil]
          | ok datagram =>
              by_cases hfits : datagram.payload.length ≤ wsaBufLen bufSize
              · have htail := ih (before ++ [datagramSlot datagram slot])
                  (received + 1) (before.length + 1)
                  { os with recvScript := script }
                simp only [List.append_assoc, List.cons_append,
                  List.nil_append, List.length_append, List.length_cons,
                  List.length_nil, Nat.zero_add] at htail
                rw [wsaRecvLoop_ok host _ _ _ _ _ hfits
                  (receive_of_ok hscript), htail]
                simp only [List.map_cons, wsaAnswer, if_pos hfits, consumed,
                  wsaStored, perPacketRecvResult_cons, lenAfter_cons]
                rfl
              · rw [wsaRecvLoop_error host _ _ _ _ _
                  (wsaRecv_too_long host hscript hfits)]
                simp [perPacketRecvResult, wsaAnswer, hfits, refusal, granted,
                  consumed, wsaStored]

theorem Windows.tryRecvBatch_eq (host : Host) (batch : RecvBatchRaw bufSize)
    (os : Os) :
    Windows.tryRecvBatch host batch os =
      (perPacketOutcome batch (wsaStored os.recvScript batch.slots)
          (os.recvScript.map (wsaAnswer bufSize)),
        { os with recvScript := os.recvScript.drop (consumed batch.capacity
            (os.recvScript.map (wsaAnswer bufSize))) }) := by
  obtain ⟨slots, len⟩ := batch
  cases slots with
  | nil =>
      simp [tryRecvBatch, perPacketOutcome, RecvBatchRaw.capacity,
        perPacketRecvResult, consumed]
  | cons slot slots =>
      have hloop := wsaRecvLoop_eq host (slot :: slots) [] 0 len os
      have hcap : RecvBatchRaw.capacity ⟨slot :: slots, len⟩ ≠ 0 := by
        simp [RecvBatchRaw.capacity]
      simp only [List.length_nil, List.nil_append, Nat.zero_add] at hloop
      simp only [tryRecvBatch, hcap, if_false]
      exact hloop

/-! ## The macOS backend -/

namespace Macos

theorem tryRecvBatch_of_recvfrom (host : Host) (batch : RecvBatchRaw bufSize)
    {os : Os} (h : os.hasRecvmsgX = false) :
    tryRecvBatch host batch os =
      perPacketRecv host batch.capacity 0 0 batch os := by
  rw [tryRecvBatch]
  simp only [h, Bool.false_eq_true, if_false]
  split
  · next hzero => rw [hzero, perPacketRecv]
  · rfl

theorem tryRecvBatch_of_recvmsgX (host : Host) {batch : RecvBatchRaw bufSize}
    (hcap : 0 < batch.capacity) {os : Os} (h : os.hasRecvmsgX = true) :
    tryRecvBatch host batch os =
      (match recvManyResult (vlen batch.capacity)
          (Linux.recvAnswers batch os) with
        | .error fault => .ok (.error fault.error, batch)
        | .ok datagrams =>
            let (headers, batch) := deliverAll host datagrams 0
              (recvHeaders bufSize batch.capacity) batch
            output host datagrams.length headers batch,
        { os with
            recvScript := remaining (vlen batch.capacity)
              (Linux.recvAnswers batch os) }) := by
  have hne : batch.capacity ≠ 0 := by omega
  simp only [tryRecvBatch, hne, if_false]
  rw [if_pos h, retryEintr_eq _ _ (recvMessages_asksScript host
    (recvHeaders bufSize batch.capacity) batch (vlen batch.capacity)) trivial,
    recvMessages_eq, Linux.recvAnswers]
  cases recvManyResult (vlen batch.capacity)
      (skipInterrupted (vlen batch.capacity) os.recvScript) <;> rfl

theorem output_len {host : Host} {n m : Nat} {headers : RecvHeaders}
    {batch batch' : RecvBatchRaw bufSize}
    (h : output host n headers batch = .ok (.ok m, batch')) :
    m = n ∧ batch'.len = n := by
  unfold output at h
  cases hstore : storeMessages
      ((List.range' 0 n).filterMap (received host headers)) 0 batch with
  | error panic => simp [hstore, bind, Except.bind] at h
  | ok stored =>
      obtain ⟨rfl, rfl⟩ : n = m ∧ stored.setLen n = batch' := by
        simpa [hstore, bind, Except.bind, pure, Except.pure] using h
      exact ⟨rfl, rfl⟩

end Macos

/-! ## The length of the batch -/

def CountsLen (batch : RecvBatchRaw bufSize)
    (outcome : RecvOutcome bufSize) : Prop :=
  ∀ n batch', outcome = .ok (.ok n, batch') →
    batch'.len = n ∧ n ≤ batch.capacity

def usesBatchedRecv (backend : Backend) (os : Os) : Bool :=
  match backend with
  | .linux => os.hasRecvmmsg
  | .macos => os.hasRecvmsgX
  | .windows | .fallback => false

/-- The calls that succeed without writing the length: there is no slot, or a
loop finds the socket not ready at its first packet. -/
def LeavesLen (backend : Backend) (batch : RecvBatchRaw bufSize)
    (os : Os) : Prop :=
  batch.capacity = 0 ∨
    (usesBatchedRecv backend os = false ∧
      (ask .wouldBlock os.recvScript).1 = .error .wouldBlock)

theorem nothing_taken_iff {n : Nat} {script : List (Except Fault Datagram)} :
    (granted n script = [] ∧ ∀ fault,
        refusal .wouldBlock n script = some fault → fault = .wouldBlock) ↔
      n = 0 ∨ (ask .wouldBlock script).1 = .error .wouldBlock := by
  cases n with
  | zero => simp
  | succ n =>
      cases script with
      | nil => simp [granted, refusal, ask]
      | cons answer script =>
          cases answer <;> simp [granted, refusal, ask]

theorem countsLen_perPacket (batch : RecvBatchRaw bufSize)
    (slots : List (RecvSlot bufSize))
    (script : List (Except Fault Datagram)) :
    CountsLen batch (perPacketOutcome batch slots script) ↔
      (batch.capacity = 0 ∨
        (ask .wouldBlock script).1 = .error .wouldBlock → batch.len = 0) := by
  rw [← nothing_taken_iff]
  constructor
  · rintro h ⟨hnil, hrefusal⟩
    have hresult := Linux.perPacketRecvResult_eq_ok_iff.mpr ⟨rfl, hrefusal⟩
    have hlen := (h _ _ (by rw [perPacketOutcome, hresult])).1
    simpa [hnil] using hlen
  · intro h n batch' hok
    rw [perPacketOutcome, Except.ok.injEq, Prod.mk.injEq] at hok
    obtain ⟨hresult, rfl⟩ := hok
    obtain ⟨rfl, hrefusal⟩ := Linux.perPacketRecvResult_eq_ok_iff.mp hresult
    refine ⟨?_, granted_length_le _ _⟩
    by_cases hnil : granted batch.capacity script = []
    · simpa [hnil] using h ⟨hnil, hrefusal⟩
    · simp [hnil]

theorem countsLen_unchanged (batch : RecvBatchRaw bufSize) :
    CountsLen batch (.ok (.ok 0, batch)) ↔ batch.len = 0 := by
  constructor
  · intro h
    exact (h 0 batch rfl).1
  · intro hlen n batch' hok
    obtain ⟨rfl, rfl⟩ : 0 = n ∧ batch = batch' := by simpa using hok
    exact ⟨hlen, Nat.zero_le _⟩

theorem Linux.countsLen_delivered (features : Features)
    (batch : RecvBatchRaw bufSize) (datagrams : List Datagram) :
    CountsLen batch (delivered features batch datagrams) := by
  intro n batch' hok
  unfold delivered at hok
  split at hok
  · next out rest hemit =>
      have hlength := emitAll_length features (by simp [asReceived]) hemit
      obtain ⟨rfl, rfl⟩ : out.length = n ∧
          (⟨out ++ rest, out.length⟩ : RecvBatchRaw bufSize) = batch' := by
        simpa using hok
      rw [landed_length] at hlength
      rw [RecvBatchRaw.capacity]
      exact ⟨rfl, by omega⟩
  · simp at hok

theorem ask_wsaAnswer (bufSize : Nat)
    (script : List (Except Fault Datagram)) :
    (ask .wouldBlock (script.map (wsaAnswer bufSize))).1 =
        .error .wouldBlock ↔
      (ask .wouldBlock script).1 = .error .wouldBlock := by
  cases script with
  | nil => rfl
  | cons answer script =>
      cases answer with
      | error fault => simp [ask, wsaAnswer]
      | ok datagram =>
          simp only [List.map_cons, ask, wsaAnswer]
          split <;> simp

theorem Linux.countsLen_iff (features : Features) (host : Host)
    (batch : RecvBatchRaw bufSize) (os : Os) :
    CountsLen batch (tryRecvBatch features host batch os).1 ↔
      (LeavesLen .linux batch os → batch.len = 0) := by
  rcases Nat.eq_zero_or_pos batch.capacity with hzero | hcap
  · simp [tryRecvBatch, hzero, LeavesLen, countsLen_unchanged]
  · have hne : batch.capacity ≠ 0 := by omega
    cases h : os.hasRecvmmsg with
    | false =>
        rw [tryRecvBatch_of_enosys features host hcap h, fallbackRecv,
          perPacketRecv_outcome, countsLen_perPacket]
        simp [LeavesLen, usesBatchedRecv, h]
    | true =>
        simp only [LeavesLen, hne, usesBatchedRecv, h, Bool.true_eq_false,
          false_and, or_self, false_implies, iff_true]
        rw [tryRecvBatch_of_recvmmsg features host hcap h]
        cases recvManyResult (vlen batch.capacity)
            (recvAnswers batch os) with
        | error fault => simp [CountsLen]
        | ok datagrams => exact countsLen_delivered features batch datagrams

theorem Macos.countsLen_iff (host : Host) (batch : RecvBatchRaw bufSize)
    (os : Os) :
    CountsLen batch (tryRecvBatch host batch os).1 ↔
      (LeavesLen .macos batch os → batch.len = 0) := by
  rcases Nat.eq_zero_or_pos batch.capacity with hzero | hcap
  · simp [tryRecvBatch, hzero, LeavesLen, countsLen_unchanged]
  · have hne : batch.capacity ≠ 0 := by omega
    cases h : os.hasRecvmsgX with
    | false =>
        rw [tryRecvBatch_of_recvfrom host batch h, perPacketRecv_outcome,
          countsLen_perPacket]
        simp [LeavesLen, usesBatchedRecv, h]
    | true =>
        simp only [LeavesLen, hne, usesBatchedRecv, h, Bool.true_eq_false,
          false_and, or_self, false_implies, iff_true]
        rw [tryRecvBatch_of_recvmsgX host hcap h]
        cases hresult : recvManyResult (vlen batch.capacity)
            (Linux.recvAnswers batch os) with
        | error fault => simp [CountsLen]
        | ok datagrams =>
            intro n batch' hok
            have hlen := (Linux.recvManyResult_length hresult).2
            obtain ⟨rfl, hlen'⟩ := output_len hok
            exact ⟨hlen', hlen.trans (vlen_le batch.capacity)⟩

/-- A successful receive leaves its count in the batch exactly when it writes
the length, or when there were no packets before it. -/
theorem tryRecvBatch_countsLen_iff (backend : Backend) (features : Features)
    (host : Host) (batch : RecvBatchRaw bufSize) (os : Os) :
    CountsLen batch (tryRecvBatch backend features host batch os).1 ↔
      (LeavesLen backend batch os → batch.len = 0) := by
  cases backend with
  | linux => exact Linux.countsLen_iff features host batch os
  | macos => exact Macos.countsLen_iff host batch os
  | windows =>
      rw [tryRecvBatch, Windows.tryRecvBatch_eq, countsLen_perPacket,
        ask_wsaAnswer]
      simp [LeavesLen, usesBatchedRecv]
  | fallback =>
      rw [tryRecvBatch, Fallback.tryRecvBatch, perPacketRecv_outcome,
        countsLen_perPacket]
      simp [LeavesLen, usesBatchedRecv]

def oneDatagramOs : Os :=
  { Linux.plainOs with recvScript := [.ok ⟨[1], Linux.loopbackSource, []⟩] }

/-- The second receive on a batch finds nothing, and the batch still shows the
packet of the first one. -/
theorem fallback_shows_old_packet :
    ∃ batch os,
      tryRecvBatch .fallback Linux.groOnly ⟨.linux, .little⟩
        (.withCapacity 2 4) oneDatagramOs = (.ok (.ok 1, batch), os) ∧
      ¬ CountsLen batch (tryRecvBatch .fallback Linux.groOnly
        ⟨.linux, .little⟩ batch os).1 := by
  have hfirst := perPacketRecv_batch ⟨.linux, .little⟩ (.withCapacity 2 4)
    oneDatagramOs
  refine ⟨_, _, hfirst, ?_⟩
  intro hcounts
  rw [tryRecvBatch, Fallback.tryRecvBatch, perPacketRecv_batch] at hcounts
  exact absurd (hcounts 0 _ rfl).1 (by decide)

end Binger.Platform
