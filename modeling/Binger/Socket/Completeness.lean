import Mathlib.Data.List.TakeDrop
import Binger.Socket.Send

/-!
# What a call of `send_batch` gets accepted

Every call gets a leading part of the batch accepted, each entry once.  A
successful call got the whole batch accepted exactly when the kernel, asked
often enough, did not stop between two packets: a retry happens only after an
attempt that sent nothing.
-/

namespace Binger.Socket

open Binger.Foundation Binger.Platform Binger.Sockaddr

/-! ## At most once -/

namespace BingerUdp

/-- During one call no entry is accepted twice, and what is accepted is a
leading part of the batch, in order. -/
theorem sendBatch_at_most_once (batch : SendBatchRaw) (waits : List Wait)
    (socket : BingerUdp) (os : Os) :
    ∃ accepted, (sendBatch batch waits socket os).2.2.wire =
        os.wire ++ accepted ∧
      accepted.map Sent.item <+: items socket.backend batch ∧
      (accepted.map Sent.entry).Nodup := by
  obtain ⟨-, accepted, hwire, hitems⟩ :=
    sendBatch_refines batch waits socket os
  refine ⟨accepted, hwire, ?_, ?_⟩
  · rw [hitems]
    exact List.take_prefix _ _
  · have hentries : accepted.map Sent.entry =
        (accepted.map Sent.item).map Prod.fst := by
      simp [Function.comp_def, Sent.item]
    rw [hentries, hitems, List.map_take, map_fst_items]
    exact List.nodup_range.sublist (List.take_sublist _ _)

end BingerUdp

/-! ## Completeness -/

def uninterrupted (retryEintr : Bool) (script : List (Except Fault Unit)) :
    List (Except Fault Unit) :=
  if retryEintr then script.dropWhile isInterrupted else script

/-- The answers that the last attempt of a batched path gets to see: each wait
that succeeds makes up for one refusal at the front. -/
def settle (retryEintr tokio : Bool) :
    List Wait → List (Except Fault Unit) → List (Except Fault Unit)
  | [], script => uninterrupted retryEintr script
  | wait :: waits, script =>
      match uninterrupted retryEintr script, wait.outcome with
      | .error .wouldBlock :: rest, .ok () =>
          if tokio then settle retryEintr tokio waits rest
          else .error .wouldBlock :: rest
      | script, _ => script

/-- The kernel does not stop between two packets of the batch, and the length
of the batch survives the 32-bit parameter of a batched call. -/
def TakesAllOrNone (len : Nat) (script : List (Except Fault Unit)) : Prop :=
  (0 < vlen len ∧ granted len script = []) ∨
    (vlen len = len ∧ (granted len script).length = len)

def SendsCompletely (path : SendPath) (tokio : Bool) (len : Nat)
    (waits : List Wait) (script : List (Except Fault Unit)) : Prop :=
  match path with
  | .perPacket => refusal .wouldBlock len script ≠ some .wouldBlock
  | .wsa =>
      (granted len script).length = len ∨
        (granted len script = [] ∧
          refusal .wouldBlock len script ≠ some .wouldBlock)
  | .batched => TakesAllOrNone len (settle false tokio waits script)
  | .batchedRetry => TakesAllOrNone len (settle true tokio waits script)

def ReportsAll (len : Nat) (out : Poll (IoResult Nat) × Nat) : Prop :=
  ∀ n, out.1 = .ready (.ok n) → n = len ∧ out.2 = len

section ReportsAll

variable {path : SendPath} {len : Nat} {script : List (Except Fault Unit)}
  (tokio : Bool) (waits : List Wait)

theorem reportsAll_of_ok {sent : Nat}
    (h : (attempt path len script).result = .ok sent) :
    ReportsAll len (sendLoop path tokio len waits script) ↔ sent = len := by
  have haccepted := attempt_ok path len script h
  have harm : sendArm (attempt path len script).result = some (.ok sent) := by
    simp [h, sendArm]
  rw [sendLoop_of_done waits harm]
  simp [ReportsAll, ← haccepted]

theorem reportsAll_of_error {error : IoError}
    (h : (attempt path len script).result = .error error)
    (hkind : error.kind ≠ .wouldBlock) :
    ReportsAll len (sendLoop path tokio len waits script) := by
  have harm : sendArm (attempt path len script).result =
      some (.error error) := by
    simp [h, sendArm, hkind]
  rw [sendLoop_of_done waits harm]
  simp [ReportsAll]

end ReportsAll

theorem reportsAll_perPacket (tokio : Bool) (len : Nat) (waits : List Wait)
    (script : List (Except Fault Unit)) :
    ReportsAll len (sendLoop .perPacket tokio len waits script) ↔
      refusal .wouldBlock len script ≠ some .wouldBlock := by
  have hnone := refusal_eq_none_iff (α := Unit) Fault.wouldBlock len script
  rcases hrefusal : refusal .wouldBlock len script with - | fault
  · have hresult : (attempt .perPacket len script).result =
        .ok (granted len script).length := by
      simp [attempt, perPacketResult, hrefusal]
    rw [reportsAll_of_ok tokio waits hresult, ← hnone]
    simp [hrefusal]
  · by_cases hfault : fault = .wouldBlock
    · have hresult : (attempt .perPacket len script).result =
          .ok (granted len script).length := by
        simp [attempt, perPacketResult, hrefusal, hfault]
      rw [reportsAll_of_ok tokio waits hresult, ← hnone]
      simp [hrefusal, hfault]
    · have hresult : (attempt .perPacket len script).result =
          .error fault.error := by
        simp only [attempt, perPacketResult, hrefusal]
      have hall := reportsAll_of_error tokio waits hresult
        (by simpa using hfault)
      simp [hall, hrefusal, hfault]

theorem reportsAll_wsa (tokio : Bool) (len : Nat) (waits : List Wait)
    (script : List (Except Fault Unit)) :
    ReportsAll len (sendLoop .wsa tokio len waits script) ↔
      (granted len script).length = len ∨
        (granted len script = [] ∧
          refusal .wouldBlock len script ≠ some .wouldBlock) := by
  have hnone := refusal_eq_none_iff (α := Unit) Fault.wouldBlock len script
  rcases hrefusal : refusal .wouldBlock len script with - | fault
  · have hresult : (attempt .wsa len script).result =
        .ok (granted len script).length := by
      simp [attempt, wsaResult, hrefusal]
    rw [reportsAll_of_ok tokio waits hresult]
    simp [hnone.mp hrefusal]
  · have hlen : (granted len script).length ≠ len := by
      rw [Ne, ← hnone, hrefusal]
      simp
    by_cases hfault : fault = .wouldBlock
    · have hresult : (attempt .wsa len script).result =
          .ok (granted len script).length := by
        simp [attempt, wsaResult, hrefusal, hfault]
      rw [reportsAll_of_ok tokio waits hresult]
      simp [hlen, hrefusal, hfault]
    · by_cases hgranted : granted len script = []
      · have hresult : (attempt .wsa len script).result =
            .error fault.error := by
          simp [attempt, wsaResult, hrefusal, hgranted]
        have hall := reportsAll_of_error tokio waits hresult
          (by simpa using hfault)
        simp [hall, hgranted, hrefusal, hfault]
      · have hresult : (attempt .wsa len script).result =
            .ok (granted len script).length := by
          simp [attempt, wsaResult, hrefusal, List.length_pos_iff, hgranted]
        rw [reportsAll_of_ok tokio waits hresult]
        simp [hlen, hgranted]

/-! ### Batched paths -/

def batchedPath (retryEintr : Bool) : SendPath :=
  if retryEintr then .batchedRetry else .batched

theorem attempt_batchedPath (retryEintr : Bool) {len : Nat}
    (hlen : 0 < vlen len) (script : List (Except Fault Unit)) :
    attempt (batchedPath retryEintr) len script =
      batchedAttempt (vlen len) (uninterrupted retryEintr script) := by
  have hne : vlen len ≠ 0 := by omega
  cases retryEintr <;>
    simp [attempt, batchedPath, uninterrupted, skipInterrupted, hne]

theorem batchedAttempt_refused {n : Nat} {script : List (Except Fault Unit)}
    {fault : Fault} (hn : 0 < n)
    (h : (ask .wouldBlock script).1 = .error fault) :
    batchedAttempt n script =
      ⟨.error fault.error, 0, (ask .wouldBlock script).2⟩ := by
  obtain ⟨n, rfl⟩ : ∃ k, n = k + 1 := ⟨n - 1, by omega⟩
  cases script with
  | nil =>
      obtain rfl : Fault.wouldBlock = fault := by simpa [ask] using h
      simp [batchedAttempt, batchedResult, Os.sendManyResult, granted, refusal,
        remaining, ask]
  | cons answer script =>
      obtain rfl : answer = .error fault := by simpa [ask] using h
      simp [batchedAttempt, batchedResult, Os.sendManyResult, granted, refusal,
        remaining, ask]

theorem batchedAttempt_accepted {n : Nat} (script : List (Except Fault Unit))
    (hn : 0 < n) :
    (batchedAttempt n (.ok () :: script)).result =
      .ok (granted n (.ok () :: script)).length := by
  obtain ⟨n, rfl⟩ : ∃ k, n = k + 1 := ⟨n - 1, by omega⟩
  simp [batchedAttempt, batchedResult, Os.sendManyResult, granted]

theorem takesAllOrNone_of_refused {len : Nat} (hlen : 0 < vlen len)
    {script : List (Except Fault Unit)} {fault : Fault}
    (h : (ask .wouldBlock script).1 = .error fault) :
    TakesAllOrNone len script := by
  obtain ⟨len, rfl⟩ : ∃ k, len = k + 1 :=
    ⟨len - 1, by have := vlen_le len; omega⟩
  refine .inl ⟨hlen, ?_⟩
  cases script with
  | nil => rfl
  | cons answer script =>
      obtain rfl : answer = .error fault := by simpa [ask] using h
      rfl

theorem takesAllOrNone_of_accepted {len : Nat}
    (script : List (Except Fault Unit)) (hlen : 0 < vlen len) :
    TakesAllOrNone len (.ok () :: script) ↔
      (granted (vlen len) (.ok () :: script)).length = len := by
  have hle := vlen_le len
  have hcount := granted_length_le (vlen len) (.ok () :: script : List
    (Except Fault Unit))
  obtain ⟨k, rfl⟩ : ∃ k, len = k + 1 := ⟨len - 1, by omega⟩
  constructor
  · rintro (⟨-, hnil⟩ | ⟨hfit, hall⟩)
    · simp [granted] at hnil
    · rw [hfit, hall]
  · intro h
    have hfit : vlen (k + 1) = k + 1 := by omega
    rw [hfit] at h
    exact .inr ⟨hfit, h⟩

theorem settle_of_decided {retryEintr tokio : Bool} (waits : List Wait)
    {script : List (Except Fault Unit)}
    (h : (ask .wouldBlock (uninterrupted retryEintr script)).1 ≠
      .error .wouldBlock) :
    settle retryEintr tokio waits script = uninterrupted retryEintr script := by
  cases waits with
  | nil => rfl
  | cons wait waits =>
      rw [settle]
      split
      · next hscript _ => simp [hscript, ask] at h
      · rfl

theorem settle_nil (retryEintr tokio : Bool) (waits : List Wait) :
    settle retryEintr tokio waits [] = [] := by
  have hscript : uninterrupted retryEintr [] = [] := by
    cases retryEintr <;> rfl
  cases waits <;> simp [settle, hscript]

theorem reportsAll_cons_of_wait {retryEintr tokio : Bool} {len : Nat}
    (hlen : 0 < vlen len) (wait : Wait) (waits : List Wait)
    {script : List (Except Fault Unit)}
    (h : (ask .wouldBlock (uninterrupted retryEintr script)).1 =
      .error .wouldBlock)
    (ih : ∀ script, ReportsAll len
        (sendLoop (batchedPath retryEintr) tokio len waits script) ↔
      TakesAllOrNone len (settle retryEintr tokio waits script)) :
    ReportsAll len
        (sendLoop (batchedPath retryEintr) tokio len (wait :: waits) script) ↔
      TakesAllOrNone len (settle retryEintr tokio (wait :: waits) script) := by
  have hattempt := attempt_batchedPath retryEintr hlen script
  rw [batchedAttempt_refused hlen h] at hattempt
  have harm : sendArm (attempt (batchedPath retryEintr) len script).result =
      none := by
    simp [hattempt, sendArm]
  have hrefused := takesAllOrNone_of_refused hlen h
  rw [sendLoop_cons_of_wait wait waits harm, hattempt, settle]
  cases hscript : uninterrupted retryEintr script with
  | nil =>
      have hrest := ih []
      rw [settle_nil] at hrest
      rw [hscript] at hrefused
      rcases tokio with - | - <;> rcases wait.outcome with error | value <;>
        simp [ReportsAll, ask, hrefused] at hrest ⊢
      exact hrest
  | cons answer rest =>
      obtain rfl : answer = .error .wouldBlock := by
        simpa [hscript, ask] using h
      rw [hscript] at hrefused
      have hrest := ih rest
      rcases tokio with - | - <;> rcases wait.outcome with error | value <;>
        simp [ReportsAll, ask, hrefused] at hrest ⊢
      exact hrest

theorem reportsAll_of_decided {retryEintr tokio : Bool} {len : Nat}
    (hlen : 0 < vlen len) (waits : List Wait)
    {script : List (Except Fault Unit)}
    (h : (ask .wouldBlock (uninterrupted retryEintr script)).1 ≠
      .error .wouldBlock) :
    ReportsAll len
        (sendLoop (batchedPath retryEintr) tokio len waits script) ↔
      TakesAllOrNone len (settle retryEintr tokio waits script) := by
  have hattempt := attempt_batchedPath retryEintr hlen script
  rw [settle_of_decided waits h]
  rcases hscript : uninterrupted retryEintr script with
    - | ⟨fault | value, rest⟩
  · simp [hscript, ask] at h
  · have hask : (ask .wouldBlock (uninterrupted retryEintr script)).1 =
        .error fault := by simp [hscript, ask]
    rw [batchedAttempt_refused hlen hask] at hattempt
    have hkind : fault.error.kind ≠ .wouldBlock := by
      rw [hask] at h
      simpa using h
    have hall := reportsAll_of_error tokio waits
      (congrArg Attempt.result hattempt) hkind
    rw [← hscript]
    simp [hall, takesAllOrNone_of_refused hlen hask]
  · rw [hscript] at hattempt
    rw [reportsAll_of_ok tokio waits ((congrArg Attempt.result hattempt).trans
      (batchedAttempt_accepted rest hlen)), takesAllOrNone_of_accepted _ hlen]

theorem reportsAll_batched (retryEintr tokio : Bool) {len : Nat}
    (hlen : 0 < vlen len) (waits : List Wait)
    (script : List (Except Fault Unit)) :
    ReportsAll len
        (sendLoop (batchedPath retryEintr) tokio len waits script) ↔
      TakesAllOrNone len (settle retryEintr tokio waits script) := by
  induction waits generalizing script with
  | nil =>
      by_cases h : (ask .wouldBlock (uninterrupted retryEintr script)).1 =
          .error .wouldBlock
      · have hattempt := attempt_batchedPath retryEintr hlen script
        rw [batchedAttempt_refused hlen h] at hattempt
        have harm : sendArm
            (attempt (batchedPath retryEintr) len script).result = none := by
          simp [hattempt, sendArm]
        rw [sendLoop_nil_of_wait harm, settle]
        simp [ReportsAll, takesAllOrNone_of_refused hlen h]
      · exact reportsAll_of_decided hlen [] h
  | cons wait waits ih =>
      by_cases h : (ask .wouldBlock (uninterrupted retryEintr script)).1 =
          .error .wouldBlock
      · exact reportsAll_cons_of_wait hlen wait waits h ih
      · exact reportsAll_of_decided hlen _ h

theorem reportsAll_empty_call (retryEintr tokio : Bool) {len : Nat}
    (hlen : vlen len = 0) (waits : List Wait)
    (script : List (Except Fault Unit)) :
    ReportsAll len
        (sendLoop (batchedPath retryEintr) tokio len waits script) ↔
      TakesAllOrNone len (settle retryEintr tokio waits script) := by
  have hresult : (attempt (batchedPath retryEintr) len script).result =
      .ok 0 := by
    cases retryEintr <;>
      simp [attempt, batchedPath, hlen, batchedAttempt, batchedResult,
        Os.sendManyResult]
  rw [reportsAll_of_ok tokio waits hresult]
  constructor
  · rintro rfl
    exact .inr ⟨hlen, by simp⟩
  · rintro (⟨hpos, -⟩ | ⟨hfit, -⟩) <;> omega

theorem reportsAll_iff (path : SendPath) (tokio : Bool) (len : Nat)
    (waits : List Wait) (script : List (Except Fault Unit)) :
    ReportsAll len (sendLoop path tokio len waits script) ↔
      SendsCompletely path tokio len waits script := by
  have hbatched : ∀ retryEintr,
      ReportsAll len
          (sendLoop (batchedPath retryEintr) tokio len waits script) ↔
        TakesAllOrNone len (settle retryEintr tokio waits script) := by
    intro retryEintr
    rcases Nat.eq_zero_or_pos (vlen len) with hlen | hlen
    · exact reportsAll_empty_call retryEintr tokio hlen waits script
    · exact reportsAll_batched retryEintr tokio hlen waits script
  cases path with
  | perPacket => exact reportsAll_perPacket tokio len waits script
  | wsa => exact reportsAll_wsa tokio len waits script
  | batched => exact hbatched false
  | batchedRetry => exact hbatched true

namespace BingerUdp

/-- If the call returns `Ok(n)`, then `n` is the length of the batch and the
kernel accepted every entry once, in order. -/
def CompleteCall (batch : SendBatchRaw) (waits : List Wait)
    (socket : BingerUdp) (os : Os) : Prop :=
  ∀ n, (sendBatch batch waits socket os).1 = .ready (.ok n) →
    n = batch.len ∧
    ∃ accepted, (sendBatch batch waits socket os).2.2.wire =
        os.wire ++ accepted ∧
      accepted.map Sent.item = items socket.backend batch

/-- A successful `send_batch` is complete exactly on the inputs where the
kernel does not stop between two packets. -/
theorem sendBatch_complete_iff (batch : SendBatchRaw) (waits : List Wait)
    (socket : BingerUdp) (os : Os) :
    CompleteCall batch waits socket os ↔
      SendsCompletely (sendPath socket.backend os) socket.tokio batch.len waits
        os.sendScript := by
  rw [← reportsAll_iff]
  obtain ⟨hresult, accepted, hwire, hitems⟩ :=
    sendBatch_refines batch waits socket os
  simp only [CompleteCall, ReportsAll, hresult, hwire,
    List.append_cancel_left_eq, exists_eq_left', hitems]
  have hle := sendLoop_accepted_le (sendPath socket.backend os) socket.tokio
    batch.len waits os.sendScript
  generalize sendLoop (sendPath socket.backend os) socket.tokio batch.len
    waits os.sendScript = out at hle ⊢
  have hall : (items socket.backend batch).take out.2 =
      items socket.backend batch ↔ out.2 = batch.len := by
    rw [List.take_eq_self_iff, items_length]
    omega
  simp only [hall]

def stoppingOs : Os where
  peer := some .unspecified
  hasSendmmsg := true
  hasRecvmmsg := true
  hasSendmsgX := true
  hasRecvmsgX := true
  sendScript := [.ok (), .error .wouldBlock]
  recvScript := []
  wire := []

def twoDatagrams : SendBatchRaw :=
  .ofEntries [⟨⟨0, [1]⟩, none⟩, ⟨⟨1, [2]⟩, none⟩]

/-- `send_batch` reports one packet of two on Linux. -/
theorem sendBatch_incomplete :
    ¬ CompleteCall twoDatagrams [] (plainSocket .linux) stoppingOs := by
  intro h
  have hresult : (sendBatch twoDatagrams [] (plainSocket .linux)
      stoppingOs).1 = .ready (.ok 1) := by rfl
  exact absurd (h 1 hresult).1 (by decide)

end BingerUdp

end Binger.Socket
