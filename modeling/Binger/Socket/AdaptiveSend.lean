import Binger.Socket.Adaptive
import Binger.Socket.Gso

/-!
# Adaptive batching over a history of sends

`try_send_batch` records its successes, but only the `WouldBlock` arm of
`send_batch` calls `maybe_adjust`.  A call whose first attempt succeeds adjusts
nothing, however free the socket has been.  A call that meets `WouldBlock`
adjusts at once when the interval is over; every later attempt of the same call
can only find a rate of one and halve the target.
-/

namespace Binger.Socket.Adaptive

open Binger.Foundation Binger.Platform AdaptiveState

/-! ## Rounding -/

theorem roundToF64_bounds (n : Nat) :
    15 * n ≤ 16 * roundToF64 n ∧ 16 * roundToF64 n ≤ 17 * n := by
  unfold roundToF64
  split
  · omega
  · next hlarge =>
      have hn : n ≠ 0 := by omega
      have hlog : 53 ≤ Nat.log2 n := (Nat.le_log2 hn).mpr (by omega)
      have hpow : 2 ^ (Nat.log2 n - 52) * 2 ^ 52 ≤ n := by
        rw [← Nat.pow_add, Nat.sub_add_cancel (by omega)]
        exact Nat.log2_self_le hn
      have hpos : 0 < 2 ^ (Nat.log2 n - 52) := Nat.two_pow_pos _
      have hdiv := Nat.div_add_mod n (2 ^ (Nat.log2 n - 52))
      have hmod := Nat.mod_lt n hpos
      rw [Nat.mul_comm] at hdiv
      simp only
      split
      · rw [Nat.succ_mul (n / 2 ^ (Nat.log2 n - 52))]
        omega
      · omega

theorem rateAbove_first {wouldBlockCount totalSendCount k : Nat} (hk : k ≠ 0)
    (h : rateBelow (wouldBlockCount + k) (totalSendCount + k + 1) = true) :
    rateAbove (wouldBlockCount + 1) (totalSendCount + 1) = false := by
  have hblocked := roundToF64_bounds (wouldBlockCount + k)
  have htotal := roundToF64_bounds (totalSendCount + k + 1)
  have hfirst := roundToF64_bounds (wouldBlockCount + 1)
  have hfirst' := roundToF64_bounds (totalSendCount + 1)
  simp only [rateBelow, decide_eq_true_eq] at h
  simp only [rateAbove, decide_eq_false_iff_not]
  omega

theorem rateAbove_self (n : Nat) : rateAbove n n = true := by
  simp only [rateAbove, decide_eq_true_eq]
  omega

/-! ## The blocked attempts of a call -/

def noteBlocked (state : AdaptiveState) (now : Nat) : AdaptiveState :=
  state.recordWouldBlock.maybeAdjust now

def blockedAt (path : SendPath) (tokio : Bool) (len : Nat) :
    List Wait → List (Except Fault Unit) → List Nat
  | [], _ => []
  | wait :: waits, script =>
      let done := attempt path len script
      match sendArm done.result with
      | some _ => []
      | none =>
          wait.now ::
            match tokio, wait.outcome with
            | true, .ok () => blockedAt path tokio len waits done.rest
            | _, _ => []

def afterCall (state : AdaptiveState) (times : List Nat)
    (result : IoResult Nat) : AdaptiveState :=
  match result with
  | .ok _ => (times.foldl noteBlocked state).recordEvent
  | .error _ => times.foldl noteBlocked state

@[simp] theorem afterCall_nil_error (state : AdaptiveState)
    (error : IoError) : afterCall state [] (.error error) = state := rfl

theorem afterCall_cons (state : AdaptiveState) (now : Nat) (times : List Nat)
    (result : IoResult Nat) :
    afterCall state (now :: times) result =
      afterCall (noteBlocked state now) times result := by
  cases result <;> rfl

theorem trySendBatch_adaptiveSend {socket socket' : BingerUdp} {os os' : Os}
    {batch : SendBatchRaw} {result : IoResult Nat} {state : AdaptiveState}
    (h : socket.trySendBatch batch os = (result, socket', os'))
    (hstate : socket.adaptiveSend = some state) :
    socket'.adaptiveSend = some (afterCall state [] result) := by
  unfold BingerUdp.trySendBatch at h
  split at h
  · simp only [Prod.mk.injEq] at h
    obtain ⟨rfl, rfl, -⟩ := h
    exact hstate
  · simp only [Prod.mk.injEq] at h
    obtain ⟨rfl, rfl, -⟩ := h
    simp [hstate, afterCall]

theorem noteSendWouldBlock_adaptiveSend {socket : BingerUdp}
    {state : AdaptiveState} (h : socket.adaptiveSend = some state)
    (now : Nat) :
    (socket.noteSendWouldBlock now).adaptiveSend =
      some (noteBlocked state now) := by
  rw [BingerUdp.noteSendWouldBlock, h]
  rfl

theorem adaptiveSend_of_wait {socket socket' : BingerUdp} {os os' : Os}
    {batch : SendBatchRaw} {result : IoResult Nat} {state : AdaptiveState}
    (h : socket.trySendBatch batch os = (result, socket', os'))
    (harm : sendArm result = none)
    (hstate : socket.adaptiveSend = some state) (now : Nat) :
    (socket'.noteSendWouldBlock now).adaptiveSend =
      some (noteBlocked state now) := by
  rcases sendArm_eq_none_iff.mp harm with ⟨error, rfl, -⟩
  exact noteSendWouldBlock_adaptiveSend (trySendBatch_adaptiveSend h hstate) now

theorem blockedAt_of_done {path : SendPath} {tokio : Bool} {len : Nat}
    {script : List (Except Fault Unit)} {result : IoResult Nat}
    (harm : sendArm (attempt path len script).result = some result)
    (waits : List Wait) : blockedAt path tokio len waits script = [] := by
  cases waits <;> simp [blockedAt, harm]

theorem sendBatch_adaptiveSend {batch : SendBatchRaw} {waits : List Wait}
    {socket socket' : BingerUdp} {os os' : Os} {result : IoResult Nat}
    {state : AdaptiveState}
    (h : BingerUdp.sendBatch batch waits socket os =
      (.ready result, socket', os'))
    (hstate : socket.adaptiveSend = some state) :
    socket'.adaptiveSend = some (afterCall state
      (blockedAt (sendPath socket.backend os) socket.tokio batch.len waits
        os.sendScript) result) := by
  refine BingerUdp.sendBatch_rule (motive := fun waits socket os =>
    ∀ state, socket.adaptiveSend = some state →
      socket'.adaptiveSend = some (afterCall state
        (blockedAt (sendPath socket.backend os) socket.tokio batch.len waits
          os.sendScript) result)) ?_ ?_ ?_ h state hstate
  · intro waits socket os hcall harm state hstate
    have hresult := (BingerUdp.performs_of_trySendBatch hcall).1
    have hattempt := congrArg sendArm hresult
    rw [blockedAt_of_done (hattempt.symm.trans harm) waits]
    exact trySendBatch_adaptiveSend hcall hstate
  · intro wait waits socket os tried socket₁ error hcall harm hnoted hresult
      hends state hstate
    rcases BingerUdp.performs_of_trySendBatch hcall with
      ⟨htried, -, htokio, -⟩
    have hattempt := (congrArg sendArm htried).symm.trans harm
    have hlast : blockedAt (sendPath socket.backend os) socket.tokio batch.len
        (wait :: waits) os.sendScript = [wait.now] := by
      rw [htokio] at hends
      rcases hends with hfalse | houtcome
      · simp [blockedAt, hattempt, hfalse]
      · simp [blockedAt, hattempt, houtcome]
    rw [hlast, hnoted, hresult]
    exact adaptiveSend_of_wait hcall harm hstate wait.now
  · intro wait waits socket os tried socket₁ os₁ hcall harm htokio houtcome ih
      state hstate
    rcases BingerUdp.performs_of_trySendBatch hcall with
      ⟨htried, hbackend, hsame, performs⟩
    have hattempt := (congrArg sendArm htried).symm.trans harm
    have hscript : os₁.sendScript = _ := performs.script
    have hpath : sendPath socket.backend os₁ = _ := performs.path
    have hrest := ih _ (adaptiveSend_of_wait hcall harm hstate wait.now)
    rw [BingerUdp.noteSendWouldBlock_backend,
      BingerUdp.noteSendWouldBlock_tokio, hbackend, hsame, hscript, hpath,
      ← afterCall_cons] at hrest
    rw [hsame] at htokio
    simpa [blockedAt, hattempt, htokio, houtcome] using hrest

/-! ## Histories of calls -/

structure Call where
  batch : SendBatchRaw
  started : Nat
  waits : List Wait

structure Sender where
  socket : BingerUdp
  os : Os
  clock : Nat

namespace Sender

def send (sender : Sender) (call : Call) :
    Poll (IoResult Nat) × BingerUdp × Os :=
  BingerUdp.sendBatch call.batch call.waits sender.socket sender.os

/-- A call that runs to its end, on a clock that does not go back. -/
def step (sender : Sender) (call : Call) : Option Sender :=
  let times := call.waits.map Wait.now
  if (sender.clock :: call.started :: times).Pairwise (· ≤ ·) then
    match sender.send call with
    | (.ready _, socket, os) => some ⟨socket, os, times.getLastD call.started⟩
    | (.pending, _, _) => none
  else none

def blockedAt (sender : Sender) (call : Call) : List Nat :=
  Adaptive.blockedAt (sendPath sender.socket.backend sender.os)
    sender.socket.tokio call.batch.len call.waits sender.os.sendScript

/-- The kernel has no room for the first attempt of a call. -/
def FirstBlocked (sender : Sender) (call : Call) : Prop :=
  sendArm (attempt (sendPath sender.socket.backend sender.os) call.batch.len
    sender.os.sendScript).result = none

end Sender

/-- Blocked attempts at these times include an adjustment to the size that a
low rate asks for. -/
def Reacts (state : AdaptiveState) (times : List Nat) : Prop :=
  ∃ before now after, times = before ++ now :: after ∧
    (before ++ [now]).foldl noteBlocked state =
      ⟨min (state.targetSize * 3 / 2) 1024, 0, 0, now⟩

theorem Bounded.noteBlocked {state : AdaptiveState} (h : Bounded state)
    (now : Nat) : Bounded (noteBlocked state now) := by
  rw [Adaptive.noteBlocked, maybeAdjust_eq_adjust]
  exact h.recordWouldBlock.adjust now now

theorem Bounded.foldl_noteBlocked {state : AdaptiveState} (h : Bounded state)
    (times : List Nat) : Bounded (times.foldl Adaptive.noteBlocked state) := by
  induction times generalizing state with
  | nil => exact h
  | cons now times ih => exact ih (h.noteBlocked now)

theorem Bounded.afterCall {state : AdaptiveState} (h : Bounded state)
    (times : List Nat) (result : IoResult Nat) :
    Bounded (afterCall state times result) := by
  cases result with
  | ok n => exact (h.foldl_noteBlocked times).recordEvent
  | error error => exact h.foldl_noteBlocked times

theorem noteBlocked_of_due {state : AdaptiveState} {now : Nat}
    (h : state.lastAdjustment + adjustmentInterval ≤ now) :
    noteBlocked state now =
      ⟨nextTarget
          (rateAbove (state.wouldBlockCount + 1) (state.totalSendCount + 1))
          (rateBelow (state.wouldBlockCount + 1) (state.totalSendCount + 1))
          state.targetSize, 0, 0, now⟩ := by
  have hcounts : rateCounts now state.recordWouldBlock =
      some (state.wouldBlockCount + 1, state.totalSendCount + 1) :=
    rateCounts_eq_some_iff.mpr ⟨h, Nat.succ_ne_zero _, rfl, rfl⟩
  rw [noteBlocked, maybeAdjust_eq_adjust, adjust_of_due hcounts]
  rfl

theorem noteBlocked_of_early {state : AdaptiveState} {now : Nat}
    (h : ¬ state.lastAdjustment + adjustmentInterval ≤ now) :
    noteBlocked state now = state.recordWouldBlock := by
  rw [noteBlocked, maybeAdjust, if_pos]
  simp only [recordWouldBlock, adjustmentInterval] at h ⊢
  omega

theorem foldl_noteBlocked_targetSize_le {state : AdaptiveState}
    (hbounded : Bounded state)
    (h : state.wouldBlockCount = state.totalSendCount) (times : List Nat) :
    (times.foldl noteBlocked state).targetSize ≤ state.targetSize := by
  induction times generalizing state with
  | nil => exact Nat.le_refl _
  | cons now times ih =>
      have hnext := hbounded.noteBlocked now
      rw [List.foldl_cons]
      by_cases hdue : state.lastAdjustment + adjustmentInterval ≤ now
      · rw [noteBlocked_of_due hdue] at hnext ⊢
        refine (ih hnext rfl).trans ?_
        have hpos := hbounded.target_pos
        rw [h, rateAbove_self]
        simp only [nextTarget, if_true, minBatch]
        omega
      · rw [noteBlocked_of_early hdue] at hnext ⊢
        exact ih hnext (congrArg (· + 1) h)

theorem reacts_iff {state : AdaptiveState} {times : List Nat}
    (hbounded : Bounded state)
    (hdue : ∀ now ∈ times, state.lastAdjustment + adjustmentInterval ≤ now)
    (hlow : rateBelow (state.wouldBlockCount + times.length)
      (state.totalSendCount + times.length + 1) = true) :
    Reacts state times ↔ times ≠ [] ∧
      (rateBelow (state.wouldBlockCount + 1) (state.totalSendCount + 1) = true ∨
        state.targetSize = 1 ∨ state.targetSize = 1024) := by
  cases times with
  | nil => simp [Reacts]
  | cons first times =>
      have hpos := hbounded.target_pos
      have hle := hbounded.target_le
      have hfirst := noteBlocked_of_due (hdue first List.mem_cons_self)
      rw [rateAbove_first (Nat.succ_ne_zero _) hlow] at hfirst
      simp only [ne_eq, reduceCtorEq, not_false_eq_true, true_and]
      cases hrate : rateBelow (state.wouldBlockCount + 1)
          (state.totalSendCount + 1) with
      | true =>
          rw [hrate, nextTarget_low hle] at hfirst
          simp only [true_or, iff_true]
          exact ⟨[], first, times, rfl, hfirst⟩
      | false =>
          have hkept : nextTarget false false state.targetSize =
              state.targetSize := rfl
          rw [hrate, hkept] at hfirst
          simp only [Bool.false_eq_true, false_or]
          constructor
          · rintro ⟨before, now, after, htimes, hstate⟩
            obtain ⟨rest, hrest⟩ : ∃ rest,
                before ++ [now] = first :: rest := by
              cases before <;> simp_all
            have hnext := hbounded.noteBlocked first
            rw [hfirst] at hnext
            rw [hrest, List.foldl_cons, hfirst] at hstate
            have hgrow := foldl_noteBlocked_targetSize_le hnext rfl rest
            rw [hstate] at hgrow
            simp only at hgrow
            omega
          · intro hfixed
            refine ⟨[], first, times, rfl, hfirst.trans ?_⟩
            rw [AdaptiveState.mk.injEq]
            refine ⟨?_, rfl, rfl, rfl⟩
            omega

/-! ## A free socket -/

theorem mem_of_mem_blockedAt {path : SendPath} {tokio : Bool} {len now : Nat}
    {waits : List Wait} {script : List (Except Fault Unit)}
    (h : now ∈ blockedAt path tokio len waits script) :
    now ∈ waits.map Wait.now := by
  induction waits generalizing script with
  | nil => simp [blockedAt] at h
  | cons wait waits ih =>
      simp only [blockedAt] at h
      split at h
      · simp at h
      · rw [List.map_cons]
        rcases List.mem_cons.mp h with rfl | hrest
        · exact List.mem_cons_self
        · split at hrest
          · exact List.mem_cons_of_mem _ (ih hrest)
          · simp at hrest

namespace Sender

theorem step_eq_some {sender next : Sender} {call : Call}
    (h : sender.step call = some next) :
    (sender.clock :: call.started :: call.waits.map Wait.now).Pairwise
        (· ≤ ·) ∧
      ∃ result, sender.send call = (.ready result, next.socket, next.os) := by
  simp only [step] at h
  split at h
  · next htimes =>
      split at h
      · next result socket os hsend =>
          cases h
          exact ⟨htimes, result, hsend⟩
      · cases h
  · cases h

theorem blockedAt_ne_nil_iff {sender : Sender} {call : Call}
    {result : IoResult Nat} {socket : BingerUdp} {os : Os}
    (h : sender.send call = (.ready result, socket, os)) :
    sender.blockedAt call ≠ [] ↔ sender.FirstBlocked call := by
  rw [FirstBlocked, blockedAt]
  rw [send] at h
  cases hwaits : call.waits with
  | nil =>
      obtain ⟨socket₁, os₁, hcall, -, -, -⟩ :=
        sender.socket.trySendBatch_performs call.batch sender.os
      rw [hwaits, BingerUdp.sendBatch, hcall] at h
      apply iff_of_false (by simp [Adaptive.blockedAt])
      intro hblocked
      simp [hblocked] at h
  | cons wait waits =>
      cases harm : sendArm (attempt (sendPath sender.socket.backend sender.os)
          call.batch.len sender.os.sendScript).result <;>
        simp [Adaptive.blockedAt, harm]

def Adapts (sender : Sender) : Prop :=
  ∃ state, sender.socket.adaptiveSend = some state ∧ Bounded state

theorem adapts_step {sender next : Sender} {call : Call}
    (hadapts : sender.Adapts) (h : sender.step call = some next) :
    next.Adapts := by
  obtain ⟨state, hstate, hbounded⟩ := hadapts
  obtain ⟨-, result, hsend⟩ := step_eq_some h
  exact ⟨_, sendBatch_adaptiveSend hsend hstate, hbounded.afterCall _ _⟩

/-- A call that returns after a time with a low rate has raised the target
exactly when its first attempt was blocked and found a low rate, or when there
was nothing to change. -/
theorem sendBatch_reacts_iff {initial now : Nat} {start sender next : Sender}
    (hstart : start.socket.adaptiveSend = some (.new initial now))
    {history : List Call} (hhistory : run step start history = some sender)
    {state : AdaptiveState} (hstate : sender.socket.adaptiveSend = some state)
    {call : Call} (hcall : sender.step call = some next) {n : Nat}
    (hok : (sender.send call).1 = .ready (.ok n))
    (hdue : state.lastAdjustment + adjustmentInterval ≤ call.started)
    (hlow : rateBelow
      (state.wouldBlockCount + (sender.blockedAt call).length)
      (state.totalSendCount + (sender.blockedAt call).length + 1) = true) :
    next.socket.adaptiveSend =
        some ((sender.blockedAt call).foldl noteBlocked state).recordEvent ∧
    (Reacts state (sender.blockedAt call) ↔ sender.FirstBlocked call ∧
      (rateBelow (state.wouldBlockCount + 1) (state.totalSendCount + 1) =
          true ∨ state.targetSize = 1 ∨ state.targetSize = 1024)) := by
  have hadapts : start.Adapts := ⟨_, hstart, bounded_new initial now⟩
  obtain ⟨state', hstate', hbounded⟩ :=
    run_preserves (fun _ _ _ => adapts_step) hadapts hhistory
  obtain rfl : state = state' := by simpa [hstate] using hstate'
  obtain ⟨htimes, result, hsend⟩ := step_eq_some hcall
  have hafter : ∀ time ∈ sender.blockedAt call,
      state.lastAdjustment + adjustmentInterval ≤ time := by
    intro time hmem
    have hstarted := (List.pairwise_cons.mp
      (List.pairwise_cons.mp htimes).2).1 time (mem_of_mem_blockedAt hmem)
    exact hdue.trans hstarted
  have hreturned : result = .ok n := by simpa [hsend] using hok
  constructor
  · rw [sendBatch_adaptiveSend hsend hstate, hreturned]
    rfl
  · rw [reacts_iff hbounded hafter hlow, blockedAt_ne_nil_iff hsend]

def adaptiveSender (state : AdaptiveState) (sent clock : Nat)
    (script : List (Except Fault Unit)) : Sender where
  socket := { BingerUdp.plainSocket .linux with adaptiveSend := some state }
  os := { connectedOs script with
    wire := List.replicate sent ⟨0, [1], some (.v4 .loopback 7)⟩ }
  clock := clock

def onePacket (started : Nat) (waits : List Wait) : Call :=
  ⟨byteEntries [[1]], started, waits⟩

def blockedOnce : List (Except Fault Unit) := [.error .wouldBlock, .ok ()]

theorem blocked_call_raises_target :
    run step (adaptiveSender (.new 32 0) 0 0
          (List.replicate 10 (.ok ()) ++ blockedOnce))
        (List.replicate 10 (onePacket 0 [])) =
      some (adaptiveSender ⟨32, 0, 10, 0⟩ 10 0 blockedOnce) ∧
    step (adaptiveSender ⟨32, 0, 10, 0⟩ 10 0 blockedOnce)
        (onePacket 100000000 [⟨100000000, .ok ()⟩]) =
      some (adaptiveSender ⟨48, 0, 1, 100000000⟩ 11 100000000 []) ∧
    Reacts ⟨32, 0, 10, 0⟩ [100000000] := by
  have hhistory : run step (adaptiveSender (.new 32 0) 0 0
        (List.replicate 10 (.ok ()) ++ blockedOnce))
      (List.replicate 10 (onePacket 0 [])) =
    some (adaptiveSender ⟨32, 0, 10, 0⟩ 10 0 blockedOnce) := rfl
  have hcall : step (adaptiveSender ⟨32, 0, 10, 0⟩ 10 0 blockedOnce)
      (onePacket 100000000 [⟨100000000, .ok ()⟩]) =
    some (adaptiveSender ⟨48, 0, 1, 100000000⟩ 11 100000000 []) := rfl
  refine ⟨hhistory, hcall, ?_⟩
  exact (sendBatch_reacts_iff rfl hhistory rfl hcall rfl (by decide)
    (by decide)).2.mpr ⟨rfl, .inl rfl⟩

/-- Two sends without any `WouldBlock`, the second one after the interval: the
target and the counters stay as they were. -/
theorem free_socket_is_not_noticed :
    run step (adaptiveSender (.new 32 0) 0 0 [.ok (), .ok ()])
        [onePacket 0 []] =
      some (adaptiveSender ⟨32, 0, 1, 0⟩ 1 0 [.ok ()]) ∧
    step (adaptiveSender ⟨32, 0, 1, 0⟩ 1 0 [.ok ()])
        (onePacket 100000000 []) =
      some (adaptiveSender ⟨32, 0, 2, 0⟩ 2 100000000 []) ∧
    ((adaptiveSender ⟨32, 0, 1, 0⟩ 1 0 [.ok ()]).send
      (onePacket 100000000 [])).1 = .ready (.ok 1) ∧
    (adaptiveSender ⟨32, 0, 1, 0⟩ 1 0 [.ok ()]).blockedAt
      (onePacket 100000000 []) = [] ∧
    rateBelow 0 2 = true ∧ ¬ Reacts ⟨32, 0, 1, 0⟩ [] := by
  refine ⟨rfl, rfl, rfl, rfl, rfl, ?_⟩
  rintro ⟨before, now, after, htimes, -⟩
  simp at htimes

end Sender

end Binger.Socket.Adaptive
