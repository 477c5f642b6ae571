import Binger.Foundation.Runs
import Binger.Socket.State

/-!
# The adaptive controller

The mutex serialises the calls of all tasks, so an interleaving of them is a
list of operations.  `maybe_adjust` reads the clock twice, once to see how long
the last adjustment is ago and once to store the time of the new one, and the
clock may go on in between.

The bounds of the controller do not depend on how the comparisons of the rate
come out, so they are parameters here.  Recovery does: a target of one is not
raised any more, since three halves of it round down to one.
-/

namespace Binger.Socket.Adaptive

open Binger.Foundation AdaptiveState

/-! ## Operations -/

def nextTarget (above below : Bool) (targetSize : Nat) : Nat :=
  if above then max (targetSize / 2) minBatch
  else if below && targetSize < maxBatch then
    min (targetSize * 3 / 2) maxBatch
  else targetSize

/-- The counts that `wb_rate` is computed from, if `maybe_adjust` gets that
far. -/
def rateCounts (checked : Nat) (state : AdaptiveState) : Option (Nat × Nat) :=
  if checked - state.lastAdjustment < adjustmentInterval then none
  else if state.totalSendCount = 0 then none
  else some (state.wouldBlockCount, state.totalSendCount)

structure Controller where
  state : AdaptiveState
  clock : Nat
  deriving DecidableEq, Repr

def fresh (initial now : Nat) : Controller := ⟨.new initial now, now⟩

inductive Operation where
  | recordEvent
  | recordWouldBlock
  | maybeAdjust (checked stored : Nat)
  deriving DecidableEq, Repr

structure Adjustment where
  checked : Nat
  stored : Nat
  deriving DecidableEq, Repr

def adjustment (controller : Controller) : Operation → Option Adjustment
  | .recordEvent | .recordWouldBlock => none
  | .maybeAdjust checked stored =>
      (rateCounts checked controller.state).map fun _ => ⟨checked, stored⟩

section Operations

variable (above below : Nat → Nat → Bool)

def adjust (checked stored : Nat) (state : AdaptiveState) : AdaptiveState :=
  match rateCounts checked state with
  | none => state
  | some (wouldBlockCount, totalSendCount) =>
      { targetSize := nextTarget (above wouldBlockCount totalSendCount)
          (below wouldBlockCount totalSendCount) state.targetSize
        wouldBlockCount := 0
        totalSendCount := 0
        lastAdjustment := stored }

def step (controller : Controller) : Operation → Option Controller
  | .recordEvent =>
      some { controller with state := controller.state.recordEvent }
  | .recordWouldBlock =>
      some { controller with state := controller.state.recordWouldBlock }
  | .maybeAdjust checked stored =>
      if controller.clock ≤ checked ∧ checked ≤ stored then
        some ⟨adjust above below checked stored controller.state, stored⟩
      else none

end Operations

theorem maybeAdjust_eq_adjust (now : Nat) (state : AdaptiveState) :
    state.maybeAdjust now = adjust rateAbove rateBelow now now state := by
  unfold maybeAdjust adjust rateCounts
  split
  · rfl
  · split <;> rfl

/-! ## Bounds -/

structure Bounded (state : AdaptiveState) : Prop where
  target_pos : 1 ≤ state.targetSize
  target_le : state.targetSize ≤ 1024
  blocked_le : state.wouldBlockCount ≤ state.totalSendCount

theorem bounded_new (initial now : Nat) : Bounded (.new initial now) := by
  constructor
  case target_pos => exact Nat.le_max_left _ _
  case target_le =>
    exact Nat.max_le.mpr ⟨by decide, Nat.min_le_right _ _⟩
  case blocked_le => exact Nat.le_refl 0

theorem Bounded.recordEvent {state : AdaptiveState} (h : Bounded state) :
    Bounded state.recordEvent :=
  ⟨h.target_pos, h.target_le, Nat.le_succ_of_le h.blocked_le⟩

theorem Bounded.recordWouldBlock {state : AdaptiveState} (h : Bounded state) :
    Bounded state.recordWouldBlock :=
  ⟨h.target_pos, h.target_le, Nat.succ_le_succ h.blocked_le⟩

theorem nextTarget_pos (above below : Bool) {targetSize : Nat}
    (h : 1 ≤ targetSize) : 1 ≤ nextTarget above below targetSize := by
  unfold nextTarget minBatch maxBatch
  split
  · exact Nat.le_max_right _ _
  · split <;> omega

theorem nextTarget_le (above below : Bool) {targetSize : Nat}
    (h : targetSize ≤ 1024) : nextTarget above below targetSize ≤ 1024 := by
  unfold nextTarget minBatch maxBatch
  split
  · omega
  · split <;> omega

theorem rateCounts_eq_some_iff {checked wouldBlockCount totalSendCount : Nat}
    {state : AdaptiveState} :
    rateCounts checked state = some (wouldBlockCount, totalSendCount) ↔
      state.lastAdjustment + adjustmentInterval ≤ checked ∧
        totalSendCount ≠ 0 ∧ state.wouldBlockCount = wouldBlockCount ∧
        state.totalSendCount = totalSendCount := by
  unfold rateCounts adjustmentInterval
  split
  · next hearly =>
      simp only [reduceCtorEq, false_iff, not_and]
      omega
  · next hdue =>
      split
      · next hzero =>
          simp only [reduceCtorEq, false_iff, not_and]
          omega
      · next hpos =>
          simp only [Option.some.injEq, Prod.mk.injEq]
          omega

section Runs

variable {above below : Nat → Nat → Bool}

theorem step_maybeAdjust {controller next : Controller}
    {checked stored : Nat} :
    step above below controller (.maybeAdjust checked stored) = some next ↔
      controller.clock ≤ checked ∧ checked ≤ stored ∧
        next = ⟨adjust above below checked stored controller.state,
          stored⟩ := by
  rw [step]
  split
  · next h => simp [h, eq_comm]
  · next h =>
      simp only [reduceCtorEq, false_iff]
      tauto

theorem adjust_of_due {checked stored : Nat} {state : AdaptiveState}
    {counts : Nat × Nat} (h : rateCounts checked state = some counts) :
    adjust above below checked stored state =
      ⟨nextTarget (above counts.1 counts.2) (below counts.1 counts.2)
        state.targetSize, 0, 0, stored⟩ := by
  rw [adjust, h]

theorem adjust_of_early {checked stored : Nat} {state : AdaptiveState}
    (h : rateCounts checked state = none) :
    adjust above below checked stored state = state := by
  rw [adjust, h]

theorem Bounded.adjust {state : AdaptiveState} (h : Bounded state)
    (checked stored : Nat) :
    Bounded (Adaptive.adjust above below checked stored state) := by
  cases hcounts : rateCounts checked state with
  | none => rwa [adjust_of_early hcounts]
  | some counts =>
      rw [adjust_of_due hcounts]
      exact ⟨nextTarget_pos _ _ h.target_pos, nextTarget_le _ _ h.target_le,
        Nat.le_refl 0⟩

theorem Bounded.step {controller next : Controller} {operation : Operation}
    (h : Bounded controller.state)
    (hstep : Adaptive.step above below controller operation = some next) :
    Bounded next.state := by
  cases operation with
  | recordEvent =>
      cases hstep
      exact h.recordEvent
  | recordWouldBlock =>
      cases hstep
      exact h.recordWouldBlock
  | maybeAdjust checked stored =>
      obtain ⟨-, -, rfl⟩ := step_maybeAdjust.mp hstep
      exact h.adjust checked stored

theorem Bounded.run {controller final : Controller}
    {operations : List Operation} (h : Bounded controller.state)
    (hrun : Foundation.run (Adaptive.step above below) controller operations =
      some final) : Bounded final.state :=
  run_preserves
    (fun controller _ _ (hbounded : Bounded controller.state) hstep =>
      hbounded.step hstep) h hrun

theorem step_cases {controller next : Controller} {operation : Operation}
    (h : step above below controller operation = some next) :
    (adjustment controller operation = none ∧
      next.state.targetSize = controller.state.targetSize ∧
      next.state.lastAdjustment = controller.state.lastAdjustment ∧
      next.state.totalSendCount ≤ controller.state.totalSendCount + 1) ∨
    ∃ checked stored counts, operation = .maybeAdjust checked stored ∧
      checked ≤ stored ∧ rateCounts checked controller.state = some counts ∧
      next.state = ⟨nextTarget (above counts.1 counts.2)
        (below counts.1 counts.2) controller.state.targetSize, 0, 0,
        stored⟩ := by
  cases operation with
  | recordEvent | recordWouldBlock =>
      cases h
      exact .inl ⟨rfl, rfl, rfl, Nat.le_refl _⟩
  | maybeAdjust checked stored =>
      obtain ⟨-, hle, rfl⟩ := step_maybeAdjust.mp h
      cases hcounts : rateCounts checked controller.state with
      | none =>
          left
          rw [adjust_of_early hcounts, adjustment, hcounts]
          exact ⟨rfl, rfl, rfl, Nat.le_succ _⟩
      | some counts =>
          exact .inr ⟨checked, stored, counts, rfl, hle, hcounts,
            adjust_of_due hcounts⟩

theorem totalSendCount_le_length {controller final : Controller}
    {operations : List Operation}
    (hrun : run (step above below) controller operations = some final) :
    final.state.totalSendCount ≤
      controller.state.totalSendCount + operations.length := by
  induction operations generalizing controller with
  | nil =>
      obtain rfl : controller = final := by simpa [Foundation.run] using hrun
      exact Nat.le_refl _
  | cons operation operations ih =>
      rcases run_cons_eq_some.mp hrun with ⟨next, hstep, hrest⟩
      have hnext : next.state.totalSendCount ≤
          controller.state.totalSendCount + 1 := by
        rcases step_cases hstep with
          ⟨-, -, -, hle⟩ | ⟨checked, stored, counts, -, -, -, hstate⟩
        · exact hle
        · rw [hstate]
          exact Nat.zero_le _
      have hfinal := ih hrest
      rw [List.length_cons]
      omega

/-! ## Adjustments -/

def RateDefined (controller : Controller) : Operation → Prop
  | .recordEvent | .recordWouldBlock => True
  | .maybeAdjust checked _ => ∀ wouldBlockCount totalSendCount,
      rateCounts checked controller.state =
          some (wouldBlockCount, totalSendCount) → totalSendCount ≠ 0

/-- The target stays, or it moves in one of the three ways of an adjustment. -/
def MovesTarget (controller : Controller) (operation : Operation)
    (next : Controller) : Prop :=
  let before := controller.state.targetSize
  let after := next.state.targetSize
  match adjustment controller operation with
  | none => after = before
  | some _ => after = max (before / 2) 1 ∨ after = before ∨
      after = min (before * 3 / 2) 1024

theorem nextTarget_cases (above below : Bool) (targetSize : Nat) :
    nextTarget above below targetSize = max (targetSize / 2) 1 ∨
      nextTarget above below targetSize = targetSize ∨
      nextTarget above below targetSize = min (targetSize * 3 / 2) 1024 := by
  unfold nextTarget minBatch maxBatch
  split
  · exact .inl rfl
  · split
    · exact .inr (.inr rfl)
    · exact .inr (.inl rfl)

theorem rateDefined (controller : Controller) (operation : Operation) :
    RateDefined controller operation := by
  cases operation with
  | recordEvent | recordWouldBlock => trivial
  | maybeAdjust checked stored =>
      intro wouldBlockCount totalSendCount hcounts
      exact (rateCounts_eq_some_iff.mp hcounts).2.1

theorem movesTarget_of_step {controller next : Controller}
    {operation : Operation}
    (h : step above below controller operation = some next) :
    MovesTarget controller operation next := by
  rw [MovesTarget]
  rcases step_cases h with
    ⟨hnone, htarget, -⟩ | ⟨checked, stored, counts, rfl, -, hcounts, hstate⟩
  · rw [hnone]
    exact htarget
  · rw [adjustment, hcounts, hstate]
    exact nextTarget_cases _ _ _

def Ahead (controller : Controller) (event : Adjustment) : Prop :=
  controller.state.lastAdjustment + adjustmentInterval ≤ event.checked

theorem ahead_of_adjustment {controller : Controller} {operation : Operation}
    {event : Adjustment} (h : adjustment controller operation = some event) :
    Ahead controller event := by
  cases operation with
  | recordEvent | recordWouldBlock => cases h
  | maybeAdjust checked stored =>
      rw [adjustment, Option.map_eq_some_iff] at h
      obtain ⟨counts, hcounts, rfl⟩ := h
      exact (rateCounts_eq_some_iff.mp hcounts).1

theorem ahead_of_step {controller next : Controller} {operation : Operation}
    {event : Adjustment}
    (h : step above below controller operation = some next)
    (hahead : Ahead next event) :
    Ahead controller event ∧
      ∀ first, adjustment controller operation = some first →
        first.stored + adjustmentInterval ≤ event.checked := by
  rw [Ahead] at hahead ⊢
  rcases step_cases h with
    ⟨hnone, -, hlast, -⟩ | ⟨checked, stored, counts, rfl, hle, hcounts, hstate⟩
  · rw [hlast] at hahead
    refine ⟨hahead, ?_⟩
    intro first hfirst
    simp [hnone] at hfirst
  · have hdue := (rateCounts_eq_some_iff.mp hcounts).1
    rw [hstate] at hahead
    constructor
    · exact hdue.trans (hle.trans ((Nat.le_add_right _ _).trans hahead))
    · intro first hfirst
      rw [adjustment, hcounts, Option.map_some, Option.some.injEq] at hfirst
      rw [← hfirst]
      exact hahead

theorem adjustments_apart (controller : Controller)
    (operations : List Operation) :
    (emitted (step above below) adjustment controller operations).Pairwise
      fun first second =>
        first.stored + adjustmentInterval ≤ second.checked := by
  apply @emitted_pairwise _ _ (step above below) _ adjustment Ahead
  · intro controller operation next event _ hevent
    exact ahead_of_adjustment hevent
  · intro controller operation next event hstep hahead
    exact (ahead_of_step hstep hahead).1
  · intro controller operation next first second hstep hfirst hahead
    exact (ahead_of_step hstep hahead).2 first hfirst

/-- The controller over every run, for every outcome of the comparisons of the
rate. -/
theorem run_safe (above below : Nat → Nat → Bool) (initial now : Nat)
    {operations : List Operation} {final : Controller}
    (hrun : run (step above below) (fresh initial now) operations =
      some final) :
    Bounded final.state ∧
    EveryStep (step above below)
      (fun controller operation next => RateDefined controller operation ∧
        MovesTarget controller operation next)
      (fresh initial now) operations ∧
    (emitted (step above below) adjustment (fresh initial now)
      operations).Pairwise fun first second =>
        first.stored + adjustmentInterval ≤ second.checked := by
  refine ⟨(bounded_new initial now).run hrun, ?_, adjustments_apart _ _⟩
  apply EveryStep.of_step
  intro controller operation next hstep
  exact ⟨rateDefined controller operation, movesTarget_of_step hstep⟩

end Runs

theorem two_adjustments_are_safe :
    run (step rateAbove rateBelow) (fresh 32 0)
        [.recordWouldBlock, .maybeAdjust 100000000 100000007, .recordEvent,
          .maybeAdjust 200000007 200000009] =
      some ⟨⟨24, 0, 0, 200000009⟩, 200000009⟩ ∧
    Bounded ⟨24, 0, 0, 200000009⟩ := by
  have hrun : run (step rateAbove rateBelow) (fresh 32 0)
      [.recordWouldBlock, .maybeAdjust 100000000 100000007, .recordEvent,
        .maybeAdjust 200000007 200000009] =
    some ⟨⟨24, 0, 0, 200000009⟩, 200000009⟩ := by decide
  exact ⟨hrun, (run_safe rateAbove rateBelow 32 0 hrun).1⟩

/-! ## Recovery -/

theorem rateAbove_eq_false {wouldBlockCount totalSendCount : Nat}
    (h : rateBelow wouldBlockCount totalSendCount = true) :
    rateAbove wouldBlockCount totalSendCount = false := by
  simp only [rateBelow, decide_eq_true_eq] at h
  simp only [rateAbove, decide_eq_false_iff_not]
  omega

theorem rateBelow_iff {wouldBlockCount totalSendCount : Nat}
    (hblocked : wouldBlockCount < 2 ^ 53) (htotal : totalSendCount < 2 ^ 53) :
    rateBelow wouldBlockCount totalSendCount = true ↔
      10 * wouldBlockCount < totalSendCount := by
  simp only [rateBelow, roundToF64, hblocked, htotal, if_true,
    decide_eq_true_eq]
  omega

def AdjustsLow (state : AdaptiveState) (checked : Nat) : Prop :=
  ∃ wouldBlockCount totalSendCount,
    rateCounts checked state = some (wouldBlockCount, totalSendCount) ∧
      rateBelow wouldBlockCount totalSendCount = true

def OnlyLow (controller : Controller) : Operation → Prop
  | .recordEvent | .recordWouldBlock => True
  | .maybeAdjust checked _ =>
      (rateCounts checked controller.state).isSome →
        AdjustsLow controller.state checked

theorem nextTarget_low {targetSize : Nat} (h : targetSize ≤ 1024) :
    nextTarget false true targetSize = min (targetSize * 3 / 2) 1024 := by
  rcases Nat.lt_or_ge targetSize maxBatch with hlt | hge
  · rw [nextTarget, if_neg Bool.false_ne_true, if_pos (by simpa using hlt),
      maxBatch]
  · obtain rfl : targetSize = 1024 := Nat.le_antisymm h hge
    rfl

theorem adjust_of_low {state : AdaptiveState} {checked stored : Nat}
    (h : AdjustsLow state checked) (hle : state.targetSize ≤ 1024) :
    adjust rateAbove rateBelow checked stored state =
      ⟨min (state.targetSize * 3 / 2) 1024, 0, 0, stored⟩ := by
  obtain ⟨wouldBlockCount, totalSendCount, hcounts, hlow⟩ := h
  rw [adjust_of_due hcounts, hlow, rateAbove_eq_false hlow,
    nextTarget_low hle]

theorem step_target_of_onlyLow {controller next : Controller}
    {operation : Operation} (hle : controller.state.targetSize ≤ 1024)
    (hstep : step rateAbove rateBelow controller operation = some next)
    (hlow : OnlyLow controller operation) :
    next.state.targetSize =
      if (adjustment controller operation).isSome then
        min (controller.state.targetSize * 3 / 2) 1024
      else controller.state.targetSize := by
  rcases step_cases hstep with
    ⟨hnone, htarget, -⟩ | ⟨checked, stored, counts, rfl, -, hcounts, hstate⟩
  · rw [hnone]
    exact htarget
  · have hdue : (rateCounts checked controller.state).isSome := by
      rw [hcounts]
      rfl
    have hlowered := @adjust_of_low _ checked stored (hlow hdue) hle
    rw [adjust_of_due hcounts] at hlowered
    rw [hstate, hlowered, adjustment, hcounts]
    rfl

theorem run_target_of_onlyLow {controller final : Controller}
    {operations : List Operation} (hbounded : Bounded controller.state)
    (hrun : run (step rateAbove rateBelow) controller operations = some final)
    (hlow : EveryStep (step rateAbove rateBelow)
      (fun controller operation _ => OnlyLow controller operation) controller
      operations) :
    (controller.state.targetSize = 1 → final.state.targetSize = 1) ∧
    (2 ≤ controller.state.targetSize →
      min 1024 (controller.state.targetSize +
        (emitted (step rateAbove rateBelow) adjustment controller
          operations).length) ≤ final.state.targetSize) := by
  induction operations generalizing controller with
  | nil =>
      obtain rfl : controller = final := by simpa [run] using hrun
      exact ⟨id, fun _ => by simp [emitted]⟩
  | cons operation operations ih =>
      obtain ⟨next, hstep, hrest⟩ := run_cons_eq_some.mp hrun
      rw [EveryStep, hstep] at hlow
      obtain ⟨hone, htwo⟩ := ih (hbounded.step hstep) hrest hlow.2
      have htarget := step_target_of_onlyLow hbounded.target_le hstep hlow.1
      have hle := hbounded.target_le
      rw [emitted, hstep, List.length_append]
      cases hevent : adjustment controller operation with
      | none =>
          rw [hevent] at htarget
          simp only [Option.isSome_none, Bool.false_eq_true,
            if_false] at htarget
          rw [htarget] at hone htwo
          rw [Option.toList_none, List.length_nil, Nat.zero_add]
          exact ⟨hone, htwo⟩
      | some event =>
          rw [hevent] at htarget
          simp only [Option.isSome_some, if_true] at htarget
          rw [Option.toList_some, List.length_singleton]
          constructor
          · intro h
            exact hone (by omega)
          · intro h
            have hnext := htwo (by omega)
            omega

/-- Whether low rates raise the target again, from any state that a history
leads to below the maximum. -/
theorem recovers_iff {initial now : Nat} {history : List Operation}
    {controller : Controller}
    (hreach : run (step rateAbove rateBelow) (fresh initial now) history =
      some controller) (hlt : controller.state.targetSize < 1024) :
    (∀ checked stored next,
      step rateAbove rateBelow controller (.maybeAdjust checked stored) =
          some next → AdjustsLow controller.state checked →
        (controller.state.targetSize < next.state.targetSize ↔
          controller.state.targetSize ≠ 1)) ∧
    ∃ enough, ∀ operations final,
      run (step rateAbove rateBelow) controller operations = some final →
      EveryStep (step rateAbove rateBelow)
        (fun controller operation _ => OnlyLow controller operation)
        controller operations →
      enough ≤ (emitted (step rateAbove rateBelow) adjustment controller
        operations).length →
      ∀ socket : BingerUdp, socket.adaptiveSend = some final.state →
        (socket.recommendedBatchSize = 1024 ↔
          controller.state.targetSize ≠ 1) := by
  have hbounded := (bounded_new initial now).run hreach
  have hpos := hbounded.target_pos
  constructor
  · intro checked stored next hstep hlow
    obtain ⟨-, -, rfl⟩ := step_maybeAdjust.mp hstep
    rw [adjust_of_low hlow hbounded.target_le]
    simp only
    omega
  · refine ⟨1024, ?_⟩
    intro operations final hrun hlow henough socket hsocket
    obtain ⟨hone, htwo⟩ := run_target_of_onlyLow hbounded hrun hlow
    have hle := (hbounded.run hrun).target_le
    rw [BingerUdp.recommendedBatchSize, hsocket]
    simp only [Option.map_some, Option.getD_some, recommendedSize]
    constructor
    · intro hmax hstuck
      have hfinal := hone hstuck
      omega
    · intro hne
      have hfinal := htwo (by omega)
      omega

theorem low_rate_raises_halved_target :
    run (step rateAbove rateBelow) (fresh 32 0)
        [.recordWouldBlock, .maybeAdjust 100000000 100000000, .recordEvent] =
      some ⟨⟨16, 0, 1, 100000000⟩, 100000000⟩ ∧
    step rateAbove rateBelow ⟨⟨16, 0, 1, 100000000⟩, 100000000⟩
        (.maybeAdjust 200000000 200000000) =
      some ⟨⟨24, 0, 0, 200000000⟩, 200000000⟩ ∧
    16 < 24 := by
  have hreach : run (step rateAbove rateBelow) (fresh 32 0)
      [.recordWouldBlock, .maybeAdjust 100000000 100000000, .recordEvent] =
    some ⟨⟨16, 0, 1, 100000000⟩, 100000000⟩ := by decide
  have hstep : step rateAbove rateBelow ⟨⟨16, 0, 1, 100000000⟩, 100000000⟩
      (.maybeAdjust 200000000 200000000) =
    some ⟨⟨24, 0, 0, 200000000⟩, 200000000⟩ := by decide
  exact ⟨hreach, hstep, ((recovers_iff hreach (by decide)).1 _ _ _ hstep
    ⟨0, 1, rfl, rfl⟩).mpr (by decide)⟩

def congestion : List Operation :=
  [1, 2, 3, 4, 5].flatMap fun k =>
    [.recordWouldBlock, .maybeAdjust (k * 100000000) (k * 100000000)]

def stuck : Controller := ⟨⟨1, 0, 1, 500000000⟩, 500000000⟩

/-- After a burst of congestion the target is one, and an adjustment at a rate
of zero leaves it there. -/
theorem congested_target_stays_one :
    run (step rateAbove rateBelow) (fresh 32 0)
        (congestion ++ [.recordEvent]) = some stuck ∧
    stuck.state.targetSize < 1024 ∧
    ¬ ∀ checked stored next,
      step rateAbove rateBelow stuck (.maybeAdjust checked stored) =
          some next → AdjustsLow stuck.state checked →
        stuck.state.targetSize < next.state.targetSize := by
  refine ⟨by decide, by decide, ?_⟩
  intro raises
  have hraise := raises 600000000 600000000
    ⟨⟨1, 0, 0, 600000000⟩, 600000000⟩ (by decide) ⟨0, 1, rfl, rfl⟩
  exact absurd hraise (by decide)

end Binger.Socket.Adaptive
