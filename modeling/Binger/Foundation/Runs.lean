import Mathlib.Data.List.Basic

/-!
# Runs of a step function

A system with actions is a partial step function.  A run is a list of actions
that are enabled one after the other.  What every step of a run satisfies can
be read off at each position, and an invariant may depend on the actions that
have been taken.  An account that every step balances up to a cost is balanced
by a run up to the total cost.
-/

namespace Binger.Foundation

variable {σ α : Type*} (step : σ → α → Option σ)

def run : σ → List α → Option σ
  | state, [] => some state
  | state, action :: actions =>
      match step state action with
      | some next => run next actions
      | none => none

def EveryStep (P : σ → α → σ → Prop) : σ → List α → Prop
  | _, [] => True
  | state, action :: actions =>
      match step state action with
      | some next => P state action next ∧ EveryStep P next actions
      | none => True

def total (cost : σ → α → Nat) : σ → List α → Nat
  | _, [] => 0
  | state, action :: actions =>
      match step state action with
      | some next => cost state action + total cost next actions
      | none => 0

def emitted {β : Type*} (emit : σ → α → Option β) : σ → List α → List β
  | _, [] => []
  | state, action :: actions =>
      match step state action with
      | some next => (emit state action).toList ++ emitted emit next actions
      | none => []

variable {step}

theorem run_cons_eq_some {state final : σ} {action : α} {actions : List α} :
    run step state (action :: actions) = some final ↔
      ∃ next, step state action = some next ∧
        run step next actions = some final := by
  rw [run]
  cases step state action <;> simp

theorem run_append_eq_some {state final : σ} {first second : List α} :
    run step state (first ++ second) = some final ↔
      ∃ next, run step state first = some next ∧
        run step next second = some final := by
  induction first generalizing state with
  | nil => simp [run]
  | cons action first ih =>
      rw [List.cons_append, run_cons_eq_some]
      simp only [ih, run_cons_eq_some]
      constructor
      · rintro ⟨next, hstep, middle, hfirst, hsecond⟩
        exact ⟨middle, ⟨next, hstep, hfirst⟩, hsecond⟩
      · rintro ⟨middle, ⟨next, hstep, hfirst⟩, hsecond⟩
        exact ⟨next, hstep, middle, hfirst, hsecond⟩

theorem run_map {τ β : Type*} {step' : τ → β → Option τ} {abs : σ → τ}
    {label : α → β}
    (h : ∀ state action, step' (abs state) (label action) =
      (step state action).map abs) (state : σ) (actions : List α) :
    run step' (abs state) (actions.map label) =
      (run step state actions).map abs := by
  induction actions generalizing state with
  | nil => rfl
  | cons action actions ih =>
      rw [List.map_cons, run, run, h]
      cases step state action with
      | none => rfl
      | some next => exact ih next

theorem run_simulates {τ : Type*} {step' : τ → α → Option τ} {abs : σ → τ}
    {Inv : σ → Prop}
    (h : ∀ state action next, Inv state → step state action = some next →
      Inv next ∧ step' (abs state) action = some (abs next))
    {state final : σ} {actions : List α} (hinit : Inv state)
    (hrun : run step state actions = some final) :
    Inv final ∧ run step' (abs state) actions = some (abs final) := by
  induction actions generalizing state with
  | nil =>
      obtain rfl : state = final := by simpa [run] using hrun
      exact ⟨hinit, rfl⟩
  | cons action actions ih =>
      obtain ⟨next, hstep, hrest⟩ := run_cons_eq_some.mp hrun
      obtain ⟨hnext, habs⟩ := h state action next hinit hstep
      obtain ⟨hfinal, hrun'⟩ := ih hnext hrest
      exact ⟨hfinal, run_cons_eq_some.mpr ⟨abs next, habs, hrun'⟩⟩

theorem exists_run (htotal : ∀ state action, ∃ next,
      step state action = some next) (state : σ) (actions : List α) :
    ∃ final, run step state actions = some final := by
  induction actions generalizing state with
  | nil => exact ⟨state, rfl⟩
  | cons action actions ih =>
      rcases htotal state action with ⟨next, hnext⟩
      rcases ih next with ⟨final, hfinal⟩
      exact ⟨final, run_cons_eq_some.mpr ⟨next, hnext, hfinal⟩⟩

instance EveryStep.instDecidable {P : σ → α → σ → Prop}
    [∀ state action next, Decidable (P state action next)] (state : σ)
    (actions : List α) : Decidable (EveryStep step P state actions) :=
  match actions with
  | [] => isTrue trivial
  | action :: actions =>
      match h : step state action with
      | some next =>
          have := EveryStep.instDecidable (P := P) next actions
          decidable_of_iff
            (P state action next ∧ EveryStep step P next actions)
            (by rw [EveryStep, h])
      | none => isTrue (by rw [EveryStep, h]; trivial)

theorem EveryStep.holds_at {P : σ → α → σ → Prop} {state middle next : σ}
    {before after : List α} {action : α}
    (h : EveryStep step P state (before ++ action :: after))
    (hrun : run step state before = some middle)
    (hstep : step middle action = some next) : P middle action next := by
  induction before generalizing state with
  | nil =>
      obtain rfl : state = middle := by simpa [run] using hrun
      rw [List.nil_append, EveryStep, hstep] at h
      exact h.1
  | cons first before ih =>
      obtain ⟨second, hfirst, hrest⟩ := run_cons_eq_some.mp hrun
      rw [List.cons_append, EveryStep, hfirst] at h
      exact ih h.2 hrest

theorem EveryStep.of_inv {P : σ → α → σ → Prop} {Inv : σ → Prop}
    (hkeep : ∀ state action next, Inv state → step state action = some next →
      Inv next)
    (h : ∀ state action next, Inv state → step state action = some next →
      P state action next)
    {state : σ} (hinit : Inv state) (actions : List α) :
    EveryStep step P state actions := by
  induction actions generalizing state with
  | nil => trivial
  | cons action actions ih =>
      rw [EveryStep]
      cases hstep : step state action with
      | none => trivial
      | some next =>
          exact ⟨h state action next hinit hstep,
            ih (hkeep state action next hinit hstep)⟩

theorem EveryStep.of_step {P : σ → α → σ → Prop}
    (h : ∀ state action next, step state action = some next →
      P state action next) (state : σ) (actions : List α) :
    EveryStep step P state actions :=
  @EveryStep.of_inv _ _ step P (fun _ => True) (fun _ _ _ _ _ => trivial)
    (fun state action next _ => h state action next) state trivial actions

theorem EveryStep.congr_of_inv {P Q : σ → α → σ → Prop} {Inv : σ → Prop}
    (hkeep : ∀ state action next, Inv state → P state action next →
      step state action = some next → Inv next)
    (hiff : ∀ state action next, Inv state → step state action = some next →
      (P state action next ↔ Q state action next))
    {state : σ} (hinit : Inv state) (actions : List α) :
    EveryStep step P state actions ↔ EveryStep step Q state actions := by
  induction actions generalizing state with
  | nil => rfl
  | cons action actions ih =>
      simp only [EveryStep]
      cases hstep : step state action with
      | none => rfl
      | some next =>
          have hfirst := hiff state action next hinit hstep
          constructor
          · rintro ⟨hP, hrest⟩
            exact ⟨hfirst.mp hP,
              (ih (hkeep state action next hinit hP hstep)).mp hrest⟩
          · rintro ⟨hQ, hrest⟩
            have hP := hfirst.mpr hQ
            exact ⟨hP,
              (ih (hkeep state action next hinit hP hstep)).mpr hrest⟩

theorem EveryStep.congr {P Q : σ → α → σ → Prop}
    (h : ∀ state action next, step state action = some next →
      (P state action next ↔ Q state action next)) (state : σ)
    (actions : List α) :
    EveryStep step P state actions ↔ EveryStep step Q state actions :=
  @EveryStep.congr_of_inv _ _ step P Q (fun _ => True)
    (fun _ _ _ _ _ _ => trivial)
    (fun state action next _ => h state action next) state trivial actions

theorem EveryStep.and {P Q : σ → α → σ → Prop} {state : σ}
    {actions : List α} (hP : EveryStep step P state actions)
    (hQ : EveryStep step Q state actions) :
    EveryStep step (fun state action next =>
      P state action next ∧ Q state action next) state actions := by
  induction actions generalizing state with
  | nil => trivial
  | cons action actions ih =>
      rw [EveryStep] at hP hQ ⊢
      cases hstep : step state action with
      | none => trivial
      | some next =>
          rw [hstep] at hP hQ
          exact ⟨⟨hP.1, hQ.1⟩, ih hP.2 hQ.2⟩

theorem EveryStep.of_mem {allowed : α → Prop} {actions : List α}
    (h : ∀ action ∈ actions, allowed action) (state : σ) :
    EveryStep step (fun _ action _ => allowed action) state actions := by
  induction actions generalizing state with
  | nil => trivial
  | cons action actions ih =>
      rw [EveryStep]
      cases step state action with
      | none => trivial
      | some next =>
          exact ⟨h action List.mem_cons_self,
            ih (fun action hmem => h action (List.mem_cons_of_mem _ hmem)) next⟩

theorem EveryStep.preserves {P : σ → α → σ → Prop} {Inv : σ → Prop}
    (hkeep : ∀ state action next, Inv state → P state action next →
      step state action = some next → Inv next)
    {state final : σ} {actions : List α} (hinit : Inv state)
    (hevery : EveryStep step P state actions)
    (hrun : run step state actions = some final) : Inv final := by
  induction actions generalizing state with
  | nil =>
      obtain rfl : state = final := by simpa [run] using hrun
      exact hinit
  | cons action actions ih =>
      obtain ⟨next, hstep, hrest⟩ := run_cons_eq_some.mp hrun
      rw [EveryStep, hstep] at hevery
      exact ih (hkeep state action next hinit hevery.1 hstep) hevery.2 hrest

theorem EveryStep.run_map {τ β : Type*} {step' : τ → β → Option τ}
    {abs : σ → τ} {label : α → β} {P : σ → α → σ → Prop}
    (h : ∀ state action next, P state action next →
      step state action = some next →
      step' (abs state) (label action) = some (abs next))
    {state final : σ} {actions : List α}
    (hevery : EveryStep step P state actions)
    (hrun : run step state actions = some final) :
    run step' (abs state) (actions.map label) = some (abs final) := by
  induction actions generalizing state with
  | nil =>
      obtain rfl : state = final := by simpa [run] using hrun
      rfl
  | cons action actions ih =>
      obtain ⟨next, hstep, hrest⟩ := run_cons_eq_some.mp hrun
      rw [EveryStep, hstep] at hevery
      have habs := h state action next hevery.1 hstep
      exact run_cons_eq_some.mpr ⟨abs next, habs, ih hevery.2 hrest⟩

theorem EveryStep.invariant {P : σ → α → σ → Prop} {Inv : List α → σ → Prop}
    (hkeep : ∀ past state action next, Inv past state →
      P state action next → step state action = some next →
      Inv (past ++ [action]) next)
    {past : List α} {state final : σ} {actions : List α}
    (hinit : Inv past state) (hevery : EveryStep step P state actions)
    (hrun : run step state actions = some final) :
    Inv (past ++ actions) final := by
  induction actions generalizing past state with
  | nil =>
      obtain rfl : state = final := by simpa [run] using hrun
      rwa [List.append_nil]
  | cons action actions ih =>
      obtain ⟨next, hstep, hrest⟩ := run_cons_eq_some.mp hrun
      rw [EveryStep, hstep] at hevery
      have hnext := hkeep past state action next hinit hevery.1 hstep
      have hfinal := ih hnext hevery.2 hrest
      rwa [List.append_assoc, List.singleton_append] at hfinal

/-- What a step keeps exactly when it meets a condition holds in every state of
a run exactly when every step of it meets the condition. -/
theorem everyStep_iff_reached {P : σ → α → σ → Prop} {Inv : σ → Prop}
    (hiff : ∀ state action next, Inv state → step state action = some next →
      (Inv next ↔ P state action next))
    {state : σ} (hinit : Inv state) (actions : List α) :
    EveryStep step P state actions ↔
      ∀ before after reached, actions = before ++ after →
        run step state before = some reached → Inv reached := by
  induction actions generalizing state with
  | nil =>
      refine ⟨?_, fun _ => trivial⟩
      intro _ before after reached hsplit hrun
      obtain ⟨rfl, -⟩ := List.nil_eq_append_iff.mp hsplit
      obtain rfl : state = reached := by simpa [run] using hrun
      exact hinit
  | cons action actions ih =>
      rw [EveryStep]
      constructor
      · intro h before after reached hsplit hrun
        rcases List.cons_eq_append_iff.mp hsplit with
          ⟨rfl, -⟩ | ⟨before, rfl, hrest⟩
        · obtain rfl : state = reached := by simpa [run] using hrun
          exact hinit
        · obtain ⟨next, hstep, hreached⟩ := run_cons_eq_some.mp hrun
          rw [hstep] at h
          have hnext := (hiff state action next hinit hstep).mpr h.1
          exact (ih hnext).mp h.2 before after reached hrest hreached
      · intro h
        cases hstep : step state action with
        | none => trivial
        | some next =>
            have hnext : Inv next :=
              h [action] actions next rfl (by simp [run, hstep])
            refine ⟨(hiff state action next hinit hstep).mp hnext, ?_⟩
            refine (ih hnext).mpr ?_
            intro before after reached hsplit hrun
            apply h (action :: before) after reached
            · rw [hsplit, List.cons_append]
            · exact run_cons_eq_some.mpr ⟨next, hstep, hrun⟩

theorem total_eq_zero_iff (cost : σ → α → Nat) (state : σ)
    (actions : List α) :
    total step cost state actions = 0 ↔
      EveryStep step (fun state action _ => cost state action = 0) state
        actions := by
  induction actions generalizing state with
  | nil => simp [total, EveryStep]
  | cons action actions ih =>
      simp only [total, EveryStep]
      cases step state action with
      | none => simp
      | some next => rw [Nat.add_eq_zero_iff, ih]

/-- Every step books what `debit` gained on `credit`, except for its cost. -/
theorem run_balance {Inv : σ → Prop} {cost : σ → α → Nat}
    {credit debit : σ → Nat}
    (hstep : ∀ state action next, Inv state →
      step state action = some next → Inv next ∧
        credit next + cost state action + debit state =
          credit state + debit next)
    {actions : List α} {state final : σ} (hinit : Inv state)
    (hrun : run step state actions = some final) :
    Inv final ∧
      credit final + total step cost state actions + debit state =
        credit state + debit final := by
  induction actions generalizing state with
  | nil =>
      obtain rfl : state = final := by simpa [run] using hrun
      exact ⟨hinit, rfl⟩
  | cons action actions ih =>
      obtain ⟨next, hnext, hrest⟩ := run_cons_eq_some.mp hrun
      obtain ⟨hkept, hfirst⟩ := hstep state action next hinit hnext
      obtain ⟨hfinal, hsecond⟩ := ih hkept hrest
      refine ⟨hfinal, ?_⟩
      simp only [total, hnext]
      omega

section Emitted

variable {β : Type*} {emit : σ → α → Option β} {Ahead : σ → β → Prop}

theorem emitted_append {state middle : σ} {first : List α}
    (h : run step state first = some middle) (second : List α) :
    emitted step emit state (first ++ second) =
      emitted step emit state first ++ emitted step emit middle second := by
  induction first generalizing state with
  | nil =>
      obtain rfl : state = middle := by simpa [run] using h
      rfl
  | cons action first ih =>
      obtain ⟨next, hstep, hrest⟩ := run_cons_eq_some.mp h
      simp only [List.cons_append, emitted, hstep, ih hrest,
        List.append_assoc]

theorem ahead_of_mem_emitted
    (hemit : ∀ state action next event, step state action = some next →
      emit state action = some event → Ahead state event)
    (hback : ∀ state action next event, step state action = some next →
      Ahead next event → Ahead state event)
    {state : σ} {actions : List α} {event : β}
    (hmem : event ∈ emitted step emit state actions) : Ahead state event := by
  induction actions generalizing state with
  | nil => simp [emitted] at hmem
  | cons action actions ih =>
      rw [emitted] at hmem
      cases hstep : step state action with
      | none => simp [hstep] at hmem
      | some next =>
          simp only [hstep, List.mem_append, Option.mem_toList] at hmem
          rcases hmem with hfirst | hrest
          · exact hemit state action next event hstep hfirst
          · exact hback state action next event hstep (ih hrest)

theorem emitted_pairwise {R : β → β → Prop}
    (hemit : ∀ state action next event, step state action = some next →
      emit state action = some event → Ahead state event)
    (hback : ∀ state action next event, step state action = some next →
      Ahead next event → Ahead state event)
    (hnext : ∀ state action next first second,
      step state action = some next → emit state action = some first →
      Ahead next second → R first second)
    (state : σ) (actions : List α) :
    (emitted step emit state actions).Pairwise R := by
  induction actions generalizing state with
  | nil => exact List.Pairwise.nil
  | cons action actions ih =>
      rw [emitted]
      cases hstep : step state action with
      | none => exact List.Pairwise.nil
      | some next =>
          have hrest : ∀ second ∈ emitted step emit next actions,
              Ahead next second :=
            fun second hmem => ahead_of_mem_emitted hemit hback hmem
          cases hfirst : emit state action with
          | none => simpa using ih next
          | some first =>
              refine List.pairwise_cons.mpr ⟨?_, ih next⟩
              intro second hmem
              exact hnext state action next first second hstep hfirst
                (hrest second hmem)

end Emitted

theorem run_invariant {Inv : List α → σ → Prop} {allowed : α → Prop}
    (hkeep : ∀ past state action next, Inv past state → allowed action →
      step state action = some next → Inv (past ++ [action]) next)
    {actions : List α} (hallowed : ∀ action ∈ actions, allowed action)
    {past : List α} {state final : σ} (hinit : Inv past state)
    (hrun : run step state actions = some final) :
    Inv (past ++ actions) final := by
  induction actions generalizing past state with
  | nil =>
      obtain rfl : state = final := by simpa [run] using hrun
      rwa [List.append_nil]
  | cons action actions ih =>
      obtain ⟨next, hstep, hrest⟩ := run_cons_eq_some.mp hrun
      have hnext := hkeep past state action next hinit
        (hallowed action List.mem_cons_self) hstep
      have hfinal := ih
        (fun action hmem => hallowed action (List.mem_cons_of_mem _ hmem))
        hnext hrest
      rwa [List.append_assoc, List.singleton_append] at hfinal

theorem run_preserves {Inv : σ → Prop}
    (hkeep : ∀ state action next, Inv state → step state action = some next →
      Inv next)
    {actions : List α} {state final : σ} (hinit : Inv state)
    (hrun : run step state actions = some final) : Inv final := by
  refine @run_invariant _ _ step (fun _ => Inv) (fun _ => True) ?_ actions ?_
    [] state final hinit hrun
  · intro past state action next hinv _ hstep
    exact hkeep state action next hinv hstep
  · intro action _
    trivial

theorem everyStep_iff_reached_of_inv {P : σ → α → σ → Prop}
    {Inv Good : σ → Prop}
    (hkeep : ∀ state action next, Inv state → step state action = some next →
      Inv next)
    (hiff : ∀ state action next, Inv state → Good state →
      step state action = some next → (Good next ↔ P state action next))
    {state : σ} (hinit : Inv state) (hgood : Good state) (actions : List α) :
    EveryStep step P state actions ↔
      ∀ before after reached, actions = before ++ after →
        run step state before = some reached → Good reached := by
  have hboth : ∀ state action next, Inv state ∧ Good state →
      step state action = some next →
      (Inv next ∧ Good next ↔ P state action next) := by
    rintro state action next ⟨hinv, hgood⟩ hstep
    rw [← hiff state action next hinv hgood hstep]
    exact and_iff_right (hkeep state action next hinv hstep)
  rw [@everyStep_iff_reached _ _ step _ (fun state => Inv state ∧ Good state)
    hboth _ ⟨hinit, hgood⟩ actions]
  constructor
  · intro h before after reached hsplit hrun
    exact (h before after reached hsplit hrun).2
  · intro h before after reached hsplit hrun
    exact ⟨run_preserves hkeep hinit hrun,
      h before after reached hsplit hrun⟩

end Binger.Foundation
