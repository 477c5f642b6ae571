import Mathlib.Data.Sum.Basic

/-!
# Loops with an exit

A pass through a loop goes on with a new state, leaves the loop with a result,
or fails.  Nothing in the loop itself says that it ends, so it runs for a given
number of passes and has no value when it is still running after them.
-/

namespace Binger.Foundation

variable {σ ρ ε : Type*}

def loop (body : σ → Except ε (σ ⊕ ρ)) : Nat → σ → Option (Except ε ρ)
  | 0, _ => none
  | passes + 1, state =>
      match body state with
      | .ok (.inl next) => loop body passes next
      | .ok (.inr result) => some (.ok result)
      | .error error => some (.error error)

/-- A loop whose variant decreases with every pass ends, and a function that
satisfies the equation of the loop is what it computes. -/
theorem loop_eq_of_variant {body : σ → Except ε (σ ⊕ ρ)}
    {value : σ → Except ε ρ} (variant : σ → Nat)
    (hunroll : ∀ state,
      value state = (body state).bind (Sum.elim value .ok))
    (hvariant : ∀ state next, body state = .ok (.inl next) →
      variant next < variant state)
    {passes : Nat} {state : σ} (h : variant state < passes) :
    loop body passes state = some (value state) := by
  induction passes generalizing state with
  | zero => omega
  | succ passes ih =>
      rw [loop, hunroll state]
      cases hbody : body state with
      | error error => rfl
      | ok next =>
          cases next with
          | inl next =>
              have hless := hvariant state next hbody
              exact ih (by omega)
          | inr result => rfl

end Binger.Foundation
