import Mathlib.Algebra.BigOperators.Group.Finset.Basic
import Mathlib.Data.Nat.ModEq
import Mathlib.Data.Fintype.Basic
import Binger.Foundation.Runs

/-!
# Threads over atomic cells

Threads run operations one after the other.  An operation is a straight-line
program of atomic instructions on shared cells of a fixed width, and the
instructions of different threads interleave in any order.

In every interleaving a cell that is only ever added to holds the sum of what
was started, less what is still ahead.
-/

namespace Binger.Foundation.Atomics

inductive Instr (κ : Type*) where
  | add (cell : κ) (amount : Nat)
  | load (cell : κ)
  | clear (cell : κ)
  deriving DecidableEq, Repr

/-- `todo` is the rest of the program of the last operation `op`, and `loaded`
what its loads have returned so far. -/
structure Thread (ω κ : Type*) where
  op : Option ω
  todo : List (Instr κ)
  loaded : List Nat

structure Machine (ι ω κ : Type*) where
  cells : κ → Nat
  threads : ι → Thread ω κ

inductive Act (ι ω : Type*) where
  | start (thread : ι) (op : ω)
  | advance (thread : ι)
  deriving DecidableEq, Repr

variable {ι ω κ : Type*} [DecidableEq ι] [DecidableEq κ]

namespace Instr

def exec (modulus : Nat) (cells : κ → Nat) : Instr κ → κ → Nat
  | .add cell amount =>
      Function.update cells cell ((cells cell + amount) % modulus)
  | .load _ => cells
  | .clear cell => Function.update cells cell 0

def seen (cells : κ → Nat) : Instr κ → List Nat
  | .load cell => [cells cell]
  | .add _ _ | .clear _ => []

end Instr

def step (modulus : Nat) (program : ω → List (Instr κ))
    (machine : Machine ι ω κ) : Act ι ω → Option (Machine ι ω κ)
  | .start t op =>
      match (machine.threads t).todo with
      | [] => some { machine with
          threads := Function.update machine.threads t
            ⟨some op, program op, []⟩ }
      | _ :: _ => none
  | .advance t =>
      match (machine.threads t).todo with
      | [] => none
      | instr :: todo => some
          { cells := instr.exec modulus machine.cells
            threads := Function.update machine.threads t
              { machine.threads t with
                todo := todo
                loaded := (machine.threads t).loaded ++
                  instr.seen machine.cells } }

def Machine.Quiet (machine : Machine ι ω κ) : Prop :=
  ∀ t, (machine.threads t).todo = []

def Machine.idle (cells : κ → Nat) : Machine ι ω κ :=
  ⟨cells, fun _ => ⟨none, [], []⟩⟩

def NoWrap (modulus : Nat) (machine : Machine ι ω κ) (act : Act ι ω) : Prop :=
  ∀ t cell amount todo, act = .advance t →
    (machine.threads t).todo = .add cell amount :: todo →
    machine.cells cell + amount < modulus

def issued (machine : Machine ι ω κ) : Act ι ω → Option (Instr κ)
  | .start _ _ => none
  | .advance t => (machine.threads t).todo.head?

omit [DecidableEq ι] [DecidableEq κ] in
theorem issued_eq_some_iff {machine : Machine ι ω κ} {act : Act ι ω}
    {instr : Instr κ} : issued machine act = some instr ↔
      ∃ t todo, act = .advance t ∧
        (machine.threads t).todo = instr :: todo := by
  constructor
  · intro h
    cases act with
    | start t op => cases h
    | advance t =>
        exact ⟨t, _, rfl, List.eq_cons_of_mem_head? h⟩
  · rintro ⟨t, todo, rfl, htodo⟩
    rw [issued, htodo, List.head?_cons]

omit [DecidableEq κ] in
theorem forall_add_iff {P : κ → Nat → Prop} {cell : κ} {amount : Nat} :
    P cell amount ↔ ∀ cell' amount',
      some (Instr.add cell amount) = some (.add cell' amount') →
        P cell' amount' := by
  simp

instance decidableAdds {P : κ → Nat → Prop}
    [∀ cell amount, Decidable (P cell amount)] :
    (instr : Option (Instr κ)) →
      Decidable (∀ cell amount, instr = some (.add cell amount) →
        P cell amount)
  | some (.add _ _) => decidable_of_iff _ forall_add_iff
  | none | some (.load _) | some (.clear _) => isTrue nofun

omit [DecidableEq ι] [DecidableEq κ] in
theorem noWrap_iff {modulus : Nat} {machine : Machine ι ω κ}
    {act : Act ι ω} : NoWrap modulus machine act ↔
      ∀ cell amount, issued machine act = some (.add cell amount) →
        machine.cells cell + amount < modulus := by
  constructor
  · intro hwrap cell amount hissued
    rcases issued_eq_some_iff.mp hissued with ⟨t, todo, hact, htodo⟩
    exact hwrap t cell amount todo hact htodo
  · intro h t cell amount todo hact htodo
    exact h cell amount (issued_eq_some_iff.mpr ⟨t, todo, hact, htodo⟩)

instance (modulus : Nat) (machine : Machine ι ω κ) (act : Act ι ω) :
    Decidable (NoWrap modulus machine act) :=
  decidable_of_iff _ noWrap_iff.symm

section Step

variable {modulus : Nat} {program : ω → List (Instr κ)}
  {machine next : Machine ι ω κ}

theorem step_start {t : ι} {op : ω}
    (h : step modulus program machine (.start t op) = some next) :
    (machine.threads t).todo = [] ∧
      next = { machine with
        threads := Function.update machine.threads t
          ⟨some op, program op, []⟩ } := by
  rw [step] at h
  cases htodo : (machine.threads t).todo with
  | nil =>
      rw [htodo, Option.some.injEq] at h
      exact ⟨rfl, h.symm⟩
  | cons instr todo => simp [htodo] at h

theorem step_advance {t : ι}
    (h : step modulus program machine (.advance t) = some next) :
    ∃ instr todo, (machine.threads t).todo = instr :: todo ∧
      next =
        { cells := instr.exec modulus machine.cells
          threads := Function.update machine.threads t
            { machine.threads t with
              todo := todo
              loaded := (machine.threads t).loaded ++
                instr.seen machine.cells } } := by
  rw [step] at h
  cases htodo : (machine.threads t).todo with
  | nil => simp [htodo] at h
  | cons instr todo =>
      simp only [htodo, Option.some.injEq] at h
      exact ⟨instr, todo, rfl, h.symm⟩

end Step

/-! ## What holds of the programs ahead -/

theorem todo_step {modulus : Nat} {program : ω → List (Instr κ)}
    {P : List (Instr κ) → Prop}
    (htail : ∀ instr todo, P (instr :: todo) → P todo)
    {machine next : Machine ι ω κ} {act : Act ι ω}
    (hstart : ∀ t op, act = .start t op → P (program op))
    (hstep : step modulus program machine act = some next)
    (h : ∀ t, P (machine.threads t).todo) :
    ∀ t, P (next.threads t).todo := by
  intro u
  cases act with
  | start t op =>
      have hnext := (step_start hstep).2
      subst hnext
      by_cases hu : u = t
      · subst hu
        simpa using hstart u op rfl
      · simpa [hu] using h u
  | advance t =>
      rcases step_advance hstep with ⟨instr, todo, htodo, hnext⟩
      subst hnext
      by_cases hu : u = t
      · subst hu
        have hall := h u
        rw [htodo] at hall
        simpa using htail instr todo hall
      · simpa [hu] using h u

def addedBy (cell : κ) : List (Instr κ) → Nat
  | [] => 0
  | .add cell' amount :: todo =>
      (if cell' = cell then amount else 0) + addedBy cell todo
  | .load _ :: todo | .clear _ :: todo => addedBy cell todo

/-! ## Sums over the threads -/

variable [Fintype ι]

omit [DecidableEq κ] in
theorem sum_update (weight : Thread ω κ → Nat) (threads : ι → Thread ω κ)
    (t : ι) (thread : Thread ω κ) :
    (∑ u, weight (Function.update threads t thread u)) + weight (threads t) =
      (∑ u, weight (threads u)) + weight thread := by
  have hafter := Finset.sum_erase_add Finset.univ
    (fun u => weight (Function.update threads t thread u)) (Finset.mem_univ t)
  have hbefore := Finset.sum_erase_add Finset.univ
    (fun u => weight (threads u)) (Finset.mem_univ t)
  have hrest : ∑ u ∈ Finset.univ.erase t,
      weight (Function.update threads t thread u) =
        ∑ u ∈ Finset.univ.erase t, weight (threads u) := by
    apply Finset.sum_congr rfl
    intro u hu
    rw [Function.update_of_ne (Finset.ne_of_mem_erase hu)]
  rw [Function.update_self] at hafter
  omega

/-- The programs in progress, weighed by what they have ahead. -/
def ahead (weight : List (Instr κ) → Nat) (machine : Machine ι ω κ) : Nat :=
  ∑ t, weight (machine.threads t).todo

section Ahead

variable {modulus : Nat} {program : ω → List (Instr κ)}
  {machine next : Machine ι ω κ} (weight : List (Instr κ) → Nat)

theorem ahead_start {t : ι} {op : ω}
    (h : step modulus program machine (.start t op) = some next) :
    ahead weight next + weight [] = ahead weight machine +
      weight (program op) := by
  rcases step_start h with ⟨htodo, rfl⟩
  have hsum := sum_update (fun thread : Thread ω κ => weight thread.todo)
    machine.threads t ⟨some op, program op, []⟩
  simp only [htodo] at hsum
  exact hsum

omit [DecidableEq κ] in
theorem ahead_advance {t : ι} {instr : Instr κ} {todo : List (Instr κ)}
    (htodo : (machine.threads t).todo = instr :: todo) (cells : κ → Nat)
    (loaded : List Nat) :
    ahead weight ⟨cells, Function.update machine.threads t
        { machine.threads t with todo := todo, loaded := loaded }⟩ +
      weight (instr :: todo) = ahead weight machine + weight todo := by
  have hsum := sum_update (fun thread : Thread ω κ => weight thread.todo)
    machine.threads t
    { machine.threads t with todo := todo, loaded := loaded }
  simp only [htodo] at hsum
  exact hsum

end Ahead

omit [DecidableEq ι] [DecidableEq κ] in
theorem ahead_of_quiet {machine : Machine ι ω κ} (h : machine.Quiet)
    {weight : List (Instr κ) → Nat} (hnil : weight [] = 0) :
    ahead weight machine = 0 := by
  apply Finset.sum_eq_zero
  intro t _
  rw [h t, hnil]

/-! ## Cells that are only added to -/

def Act.op? : Act ι ω → Option ω
  | .start _ op => some op
  | .advance _ => none

def started (actions : List (Act ι ω)) : List ω :=
  actions.filterMap Act.op?

def startedSum (program : ω → List (Instr κ)) (cell : κ)
    (actions : List (Act ι ω)) : Nat :=
  ((started actions).map fun op => addedBy cell (program op)).sum

section Balance

variable {modulus : Nat} {program : ω → List (Instr κ)} {cell : κ}

omit [DecidableEq ι] [Fintype ι] in
theorem startedSum_start (past : List (Act ι ω)) (t : ι) (op : ω) :
    startedSum program cell (past ++ [.start t op]) =
      startedSum program cell past + addedBy cell (program op) := by
  simp [startedSum, started, Act.op?]

omit [DecidableEq ι] [Fintype ι] in
theorem startedSum_advance (past : List (Act ι ω)) (t : ι) :
    startedSum program cell (past ++ [.advance t]) =
      startedSum program cell past := by
  simp [startedSum, started, Act.op?, List.filterMap_cons]

theorem exec_balance {cells : κ → Nat} {instr : Instr κ}
    {todo : List (Instr κ)} (hlt : cells cell < modulus)
    (hclear : instr ≠ .clear cell) :
    instr.exec modulus cells cell < modulus ∧
      instr.exec modulus cells cell + addedBy cell todo ≡
        cells cell + addedBy cell (instr :: todo) [MOD modulus] := by
  cases instr with
  | load other => exact ⟨hlt, Nat.ModEq.refl _⟩
  | clear other =>
      have hne : cell ≠ other := fun h => hclear (h ▸ rfl)
      simp only [Instr.exec, Function.update_of_ne hne, addedBy]
      exact ⟨hlt, Nat.ModEq.refl _⟩
  | add other amount =>
      by_cases hcell : other = cell
      · subst hcell
        simp only [Instr.exec, Function.update_self, addedBy, if_true]
        rw [← Nat.add_assoc]
        exact ⟨Nat.mod_lt _ (by omega), (Nat.mod_modEq _ _).add_right _⟩
      · have hne : cell ≠ other := fun h => hcell h.symm
        simp only [Instr.exec, Function.update_of_ne hne, addedBy,
          if_neg hcell, Nat.zero_add]
        exact ⟨hlt, Nat.ModEq.refl _⟩

/-- The cell holds what the past has started, up to what is ahead. -/
structure Balanced (modulus : Nat) (program : ω → List (Instr κ)) (cell : κ)
    (past : List (Act ι ω)) (machine : Machine ι ω κ) : Prop where
  cell_lt : machine.cells cell < modulus
  not_cleared : ∀ t, .clear cell ∉ (machine.threads t).todo
  sum_eq : machine.cells cell + ahead (addedBy cell) machine ≡
    startedSum program cell past [MOD modulus]

theorem Balanced.step {past : List (Act ι ω)} {machine next : Machine ι ω κ}
    {act : Act ι ω} (balanced : Balanced modulus program cell past machine)
    (hclear : ∀ t op, act = .start t op → .clear cell ∉ program op)
    (hstep : step modulus program machine act = some next) :
    Balanced modulus program cell (past ++ [act]) next := by
  have hnot := todo_step (P := fun todo => .clear cell ∉ todo)
    (fun _ _ h hmem => h (List.mem_cons_of_mem _ hmem)) hclear hstep
    balanced.not_cleared
  cases act with
  | start t op =>
      have hahead := ahead_start (addedBy cell) hstep
      rcases step_start hstep with ⟨-, rfl⟩
      rw [addedBy, Nat.add_zero] at hahead
      have hsum := balanced.sum_eq.add_right (addedBy cell (program op))
      rw [Nat.add_assoc, ← hahead, ← startedSum_start] at hsum
      exact ⟨balanced.cell_lt, hnot, hsum⟩
  | advance t =>
      rcases step_advance hstep with ⟨instr, todo, htodo, rfl⟩
      have hahead := ahead_advance (addedBy cell) htodo
        (instr.exec modulus machine.cells)
        ((machine.threads t).loaded ++ instr.seen machine.cells)
      have hexec : instr.exec modulus machine.cells cell < modulus ∧
          instr.exec modulus machine.cells cell + addedBy cell todo ≡
            machine.cells cell + addedBy cell (instr :: todo)
              [MOD modulus] := by
        apply exec_balance balanced.cell_lt
        rintro rfl
        apply balanced.not_cleared t
        rw [htodo]
        exact List.mem_cons_self
      refine ⟨hexec.1, hnot, ?_⟩
      rw [startedSum_advance]
      refine Nat.ModEq.trans ?_ balanced.sum_eq
      -- both sides with the weight of the old program on top
      apply Nat.ModEq.add_right_cancel' (addedBy cell (instr :: todo))
      rw [Nat.add_assoc, hahead]
      have hboth := hexec.2.add_right (ahead (addedBy cell) machine)
      rwa [Nat.add_right_comm, Nat.add_assoc, Nat.add_right_comm] at hboth

theorem balanced_run (hmodulus : 0 < modulus) {actions : List (Act ι ω)}
    {final : Machine ι ω κ}
    (hclear : ∀ act ∈ actions, ∀ t op, act = .start t op →
      .clear cell ∉ program op)
    (hrun : run (step modulus program) (Machine.idle fun _ => 0) actions =
      some final) :
    Balanced modulus program cell actions final := by
  have hinit : Balanced modulus program cell []
      (Machine.idle (fun _ => 0) : Machine ι ω κ) := by
    refine ⟨hmodulus, fun t => List.not_mem_nil, ?_⟩
    rw [ahead_of_quiet (fun _ => rfl) rfl]
    rfl
  apply run_invariant _ hclear hinit hrun
  intro past machine act next balanced hallowed hstep
  exact balanced.step hallowed hstep

omit [DecidableEq ι] in
theorem Balanced.of_quiet {past : List (Act ι ω)} {machine : Machine ι ω κ}
    (balanced : Balanced modulus program cell past machine)
    (hquiet : machine.Quiet) :
    machine.cells cell = startedSum program cell past % modulus := by
  have hsum := balanced.sum_eq
  rw [ahead_of_quiet hquiet rfl, Nat.add_zero] at hsum
  rw [← Nat.mod_eq_of_lt balanced.cell_lt]
  exact hsum

end Balance

end Binger.Foundation.Atomics
