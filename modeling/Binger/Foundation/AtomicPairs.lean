import Binger.Foundation.Atomics

/-!
# Pairs of atomic cells

Every program adds to the first cell of a pair before it adds to the second
one, and clears the cells in the same order.  Programs in progress can leave
the second cell short by a debt.  As long as nobody clears the first cell while
there are debts, the second cell never gets ahead; if also nobody adds to the
second cell between two clears, the cells agree whenever all debts are paid.
-/

namespace Binger.Foundation.Atomics

variable {ι ω κ : Type*} [DecidableEq ι] [DecidableEq κ] [Fintype ι]

/-! ## Programs -/

/-- How far a program lets `b` get ahead of `a`, counted from here. -/
def owed (a b : κ) : List (Instr κ) → Nat
  | [] => 0
  | .add cell amount :: todo =>
      if cell = a then owed a b todo - amount
      else if cell = b then owed a b todo + amount
      else owed a b todo
  | .load _ :: todo | .clear _ :: todo => owed a b todo

def Repaid (a b : κ) : List (Instr κ) → Prop
  | [] => True
  | .add cell amount :: todo =>
      (cell = a → amount ≤ owed a b todo) ∧ Repaid a b todo
  | .load _ :: todo | .clear _ :: todo => Repaid a b todo

def ClearsInOrder (a b : κ) : List (Instr κ) → Prop
  | [] => True
  | .clear cell :: todo =>
      (cell = a → .clear b ∈ todo ∧ .clear a ∉ todo) ∧
      (cell = b → .clear a ∉ todo) ∧ ClearsInOrder a b todo
  | .add _ _ :: todo | .load _ :: todo => ClearsInOrder a b todo

/-- The program has cleared `a` and will clear `b`. -/
def Halfway (a b : κ) (todo : List (Instr κ)) : Prop :=
  .clear b ∈ todo ∧ .clear a ∉ todo

instance (a b : κ) (todo : List (Instr κ)) : Decidable (Halfway a b todo) :=
  inferInstanceAs (Decidable (_ ∧ _))

theorem Repaid.tail {a b : κ} (instr : Instr κ) (todo : List (Instr κ))
    (h : Repaid a b (instr :: todo)) : Repaid a b todo := by
  cases instr with
  | add cell amount => exact h.2
  | load cell => exact h
  | clear cell => exact h

omit [DecidableEq κ] in
theorem ClearsInOrder.tail {a b : κ} (instr : Instr κ)
    (todo : List (Instr κ)) (h : ClearsInOrder a b (instr :: todo)) :
    ClearsInOrder a b todo := by
  cases instr with
  | add cell amount => exact h
  | load cell => exact h
  | clear cell => exact h.2.2

omit [DecidableEq κ] in
theorem clearsInOrder_of_clearless (a b : κ) {todo : List (Instr κ)}
    (h : ∀ cell, .clear cell ∉ todo) : ClearsInOrder a b todo := by
  induction todo with
  | nil => trivial
  | cons instr todo ih =>
      have hrest := ih fun cell hmem => h cell (List.mem_cons_of_mem _ hmem)
      cases instr with
      | add cell amount => exact hrest
      | load cell => exact hrest
      | clear cell => exact absurd List.mem_cons_self (h cell)

/-! ## Steps -/

def Machine.AnyHalfway (a b : κ) (machine : Machine ι ω κ) : Prop :=
  ∃ t, Halfway a b (machine.threads t).todo

/-- A step that clears `a` meets no program that owes an addition to `b`. -/
def ClearsUnowed (a b : κ) (machine : Machine ι ω κ) (act : Act ι ω) : Prop :=
  ∀ t todo, act = .advance t → (machine.threads t).todo = .clear a :: todo →
    ∀ u, owed a b (machine.threads u).todo = 0

def AddsWhole (a b : κ) (machine : Machine ι ω κ) (act : Act ι ω) : Prop :=
  ∀ t amount todo, act = .advance t →
    (machine.threads t).todo = .add b amount :: todo →
    ¬ machine.AnyHalfway a b

instance (a b : κ) (machine : Machine ι ω κ) :
    Decidable (machine.AnyHalfway a b) :=
  inferInstanceAs (Decidable (∃ t, Halfway a b (machine.threads t).todo))

omit [DecidableEq ι] [Fintype ι] in
theorem clearsUnowed_iff {a b : κ} {machine : Machine ι ω κ}
    {act : Act ι ω} : ClearsUnowed a b machine act ↔
      (issued machine act = some (.clear a) →
        ∀ u, owed a b (machine.threads u).todo = 0) := by
  constructor
  · intro hunowed hissued
    rcases issued_eq_some_iff.mp hissued with ⟨t, todo, hact, htodo⟩
    exact hunowed t todo hact htodo
  · intro h t todo hact htodo
    exact h (issued_eq_some_iff.mpr ⟨t, todo, hact, htodo⟩)

omit [DecidableEq ι] [DecidableEq κ] [Fintype ι] in
theorem addsWhole_iff {a b : κ} {machine : Machine ι ω κ} {act : Act ι ω} :
    AddsWhole a b machine act ↔
      ∀ cell amount, issued machine act = some (.add cell amount) →
        cell = b → ¬ machine.AnyHalfway a b := by
  constructor
  · rintro hwhole _ amount hissued rfl
    rcases issued_eq_some_iff.mp hissued with ⟨t, todo, hact, htodo⟩
    exact hwhole t amount todo hact htodo
  · intro h t amount todo hact htodo
    exact h b amount (issued_eq_some_iff.mpr ⟨t, todo, hact, htodo⟩) rfl

instance (a b : κ) (machine : Machine ι ω κ) (act : Act ι ω) :
    Decidable (ClearsUnowed a b machine act) :=
  decidable_of_iff _ clearsUnowed_iff.symm

instance (a b : κ) (machine : Machine ι ω κ) (act : Act ι ω) :
    Decidable (AddsWhole a b machine act) :=
  decidable_of_iff _ addsWhole_iff.symm

section Pairs

variable {modulus : Nat} {program : ω → List (Instr κ)} {a b : κ}
  {machine next : Machine ι ω κ}

omit [DecidableEq κ] [Fintype ι] in
theorem anyHalfway_update (cells : κ → Nat) (t : ι) (thread : Thread ω κ) :
    Machine.AnyHalfway a b
        ⟨cells, Function.update machine.threads t thread⟩ ↔
      Halfway a b thread.todo ∨
        ∃ u, u ≠ t ∧ Halfway a b (machine.threads u).todo := by
  constructor
  · rintro ⟨u, hu⟩
    by_cases hut : u = t
    · subst hut
      exact .inl (by simpa using hu)
    · exact .inr ⟨u, hut, by simpa [hut] using hu⟩
  · rintro (ht | ⟨u, hut, hu⟩)
    · exact ⟨t, by simpa using ht⟩
    · exact ⟨u, by simpa [hut] using hu⟩

omit [DecidableEq κ] [Fintype ι] in
theorem anyHalfway_iff (t : ι) :
    machine.AnyHalfway a b ↔ Halfway a b (machine.threads t).todo ∨
      ∃ u, u ≠ t ∧ Halfway a b (machine.threads u).todo := by
  have h := @anyHalfway_update ι ω κ _ a b machine machine.cells t
    (machine.threads t)
  rwa [Function.update_eq_self] at h

omit [DecidableEq κ] in
theorem halfway_cons {instr : Instr κ} (ha : instr ≠ .clear a)
    (hb : instr ≠ .clear b) (todo : List (Instr κ)) :
    Halfway a b (instr :: todo) ↔ Halfway a b todo := by
  simp [Halfway, ha.symm, hb.symm]

theorem advance_effect {t : ι}
    (hstep : step modulus program machine (.advance t) = some next) :
    ∃ instr todo, (machine.threads t).todo = instr :: todo ∧
      next.cells = instr.exec modulus machine.cells ∧
      (∀ weight, ahead weight next + weight (instr :: todo) =
        ahead weight machine + weight todo) ∧
      (next.AnyHalfway a b ↔ Halfway a b todo ∨
        ∃ u, u ≠ t ∧ Halfway a b (machine.threads u).todo) := by
  rcases step_advance hstep with ⟨instr, todo, htodo, rfl⟩
  exact ⟨instr, todo, htodo, rfl, fun weight => ahead_advance weight htodo _ _,
    anyHalfway_update _ _ _⟩

theorem exec_add {cells : κ → Nat} {cell : κ} {amount : Nat}
    (h : cells cell + amount < modulus) :
    (Instr.add cell amount).exec modulus cells =
      Function.update cells cell (cells cell + amount) := by
  rw [Instr.exec, Nat.mod_eq_of_lt h]

omit [DecidableEq ι] in
theorem ahead_owed_eq_zero (h : ∀ t, owed a b (machine.threads t).todo = 0) :
    ahead (owed a b) machine = 0 :=
  Finset.sum_eq_zero fun t _ => h t

inductive PairEffect (a b : κ) (machine : Machine ι ω κ) (act : Act ι ω)
    (next : Machine ι ω κ) : Prop where
  | keeps (ha : next.cells a = machine.cells a)
      (hb : next.cells b = machine.cells b)
      (howed : ahead (owed a b) next = ahead (owed a b) machine)
      (hhalf : next.AnyHalfway a b ↔ machine.AnyHalfway a b)
  | addsFirst (amount : Nat) (ha : next.cells a = machine.cells a + amount)
      (hb : next.cells b = machine.cells b)
      (howed : ahead (owed a b) next ≤ ahead (owed a b) machine + amount)
      (hrepaid : (∀ t, Repaid a b (machine.threads t).todo) →
        ahead (owed a b) next = ahead (owed a b) machine + amount)
      (hhalf : next.AnyHalfway a b ↔ machine.AnyHalfway a b)
  | addsSecond (amount : Nat) (ha : next.cells a = machine.cells a)
      (hb : next.cells b = machine.cells b + amount)
      (howed : ahead (owed a b) next + amount = ahead (owed a b) machine)
      (hhalf : next.AnyHalfway a b ↔ machine.AnyHalfway a b)
      (hwhole : AddsWhole a b machine act → ¬ machine.AnyHalfway a b)
  | clearsFirst (ha : next.cells a = 0)
      (howed : ahead (owed a b) next = 0) (hhalf : next.AnyHalfway a b)
  | clearsSecond (ha : next.cells a = machine.cells a)
      (hb : next.cells b = 0)
      (howed : ahead (owed a b) next = ahead (owed a b) machine)
      (hhalf : machine.AnyHalfway a b)

theorem pairEffect_start {t : ι} {op : ω}
    (howed : owed a b (program op) = 0) (hwhole : ¬ Halfway a b (program op))
    (hstep : step modulus program machine (.start t op) = some next) :
    PairEffect a b machine (.start t op) next := by
  have hahead := ahead_start (owed a b) hstep
  rcases step_start hstep with ⟨htodo, rfl⟩
  rw [owed, howed] at hahead
  refine .keeps rfl rfl hahead ?_
  have hnil : ¬ Halfway a b [] := fun h => List.not_mem_nil h.1
  rw [anyHalfway_update, anyHalfway_iff t, htodo]
  simp [hwhole, hnil]

theorem pairEffect_clear {t : ι} {cell : κ} {todo : List (Instr κ)}
    (hab : a ≠ b) (htodo : (machine.threads t).todo = .clear cell :: todo)
    (horder : ClearsInOrder a b (.clear cell :: todo))
    (hunowed : ClearsUnowed a b machine (.advance t : Act ι ω))
    (hcells : next.cells = Function.update machine.cells cell 0)
    (howed : ahead (owed a b) next = ahead (owed a b) machine)
    (hhalf : next.AnyHalfway a b ↔ Halfway a b todo ∨
      ∃ u, u ≠ t ∧ Halfway a b (machine.threads u).todo) :
    PairEffect a b machine (.advance t) next := by
  have hbefore := @anyHalfway_iff ι ω κ _ a b machine t
  rw [htodo] at hbefore
  rw [ClearsInOrder] at horder
  by_cases hcell : cell = a
  · subst hcell
    refine .clearsFirst (by simp [hcells]) ?_ (hhalf.mpr (.inl (horder.1 rfl)))
    rw [howed]
    exact ahead_owed_eq_zero (hunowed t todo rfl htodo)
  · have ha : next.cells a = machine.cells a := by
      rw [hcells, Function.update_of_ne (Ne.symm hcell)]
    by_cases hcell' : cell = b
    · subst hcell'
      refine .clearsSecond ha (by simp [hcells]) howed
        (hbefore.mpr (.inl ⟨List.mem_cons_self, ?_⟩))
      simpa [hab] using horder.2.1 rfl
    · rw [halfway_cons (by simpa using hcell) (by simpa using hcell'),
        ← hhalf] at hbefore
      refine .keeps ha ?_ howed hbefore.symm
      rw [hcells, Function.update_of_ne (Ne.symm hcell')]

omit [DecidableEq ι] in
theorem pairEffect_add {t : ι} {cell : κ} {amount : Nat}
    {todo : List (Instr κ)} (hab : a ≠ b)
    (htodo : (machine.threads t).todo = .add cell amount :: todo)
    (hcells : next.cells =
      Function.update machine.cells cell (machine.cells cell + amount))
    (howed : ahead (owed a b) next + owed a b (.add cell amount :: todo) =
      ahead (owed a b) machine + owed a b todo)
    (hhalf : next.AnyHalfway a b ↔ machine.AnyHalfway a b) :
    PairEffect a b machine (.advance t) next := by
  rw [owed] at howed
  by_cases hcell : cell = a
  · subst hcell
    rw [if_pos rfl] at howed
    refine .addsFirst amount (by simp [hcells]) ?_ (by omega) ?_ hhalf
    · rw [hcells, Function.update_of_ne (Ne.symm hab)]
    · intro hrepaid
      have hamount := hrepaid t
      rw [htodo] at hamount
      have := hamount.1 rfl
      omega
  · have ha : next.cells a = machine.cells a := by
      rw [hcells, Function.update_of_ne (Ne.symm hcell)]
    rw [if_neg hcell] at howed
    by_cases hcell' : cell = b
    · subst hcell'
      rw [if_pos rfl] at howed
      refine .addsSecond amount ha (by simp [hcells]) (by omega) hhalf ?_
      intro hwhole
      exact hwhole t amount todo rfl htodo
    · rw [if_neg hcell', Nat.add_right_cancel_iff] at howed
      refine .keeps ha ?_ howed hhalf
      rw [hcells, Function.update_of_ne (Ne.symm hcell')]

theorem pairEffect_advance {t : ι} (hab : a ≠ b)
    (hord : ∀ t, ClearsInOrder a b (machine.threads t).todo)
    (hwrap : NoWrap modulus machine (.advance t : Act ι ω))
    (hunowed : ClearsUnowed a b machine (.advance t : Act ι ω))
    (hstep : step modulus program machine (.advance t) = some next) :
    PairEffect a b machine (.advance t) next := by
  rcases @advance_effect ι ω κ _ _ _ modulus program a b machine next t hstep
    with ⟨instr, todo, htodo, hcells, hahead, hhalf⟩
  have hbefore := @anyHalfway_iff ι ω κ _ a b machine t
  have horder := hord t
  specialize hahead (owed a b)
  rw [htodo] at hbefore horder
  cases instr with
  | load cell =>
      rw [halfway_cons (by simp) (by simp), ← hhalf] at hbefore
      rw [owed, Nat.add_right_cancel_iff] at hahead
      refine .keeps ?_ ?_ hahead hbefore.symm <;> rw [hcells, Instr.exec]
  | clear cell =>
      rw [owed, Nat.add_right_cancel_iff] at hahead
      exact pairEffect_clear hab htodo horder hunowed hcells hahead hhalf
  | add cell amount =>
      rw [halfway_cons (by simp) (by simp), ← hhalf] at hbefore
      rw [exec_add (hwrap t cell amount todo rfl htodo)] at hcells
      exact pairEffect_add hab htodo hcells hahead hbefore.symm

structure PairProgram (a b : κ) (todo : List (Instr κ)) : Prop where
  owed_eq_zero : owed a b todo = 0
  in_order : ClearsInOrder a b todo
  not_halfway : ¬ Halfway a b todo

structure PairStep (modulus : Nat) (program : ω → List (Instr κ)) (a b : κ)
    (machine : Machine ι ω κ) (act : Act ι ω) : Prop where
  starts : ∀ t op, act = .start t op → PairProgram a b (program op)
  no_wrap : NoWrap modulus machine act
  unowed : ClearsUnowed a b machine act

theorem pairEffect_step {act : Act ι ω} (hab : a ≠ b)
    (allowed : PairStep modulus program a b machine act)
    (hord : ∀ t, ClearsInOrder a b (machine.threads t).todo)
    (hstep : step modulus program machine act = some next) :
    PairEffect a b machine act next := by
  cases act with
  | start t op =>
      have hprogram := allowed.starts t op rfl
      exact pairEffect_start hprogram.owed_eq_zero hprogram.not_halfway hstep
  | advance t =>
      exact pairEffect_advance hab hord allowed.no_wrap allowed.unowed hstep

omit [Fintype ι] in
theorem inOrder_step {act : Act ι ω}
    (allowed : PairStep modulus program a b machine act)
    (hord : ∀ t, ClearsInOrder a b (machine.threads t).todo)
    (hstep : step modulus program machine act = some next) :
    ∀ t, ClearsInOrder a b (next.threads t).todo :=
  todo_step ClearsInOrder.tail
    (fun t op h => (allowed.starts t op h).in_order) hstep hord

/-! ## Invariants -/

/-- The cell `b` is not ahead of `a`, debts included.  While a program stands
between its two clears only the debts are covered. -/
structure NotAhead (a b : κ) (machine : Machine ι ω κ) : Prop where
  in_order : ∀ t, ClearsInOrder a b (machine.threads t).todo
  owed_le : ahead (owed a b) machine ≤ machine.cells a
  add_owed_le : ¬ machine.AnyHalfway a b →
    machine.cells b + ahead (owed a b) machine ≤ machine.cells a

theorem NotAhead.step {act : Act ι ω} (hab : a ≠ b)
    (inv : NotAhead a b machine)
    (allowed : PairStep modulus program a b machine act)
    (hstep : step modulus program machine act = some next) :
    NotAhead a b next := by
  have hord := inOrder_step allowed inv.in_order hstep
  have hle := inv.owed_le
  have hadd := inv.add_owed_le
  cases pairEffect_step hab allowed inv.in_order hstep with
  | keeps ha hb howed hhalf =>
      rw [← hhalf] at hadd
      exact ⟨hord, by omega, fun h => by have := hadd h; omega⟩
  | addsFirst amount ha hb howed hrepaid hhalf =>
      rw [← hhalf] at hadd
      exact ⟨hord, by omega, fun h => by have := hadd h; omega⟩
  | addsSecond amount ha hb howed hhalf hwhole =>
      rw [← hhalf] at hadd
      exact ⟨hord, by omega, fun h => by have := hadd h; omega⟩
  | clearsFirst ha howed hhalf =>
      exact ⟨hord, by omega, fun h => absurd hhalf h⟩
  | clearsSecond ha hb howed hhalf =>
      exact ⟨hord, by omega, fun _ => by omega⟩

/-- The two cells agree up to the debts.  While a program stands between its
two clears the first cell is all debt. -/
structure Level (a b : κ) (machine : Machine ι ω κ) : Prop where
  in_order : ∀ t, ClearsInOrder a b (machine.threads t).todo
  repaid : ∀ t, Repaid a b (machine.threads t).todo
  of_halfway : machine.AnyHalfway a b →
    machine.cells a = ahead (owed a b) machine
  of_whole : ¬ machine.AnyHalfway a b →
    machine.cells a = machine.cells b + ahead (owed a b) machine

theorem Level.step {act : Act ι ω} (hab : a ≠ b) (inv : Level a b machine)
    (allowed : PairStep modulus program a b machine act)
    (hstarts : ∀ t op, act = .start t op → Repaid a b (program op))
    (hadds : AddsWhole a b machine act)
    (hstep : step modulus program machine act = some next) :
    Level a b next := by
  have hord := inOrder_step allowed inv.in_order hstep
  have hrepaid := todo_step Repaid.tail hstarts hstep inv.repaid
  have hwhole := inv.of_whole
  have hpart := inv.of_halfway
  cases pairEffect_step hab allowed inv.in_order hstep with
  | keeps ha hb howed hhalf =>
      rw [← hhalf] at hwhole hpart
      exact ⟨hord, hrepaid, fun h => by have := hpart h; omega,
        fun h => by have := hwhole h; omega⟩
  | addsFirst amount ha hb _ hexact hhalf =>
      have howed := hexact inv.repaid
      rw [← hhalf] at hwhole hpart
      exact ⟨hord, hrepaid, fun h => by have := hpart h; omega,
        fun h => by have := hwhole h; omega⟩
  | addsSecond amount ha hb howed hhalf hnone =>
      have hnot := hnone hadds
      have hbefore := hwhole hnot
      exact ⟨hord, hrepaid, fun h => absurd (hhalf.mp h) hnot,
        fun _ => by omega⟩
  | clearsFirst ha howed hhalf =>
      exact ⟨hord, hrepaid, fun _ => by omega, fun h => absurd hhalf h⟩
  | clearsSecond ha hb howed hhalf =>
      have hbefore := hpart hhalf
      exact ⟨hord, hrepaid, fun _ => by omega, fun _ => by omega⟩

omit [DecidableEq ι] in
theorem notAhead_idle :
    NotAhead a b (Machine.idle (fun _ => 0) : Machine ι ω κ) := by
  have howed := @ahead_of_quiet ι ω κ _ (Machine.idle fun _ => 0)
    (fun _ => rfl) (owed a b) rfl
  exact ⟨fun _ => trivial, by rw [howed]; exact Nat.zero_le _,
    fun _ => by rw [howed]; exact Nat.zero_le _⟩

omit [DecidableEq ι] in
theorem level_idle :
    Level a b (Machine.idle (fun _ => 0) : Machine ι ω κ) := by
  have howed := @ahead_of_quiet ι ω κ _ (Machine.idle fun _ => 0)
    (fun _ => rfl) (owed a b) rfl
  refine ⟨fun _ => trivial, fun _ => trivial, ?_, ?_⟩
  · intro _
    rw [howed]
    rfl
  · intro _
    rw [howed]
    rfl

omit [Fintype ι] [DecidableEq ι] [DecidableEq κ] in
theorem not_anyHalfway_of_quiet (h : machine.Quiet) :
    ¬ machine.AnyHalfway a b := by
  rintro ⟨t, ht, -⟩
  rw [h t] at ht
  exact List.not_mem_nil ht

end Pairs

end Binger.Foundation.Atomics
