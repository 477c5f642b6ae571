import Binger.Foundation.Atomics

/-!
# Reading several atomic cells

A reader loads cells one after the other while other threads go on adding to
them.  What two of the loaded values have to do with each other is given by a
watch.  From the first of the two loads to the second one the watch relates the
loaded value to the live cell, so it is kept exactly as long as nobody moves
the cell out of the relation.
-/

namespace Binger.Foundation.Atomics

variable {ι ω κ : Type*}

/-- The loads at the positions `first` and `second`, the second one of `cell`,
are to be in the relation `rel`. -/
structure Watch (κ : Type*) where
  first : Nat
  second : Nat
  cell : κ
  rel : Nat → Nat → Prop

namespace Watch

def OpenAt (watch : Watch κ) (loaded : List Nat) (value : Nat) : Prop :=
  loaded[watch.first]? = some value ∧ loaded[watch.second]? = none

def Held (watch : Watch κ) (cells : κ → Nat) (loaded : List Nat) : Prop :=
  ∀ value, loaded[watch.first]? = some value →
    watch.rel value ((loaded[watch.second]?).getD (cells watch.cell))

theorem Held.of_cells {watch : Watch κ} {cells cells' : κ → Nat}
    {loaded : List Nat} (held : watch.Held cells loaded)
    (hopen : ∀ value, watch.OpenAt loaded value →
      watch.rel value (cells' watch.cell)) : watch.Held cells' loaded := by
  intro value hfirst
  have hbefore := held value hfirst
  cases hsecond : loaded[watch.second]? with
  | none => exact hopen value ⟨hfirst, hsecond⟩
  | some value' =>
      rw [hsecond] at hbefore
      exact hbefore

theorem Held.load {watch : Watch κ} {cells : κ → Nat} {loaded : List Nat}
    {cell : κ} (hlt : watch.first < watch.second)
    (held : watch.Held cells loaded)
    (hfirst : loaded.length = watch.first →
      watch.rel (cells cell) (cells watch.cell))
    (hsecond : loaded.length = watch.second → cell = watch.cell) :
    watch.Held cells (loaded ++ [cells cell]) := by
  intro value hvalue
  rcases Nat.lt_trichotomy loaded.length watch.first with h | h | h
  · rw [List.getElem?_eq_none (by simp; omega)] at hvalue
    cases hvalue
  · have hnone : (loaded ++ [cells cell])[watch.second]? = none :=
      List.getElem?_eq_none (by simp; omega)
    rw [← h, List.getElem?_concat_length, Option.some.injEq] at hvalue
    rw [hnone, ← hvalue]
    exact hfirst h
  · rw [List.getElem?_append_left h] at hvalue
    have hbefore := held value hvalue
    rcases Nat.lt_trichotomy loaded.length watch.second with h' | h' | h'
    · rw [List.getElem?_eq_none (by simp; omega)]
      rwa [List.getElem?_eq_none (by omega)] at hbefore
    · rw [List.getElem?_eq_none (by omega)] at hbefore
      rw [← h', List.getElem?_concat_length, hsecond h']
      exact hbefore
    · rw [List.getElem?_append_left h']
      exact hbefore

end Watch

variable [DecidableEq ι] [DecidableEq κ]

/-- A thread that has loaded the first of these cells, with all watches
held. -/
structure Reading (loads : List κ) (watches : List (Watch κ))
    (cells : κ → Nat) (thread : Thread ω κ) : Prop where
  length_le : thread.loaded.length ≤ loads.length
  todo_eq : thread.todo = (loads.drop thread.loaded.length).map .load
  held : ∀ watch ∈ watches, watch.Held cells thread.loaded

/-- An addition leaves the open watches of every reader in their relation. -/
def Undisturbed (reader : ω) (watches : List (Watch κ))
    (machine : Machine ι ω κ) (act : Act ι ω) : Prop :=
  ∀ t cell amount todo, act = .advance t →
    (machine.threads t).todo = .add cell amount :: todo →
    ∀ u, (machine.threads u).op = some reader → ∀ watch ∈ watches,
      watch.cell = cell → ∀ value,
      watch.OpenAt (machine.threads u).loaded value →
      watch.rel value (machine.cells cell + amount)

structure Watchable (loads : List κ) (watches : List (Watch κ))
    (cells : κ → Nat) : Prop where
  first_lt : ∀ watch ∈ watches, watch.first < watch.second
  second_eq : ∀ watch ∈ watches, loads[watch.second]? = some watch.cell
  live : ∀ watch ∈ watches, ∀ cell, loads[watch.first]? = some cell →
    watch.rel (cells cell) (cells watch.cell)

section Steps

variable {loads : List κ} {watches : List (Watch κ)} {cells : κ → Nat}
  {thread : Thread ω κ} {modulus : Nat}

omit [DecidableEq κ] in
theorem reading_start (op : Option ω) :
    Reading loads watches cells ⟨op, loads.map .load, []⟩ := by
  refine ⟨Nat.zero_le _, rfl, ?_⟩
  intro watch _ value hvalue
  simp at hvalue

theorem Reading.next (modulus : Nat) {instr : Instr κ} {todo : List (Instr κ)}
    (reading : Reading loads watches cells thread)
    (hwatch : Watchable loads watches cells)
    (htodo : thread.todo = instr :: todo) :
    instr.exec modulus cells = cells ∧
      Reading loads watches cells
        { thread with
          todo := todo
          loaded := thread.loaded ++ instr.seen cells } := by
  have hloads := reading.todo_eq
  rw [htodo] at hloads
  cases hrest : loads.drop thread.loaded.length with
  | nil => simp [hrest] at hloads
  | cons cell rest =>
      rw [hrest, List.map_cons, List.cons.injEq] at hloads
      rcases hloads with ⟨rfl, rfl⟩
      have hcell : loads[thread.loaded.length]? = some cell := by
        rw [← List.head?_drop, hrest]
        rfl
      have hlt : thread.loaded.length < loads.length :=
        (List.getElem?_eq_some_iff.mp hcell).1
      refine ⟨rfl, ?_, ?_, ?_⟩
      · simp only [Instr.seen, List.length_append, List.length_singleton]
        omega
      · simp only [Instr.seen, List.length_append, List.length_singleton]
        rw [← List.drop_drop, hrest, List.drop_one, List.tail_cons]
      · intro watch hmem
        refine (reading.held watch hmem).load (hwatch.first_lt watch hmem)
          ?_ ?_
        · intro hfirst
          rw [hfirst] at hcell
          exact hwatch.live watch hmem cell hcell
        · intro hsecond
          have hsame := hwatch.second_eq watch hmem
          rw [hsecond, hsame, Option.some.injEq] at hcell
          exact hcell.symm

theorem Reading.of_exec {instr : Instr κ}
    (reading : Reading loads watches cells thread)
    (hclear : ∀ cell, instr ≠ .clear cell)
    (hadd : ∀ cell amount, instr = .add cell amount →
      cells cell + amount < modulus ∧
      ∀ watch ∈ watches, watch.cell = cell → ∀ value,
        watch.OpenAt thread.loaded value →
        watch.rel value (cells cell + amount)) :
    Reading loads watches (instr.exec modulus cells) thread := by
  refine ⟨reading.length_le, reading.todo_eq, ?_⟩
  intro watch hmem
  have held := reading.held watch hmem
  cases instr with
  | load cell => exact held
  | clear cell => exact absurd rfl (hclear cell)
  | add cell amount =>
      rcases hadd cell amount rfl with ⟨hwrap, hopen⟩
      apply held.of_cells
      intro value hvalue
      rw [Instr.exec, Nat.mod_eq_of_lt hwrap]
      by_cases hcell : watch.cell = cell
      · rw [hcell, Function.update_self]
        exact hopen watch hmem hcell value hvalue
      · rw [Function.update_of_ne hcell]
        have hheld := held value hvalue.1
        rwa [hvalue.2] at hheld

theorem readings_step {program : ω → List (Instr κ)} {reader : ω}
    (hreader : program reader = loads.map .load)
    {machine next : Machine ι ω κ} {act : Act ι ω}
    (hwatch : Watchable loads watches machine.cells)
    (hclear : ∀ t cell, .clear cell ∉ (machine.threads t).todo)
    (hwrap : NoWrap modulus machine act)
    (hundisturbed : Undisturbed reader watches machine act)
    (hstep : step modulus program machine act = some next)
    (h : ∀ u, (machine.threads u).op = some reader →
      Reading loads watches machine.cells (machine.threads u)) :
    ∀ u, (next.threads u).op = some reader →
      Reading loads watches next.cells (next.threads u) := by
  intro u
  cases act with
  | start t op =>
      have hnext := (step_start hstep).2
      subst hnext
      by_cases hu : u = t
      · subst hu
        simp only [Function.update_self]
        rintro ⟨⟩
        rw [hreader]
        exact reading_start _
      · simp only [Function.update_of_ne hu]
        exact h u
  | advance t =>
      rcases step_advance hstep with ⟨instr, todo, htodo, rfl⟩
      by_cases hu : u = t
      · subst hu
        simp only [Function.update_self]
        intro hop
        have hnext := (h u hop).next modulus hwatch htodo
        rw [hnext.1]
        exact hnext.2
      · simp only [Function.update_of_ne hu]
        intro hop
        refine (h u hop).of_exec ?_ ?_
        · rintro cell rfl
          apply hclear t cell
          rw [htodo]
          exact List.mem_cons_self
        · rintro cell amount rfl
          refine ⟨hwrap t cell amount todo rfl htodo, ?_⟩
          intro watch hmem hcell value hvalue
          exact hundisturbed t cell amount todo rfl htodo u hop watch hmem
            hcell value hvalue

end Steps

end Binger.Foundation.Atomics
