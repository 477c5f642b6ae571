import Mathlib.Logic.Function.Basic

/-!
# Owners of table entries

A table hands out keys, and names hold them.  When every occupied key is held by
exactly one name, a name can be thought of as holding the entry itself:
allocating, changing and releasing an entry through its key then act on the
entry of that name and on nothing else.
-/

namespace Binger.Foundation

variable {ν κ β : Type*}

/-- Every occupied key is held by one name, and every key that is held is
occupied. -/
structure Owned (keys : ν → Option κ) (table : κ → Option β) : Prop where
  occupied_iff : ∀ key, (table key).isSome ↔ ∃ name, keys name = some key
  unique : ∀ {name name' : ν} {key : κ}, keys name = some key →
    keys name' = some key → name = name'

def Available (keys : ν → Option κ) (table : κ → Option β) (name : ν)
    (key : κ) : Prop :=
  keys name = some key ∨ keys name = none ∧ table key = none

def contents (keys : ν → Option κ) (table : κ → Option β) (name : ν) :
    Option β :=
  (keys name).bind table

theorem owned_empty : Owned (fun _ : ν => (none : Option κ))
    (fun _ => (none : Option β)) :=
  ⟨by simp, by simp⟩

namespace Owned

variable {keys : ν → Option κ} {table : κ → Option β} {name : ν} {key : κ}

theorem occupied (h : Owned keys table) (hname : keys name = some key) :
    ∃ entry, table key = some entry :=
  Option.isSome_iff_exists.mp ((h.occupied_iff key).mpr ⟨name, hname⟩)

theorem not_held (h : Owned keys table) (havail : Available keys table name key)
    {other : ν} (hother : other ≠ name) : keys other ≠ some key := by
  intro hheld
  rcases havail with hname | ⟨-, hfree⟩
  · exact hother (h.unique hheld hname)
  · obtain ⟨entry, hentry⟩ := h.occupied hheld
    rw [hfree] at hentry
    cases hentry

variable [DecidableEq ν] [DecidableEq κ]

theorem set (h : Owned keys table) (havail : Available keys table name key)
    (entry : Option β) :
    Owned (Function.update keys name (entry.map fun _ => key))
      (Function.update table key entry) := by
  have hself : ∀ key', Function.update keys name (entry.map fun _ => key)
      name = some key' ↔ entry.isSome ∧ key' = key := by
    intro key'
    rw [Function.update_self]
    cases entry <;> simp [eq_comm]
  constructor
  · intro key'
    by_cases hsame : key' = key
    · subst hsame
      rw [Function.update_self]
      constructor
      · intro hentry
        exact ⟨name, (hself key').mpr ⟨hentry, rfl⟩⟩
      · rintro ⟨other, hother⟩
        by_cases heq : other = name
        · rw [heq] at hother
          exact ((hself key').mp hother).1
        · rw [Function.update_of_ne heq] at hother
          exact absurd hother (h.not_held havail heq)
    · rw [Function.update_of_ne hsame, h.occupied_iff]
      apply exists_congr
      intro other
      by_cases heq : other = name
      · rw [heq, hself]
        rcases havail with hname | ⟨hname, -⟩ <;>
          simp [hname, hsame, Ne.symm hsame]
      · rw [Function.update_of_ne heq]
  · intro first second key' hfirst hsecond
    have hother : ∀ other, other ≠ name →
        Function.update keys name (entry.map fun _ => key) other = some key' →
        keys other = some key' ∧ key' ≠ key := by
      intro other hne hheld
      rw [Function.update_of_ne hne] at hheld
      refine ⟨hheld, ?_⟩
      rintro rfl
      exact h.not_held havail hne hheld
    by_cases hf : first = name <;> by_cases hs : second = name
    · rw [hf, hs]
    · rw [hf, hself] at hfirst
      exact absurd hfirst.2 (hother second hs hsecond).2
    · rw [hs, hself] at hsecond
      exact absurd hsecond.2 (hother first hf hfirst).2
    · exact h.unique (hother first hf hfirst).1 (hother second hs hsecond).1

theorem contents_set (h : Owned keys table)
    (havail : Available keys table name key) (entry : Option β) :
    contents (Function.update keys name (entry.map fun _ => key))
        (Function.update table key entry) =
      Function.update (contents keys table) name entry := by
  funext other
  by_cases heq : other = name
  · rw [heq, Function.update_self, contents, Function.update_self]
    cases entry <;> simp
  · rw [Function.update_of_ne heq, contents, contents,
      Function.update_of_ne heq]
    cases hheld : keys other with
    | none => rfl
    | some key' =>
        have hne : key' ≠ key := by
          rintro rfl
          exact h.not_held havail heq hheld
        rw [Option.bind_some, Option.bind_some, Function.update_of_ne hne]

end Owned

end Binger.Foundation
