import Mathlib.Data.List.Basic

/-!
# Bounded queues

A list of at most `capacity` items, filled at its end and taken from its
front.  A push that finds no room is refused.
-/

namespace Binger.Foundation

@[ext] structure Bounded (α : Type*) where
  items : List α
  capacity : Nat
  length_le : items.length ≤ capacity

namespace Bounded

variable {α : Type*}

def empty (capacity : Nat) : Bounded α where
  items := []
  capacity := capacity
  length_le := Nat.zero_le capacity

theorem length_concat_le {items : List α} {capacity : Nat}
    (h : items.length < capacity) (item : α) :
    (items ++ [item]).length ≤ capacity := by
  rw [List.length_append, List.length_singleton]
  omega

theorem length_tail_le {items : List α} {capacity : Nat}
    (h : items.length ≤ capacity) : items.tail.length ≤ capacity := by
  rw [List.length_tail]
  omega

def push (queue : Bounded α) (item : α) : Option (Bounded α) :=
  if h : queue.items.length < queue.capacity then
    some ⟨queue.items ++ [item], queue.capacity, length_concat_le h item⟩
  else none

def pop (queue : Bounded α) : Option (α × Bounded α) :=
  queue.items.head?.map fun item =>
    (item, ⟨queue.items.tail, queue.capacity, length_tail_le queue.length_le⟩)

def clear (queue : Bounded α) : Bounded α := empty queue.capacity

variable {queue next : Bounded α} {item : α}

theorem push_eq_some_iff :
    queue.push item = some next ↔
      queue.items.length < queue.capacity ∧
        next.items = queue.items ++ [item] ∧
        next.capacity = queue.capacity := by
  rw [push]
  split
  · next hroom =>
      rw [Option.some.injEq, Bounded.ext_iff]
      simp only [hroom, true_and]
      constructor <;> rintro ⟨hitems, hcapacity⟩ <;>
        exact ⟨hitems.symm, hcapacity.symm⟩
  · next hfull => simp [hfull]

theorem push_eq_none_iff :
    queue.push item = none ↔ queue.items.length = queue.capacity := by
  have := queue.length_le
  rw [push]
  split
  · simp only [reduceCtorEq, false_iff]
    omega
  · simp only [true_iff]
    omega

theorem pop_eq_some_iff :
    queue.pop = some (item, next) ↔
      queue.items = item :: next.items ∧ next.capacity = queue.capacity := by
  rcases queue with ⟨items, capacity, hle⟩
  cases items with
  | nil => simp [pop]
  | cons first items =>
      simp only [pop, List.head?_cons, List.tail_cons, Option.map_some,
        Option.some.injEq, Prod.mk.injEq, Bounded.ext_iff, List.cons.injEq]
      constructor
      · rintro ⟨rfl, hitems, hcapacity⟩
        exact ⟨⟨rfl, hitems⟩, hcapacity.symm⟩
      · rintro ⟨⟨rfl, hitems⟩, hcapacity⟩
        exact ⟨rfl, hitems, hcapacity.symm⟩

theorem pop_eq_none_iff : queue.pop = none ↔ queue.items = [] := by
  rcases queue with ⟨items, capacity, hle⟩
  cases items <;> simp [pop]

end Bounded

end Binger.Foundation
