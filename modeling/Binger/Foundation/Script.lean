import Mathlib.Data.List.Basic

/-!
# Scripted environments

An environment that is asked repeatedly is given by the list of answers it has
in store: each answer grants a value or refuses with an error.  A script that
ran out keeps refusing with a fixed `idle` error.  A client that asks `n` times
and stops at the first refusal sees `granted n`, the error `refusal idle n` if
there is one, and leaves `remaining n`.
-/

namespace Binger.Foundation

variable {α ε : Type*}

def ask (idle : ε) (script : List (Except ε α)) :
    Except ε α × List (Except ε α) :=
  match script with
  | [] => (.error idle, [])
  | answer :: rest => (answer, rest)

def granted : Nat → List (Except ε α) → List α
  | 0, _ => []
  | _ + 1, [] => []
  | n + 1, .ok value :: script => value :: granted n script
  | _ + 1, .error _ :: _ => []

def refusal (idle : ε) : Nat → List (Except ε α) → Option ε
  | 0, _ => none
  | _ + 1, [] => some idle
  | n + 1, .ok _ :: script => refusal idle n script
  | _ + 1, .error error :: _ => some error

def remaining : Nat → List (Except ε α) → List (Except ε α)
  | 0, script => script
  | _ + 1, [] => []
  | n + 1, .ok _ :: script => remaining n script
  | _ + 1, .error _ :: script => script

def consumed : Nat → List (Except ε α) → Nat
  | 0, _ => 0
  | _ + 1, [] => 0
  | n + 1, .ok _ :: script => consumed n script + 1
  | _ + 1, .error _ :: _ => 1

/-- The number of questions that the client asks.  The one behind the end of the
script counts too. -/
def questions : Nat → List (Except ε α) → Nat
  | 0, _ => 0
  | _ + 1, [] => 1
  | n + 1, .ok _ :: script => questions n script + 1
  | _ + 1, .error _ :: _ => 1

def stock (script : List (Except ε α)) : List α :=
  script.filterMap Except.toOption

@[simp] theorem granted_zero (script : List (Except ε α)) :
    granted 0 script = [] := by
  rw [granted]

@[simp] theorem refusal_zero (idle : ε) (script : List (Except ε α)) :
    refusal idle 0 script = none := by
  rw [refusal]

@[simp] theorem remaining_zero (script : List (Except ε α)) :
    remaining 0 script = script := by
  rw [remaining]

theorem remaining_eq_drop (n : Nat) (script : List (Except ε α)) :
    remaining n script = script.drop (consumed n script) := by
  fun_induction consumed n script with
  | case1 | case2 | case4 => simp [remaining]
  | case3 n value script ih => simpa [remaining] using ih

theorem questions_pos {n : Nat} (h : n ≠ 0) (script : List (Except ε α)) :
    0 < questions n script := by
  fun_cases questions n script with
  | case1 => exact absurd rfl h
  | case2 | case3 | case4 => simp

theorem stock_drop_length_lt (value : α) (script : List (Except ε α))
    (k : Nat) :
    (stock ((Except.ok value :: script).drop (k + 1))).length <
      (stock (Except.ok value :: script)).length := by
  have hle := ((List.drop_sublist k script).filterMap
    Except.toOption).length_le
  simpa [stock, List.filterMap_cons, Except.toOption] using
    Nat.lt_succ_of_le hle

theorem exists_of_granted_ne_nil {n : Nat} {script : List (Except ε α)}
    (h : granted n script ≠ []) :
    ∃ k value rest, n = k + 1 ∧ script = .ok value :: rest := by
  fun_cases granted n script with
  | case1 | case2 | case4 => simp [granted] at h
  | case3 n value rest => exact ⟨n, value, rest, rfl, rfl⟩

theorem refused_map {answer : Except ε α → Except ε α}
    (hanswer : ∀ error, answer (.error error) = .error error) {n : Nat}
    {script : List (Except ε α)} (h : granted n script = []) :
    granted n (script.map answer) = [] ∧
      stock (script.drop (consumed n (script.map answer))) =
        stock script := by
  fun_cases granted n script with
  | case1 | case2 => simp [consumed, granted]
  | case3 n value script => simp [granted] at h
  | case4 n error script =>
      simp [granted, consumed, hanswer, stock, List.filterMap_cons,
        Except.toOption]

theorem granted_length_le (n : Nat) (script : List (Except ε α)) :
    (granted n script).length ≤ n := by
  fun_induction granted n script with
  | case1 | case2 | case4 => simp
  | case3 n value script ih => simpa using ih

theorem mem_of_mem_granted {n : Nat} {script : List (Except ε α)} {value : α}
    (h : value ∈ granted n script) : .ok value ∈ script := by
  fun_induction granted n script with
  | case1 | case2 | case4 => simp at h
  | case3 n head script ih =>
      rcases List.mem_cons.mp h with rfl | hmem
      · exact List.mem_cons_self
      · exact List.mem_cons_of_mem _ (ih hmem)

theorem refusal_eq_none_iff (idle : ε) (n : Nat) (script : List (Except ε α)) :
    refusal idle n script = none ↔ (granted n script).length = n := by
  fun_induction granted n script with
  | case1 => simp
  | case2 | case4 => simp [refusal]
  | case3 n value script ih => simpa [refusal] using ih

theorem refusal_of_granted_nil {idle error : ε} {n : Nat}
    {script : List (Except ε α)} (hrefusal : refusal idle n script = some error)
    (hgranted : granted n script = []) :
    (ask idle script).1 = .error error ∧
      remaining n script = (ask idle script).2 := by
  fun_cases refusal idle n script with
  | case1 => simp at hrefusal
  | case2 => simpa [refusal, ask, remaining] using hrefusal
  | case3 n value script => simp [granted] at hgranted
  | case4 n error' script => simpa [refusal, ask, remaining] using hrefusal

theorem refused_at_once {idle error : ε} {script : List (Except ε α)}
    (h : (ask idle script).1 = .error error) (n : Nat) :
    granted n script = [] ∧ (n ≠ 0 → refusal idle n script = some error) := by
  fun_cases granted n script with
  | case1 => simp
  | case2 => simpa [ask, refusal] using h
  | case3 n value script => simp [ask] at h
  | case4 n error' script => simpa [ask, refusal] using h

theorem granted_ne_nil {idle : ε} {n : Nat} (hn : n ≠ 0)
    {script : List (Except ε α)} {value : α}
    (h : (ask idle script).1 = .ok value) : granted n script ≠ [] := by
  fun_cases granted n script with
  | case1 => exact absurd rfl hn
  | case2 | case4 => simp [ask] at h
  | case3 => simp

theorem granted_of_le {m n : Nat} (h : m ≤ n) (script : List (Except ε α)) :
    granted m script = (granted n script).take m := by
  induction m generalizing n script with
  | zero => simp
  | succ m ih =>
      obtain ⟨n, rfl⟩ : ∃ k, n = k + 1 := ⟨n - 1, by omega⟩
      cases script with
      | nil => simp [granted]
      | cons answer script =>
          cases answer with
          | error error => simp [granted]
          | ok value => simp [granted, ih (Nat.le_of_succ_le_succ h)]

theorem refusal_of_le {m n : Nat} (h : m ≤ n) {idle error : ε}
    {script : List (Except ε α)} (hm : refusal idle m script = some error) :
    refusal idle n script = some error := by
  induction m generalizing n script with
  | zero => simp at hm
  | succ m ih =>
      obtain ⟨n, rfl⟩ : ∃ k, n = k + 1 := ⟨n - 1, by omega⟩
      cases script with
      | nil => simpa [refusal] using hm
      | cons answer script =>
          cases answer with
          | error error => simpa [refusal] using hm
          | ok value =>
              simp only [refusal] at hm ⊢
              exact ih (Nat.le_of_succ_le_succ h) hm

theorem granted_map_ok (n : Nat) (values : List α) :
    granted n (values.map (Except.ok (ε := ε))) = values.take n := by
  induction n generalizing values with
  | zero => simp
  | succ n ih => cases values <;> simp [granted, ih]

theorem refusal_map_ok (idle : ε) (n : Nat) (values : List α) :
    refusal idle n (values.map (Except.ok (ε := ε))) =
      if n ≤ values.length then none else some idle := by
  induction n generalizing values with
  | zero => simp
  | succ n ih => cases values <;> simp [refusal, ih]

theorem remaining_map_ok (n : Nat) (values : List α) :
    remaining n (values.map (Except.ok (ε := ε))) =
      (values.drop n).map Except.ok := by
  induction n generalizing values with
  | zero => simp
  | succ n ih => cases values <;> simp [remaining, ih]

end Binger.Foundation
