import Binger.Kernel

/-!
# Retrying interrupted system calls

`retry_eintr` repeats a call until it is not interrupted.  Interruptions come
from the script, so a retried call sees the script without the interruptions at
its front.
-/

namespace Binger.Platform

open Binger.Foundation

/--
`retry_eintr`: repeat a system call while it is interrupted.  The measure is
what bounds the number of interruptions.
-/
def retryEintr {α : Type} (call : Os → IoResult α × Os) (measure : Os → Nat)
    (decreases : ∀ os os' error, call os = (.error error, os') →
      error.kind = .interrupted → measure os' < measure os) (os : Os) :
    IoResult α × Os :=
  match _h : call os with
  | (.ok n, os') => (.ok n, os')
  | (.error error, os') =>
      if _h : error.kind = .interrupted then
        retryEintr call measure decreases os'
      else (.error error, os')
termination_by measure os
decreasing_by exact decreases _ _ _ ‹_› ‹_›

def isInterrupted {α : Type} : Except Fault α → Bool
  | .error .interrupted => true
  | _ => false

def skipInterrupted {α : Type} (n : Nat) (script : List (Except Fault α)) :
    List (Except Fault α) :=
  if n = 0 then script else script.dropWhile isInterrupted

theorem skipInterrupted_of_not {α : Type} (n : Nat) {answer : Except Fault α}
    (h : isInterrupted answer = false) (script : List (Except Fault α)) :
    skipInterrupted n (answer :: script) = answer :: script := by
  simp [skipInterrupted, h]

theorem skipInterrupted_of_first {β : Type} (n : Nat)
    {script : List (Except Fault β)}
    (h : (ask .wouldBlock script).1 ≠ .error .interrupted) :
    skipInterrupted n script = script := by
  rcases script with - | ⟨(- | - | code) | value, script⟩
  · simp [skipInterrupted]
  · exact skipInterrupted_of_not n rfl script
  · exact absurd rfl h
  · exact skipInterrupted_of_not n rfl script
  · exact skipInterrupted_of_not n rfl script

theorem skipInterrupted_interrupted {α : Type} (n : Nat)
    (script : List (Except Fault α)) :
    skipInterrupted (n + 1) (.error .interrupted :: script) =
      skipInterrupted (n + 1) script := by
  simp [skipInterrupted, List.dropWhile_cons, isInterrupted]

section RetryEintr

variable {α : Type} (call : Os → IoResult α × Os) (measure : Os → Nat)
  (decreases : ∀ os os' error, call os = (.error error, os') →
    error.kind = .interrupted → measure os' < measure os)

theorem retryEintr_of_interrupted {os os' : Os} {error : IoError}
    (h : call os = (.error error, os')) (hkind : error.kind = .interrupted) :
    retryEintr call measure decreases os =
      retryEintr call measure decreases os' := by
  rw [retryEintr]
  split
  · simp_all
  · next error' os'' hcall =>
      obtain ⟨rfl, rfl⟩ : error' = error ∧ os'' = os' := by simp_all
      rw [dif_pos hkind]

theorem retryEintr_of_done {os : Os}
    (h : ∀ error os', call os = (.error error, os') →
      error.kind ≠ .interrupted) :
    retryEintr call measure decreases os = call os := by
  rw [retryEintr]
  split
  · simp_all
  · next error os' hcall =>
      rw [dif_neg (h error os' hcall), hcall]

def SameAnswer {β : Type} (R : α → β → Prop) :
    IoResult α × Os → IoResult β × Os → Prop
  | (.ok value, os), (.ok value', os') => R value value' ∧ os = os'
  | (.error error, os), (.error error', os') => error = error' ∧ os = os'
  | _, _ => False

/-- A call that reads one of the scripts of the kernel, behind `get` and `put`,
and asks it up to `n` questions, as long as the kernel is one of `supported`. -/
structure AsksScript {β : Type} (supported : Os → Prop) (n : Nat)
    (get : Os → List (Except Fault β))
    (put : Os → List (Except Fault β) → Os) : Prop where
  supported_put : ∀ os script, supported os → supported (put os script)
  get_put : ∀ os script, get (put os script) = script
  put_get : ∀ os, put os (get os) = os
  put_put : ∀ os first second, put (put os first) second = put os second
  interrupted : 0 < n → ∀ os rest, supported os →
    get os = .error .interrupted :: rest →
    call os = (.error (.os .eintr), put os rest)
  done : ∀ os, supported os →
    (0 < n → ∀ rest, get os ≠ .error .interrupted :: rest) →
    ∀ error os', call os = (.error error, os') → error.kind ≠ .interrupted

variable {call}

theorem retryEintr_sameAnswer {β : Type} {call' : Os → IoResult β × Os}
    (decreases' : ∀ os os' error, call' os = (.error error, os') →
      error.kind = .interrupted → measure os' < measure os)
    {R : α → β → Prop} (h : ∀ os, SameAnswer R (call os) (call' os))
    (os : Os) :
    SameAnswer R (retryEintr call measure decreases os)
      (retryEintr call' measure decreases' os) := by
  induction hm : measure os using Nat.strong_induction_on generalizing os with
  | _ m ih =>
      have hos := h os
      rw [retryEintr, retryEintr]
      rcases hcall : call os with ⟨error | value, next⟩ <;>
        rcases hcall' : call' os with ⟨error' | value', next'⟩ <;>
        rw [hcall, hcall'] at hos
      · rcases hos with ⟨rfl, rfl⟩
        by_cases hkind : error.kind = .interrupted
        · simp only [hkind, dif_pos]
          exact ih _ (hm ▸ decreases os next error hcall hkind) next rfl
        · simp only [hkind]
          exact ⟨rfl, rfl⟩
      · exact False.elim hos
      · exact False.elim hos
      · exact hos

theorem retryEintr_eq {β : Type} {supported : Os → Prop} {n : Nat}
    {get : Os → List (Except Fault β)}
    {put : Os → List (Except Fault β) → Os}
    (asks : AsksScript call supported n get put) {os : Os}
    (hos : supported os) :
    retryEintr call measure decreases os =
      call (put os (skipInterrupted n (get os))) := by
  rcases Nat.eq_zero_or_pos n with rfl | hn
  · rw [retryEintr_of_done _ _ _ (asks.done os hos (by simp))]
    simp [skipInterrupted, asks.put_get]
  · obtain ⟨n, rfl⟩ : ∃ k, n = k + 1 := ⟨n - 1, by omega⟩
    generalize hscript : get os = script
    induction script generalizing os with
    | nil =>
        rw [retryEintr_of_done _ _ _ (asks.done os hos (by simp [hscript]))]
        simp only [skipInterrupted, List.dropWhile_nil, ite_self]
        rw [← hscript, asks.put_get]
    | cons answer script ih =>
        cases hanswer : isInterrupted answer with
        | true =>
            obtain rfl : answer = .error .interrupted := by
              unfold isInterrupted at hanswer
              split at hanswer <;> simp_all
            rw [retryEintr_of_interrupted _ _ _
              (asks.interrupted hn os script hos hscript) rfl,
              ih (asks.supported_put os script hos) (asks.get_put os script),
              asks.put_put,
              skipInterrupted_interrupted]
        | false =>
            rw [retryEintr_of_done]
            · rw [skipInterrupted_of_not _ hanswer, ← hscript, asks.put_get]
            · refine asks.done os hos fun _ rest hrest => ?_
              rw [hscript, List.cons.injEq] at hrest
              simp [hrest.1, isInterrupted] at hanswer

end RetryEintr

end Binger.Platform
