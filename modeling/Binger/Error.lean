import Mathlib.Data.List.Basic

/-!
# Errors and panics

`io::Error` carries either the `errno` of a failed system call or a message.
The code only ever looks at the kind of an error and, for `ENOSYS`, at the raw
`errno`, so the remaining codes stay opaque numbers.

A Rust panic is a value of its own.  Every index and slice expression that is
bounds-checked at run time becomes a computation in `Except Panic`.
-/

namespace Binger

inductive Errno where
  | eagain
  | eintr
  | enosys
  | other (code : Nat)
  deriving DecidableEq, Repr

inductive ErrorKind where
  | wouldBlock
  | interrupted
  | unsupported
  | other
  deriving DecidableEq, Repr

inductive IoError where
  | os (errno : Errno)
  | custom (message : String)
  deriving DecidableEq, Repr

abbrev IoResult (α : Type) := Except IoError α

instance {α : Type} [DecidableEq α] : DecidableEq (IoResult α)
  | .ok a, .ok b => decidable_of_iff (a = b) (by simp)
  | .error a, .error b => decidable_of_iff (a = b) (by simp)
  | .ok _, .error _ => isFalse (by simp)
  | .error _, .ok _ => isFalse (by simp)

namespace IoError

def kind : IoError → ErrorKind
  | .os .eagain => .wouldBlock
  | .os .eintr => .interrupted
  | .os .enosys => .unsupported
  | .os (.other _) => .other
  | .custom _ => .other

def rawOsError : IoError → Option Errno
  | .os errno => some errno
  | .custom _ => none

end IoError

inductive Panic where
  | index (index length : Nat)
  | slice (stop length : Nat)
  deriving DecidableEq, Repr

theorem toOption_eq_some {ε α : Type} {result : Except ε α} {value : α}
    (h : result.toOption = some value) : result = .ok value := by
  cases result with
  | error error => cases h
  | ok found =>
      cases h
      rfl

inductive BingerError where
  | batchFull (capacity : Nat)
  | io (error : IoError)
  deriving DecidableEq, Repr

end Binger
