import Mathlib.Data.List.Basic
import Mathlib.Tactic.Ring

/-!
# Machine words in byte memory

A word of `width` bytes is a natural number stored in the byte order of the
host.  `store` and `load` are the two directions of a native memory access and
`toBe` is the byte swap that only a little-endian host performs.  Nothing in
this file knows what the words are used for.
-/

namespace Binger.Foundation

inductive ByteOrder where
  | little
  | big
  deriving DecidableEq, Repr

/-! ## Digits in base 256 -/

def digits : Nat → Nat → List UInt8
  | 0, _ => []
  | width + 1, value => UInt8.ofNat value :: digits width (value / 256)

def ofDigits : List UInt8 → Nat
  | [] => 0
  | digit :: rest => digit.toNat + 256 * ofDigits rest

@[simp] theorem digits_length (width value : Nat) :
    (digits width value).length = width := by
  induction width generalizing value with
  | zero => rfl
  | succ width ih => simp [digits, ih]

theorem ofDigits_digits (width value : Nat) :
    ofDigits (digits width value) = value % 256 ^ width := by
  induction width generalizing value with
  | zero => simp [digits, ofDigits, Nat.mod_one]
  | succ width ih =>
      rw [digits, ofDigits, ih, pow_succ', Nat.mod_mul, UInt8.toNat_ofNat']

theorem digits_ofDigits (bytes : List UInt8) :
    digits bytes.length (ofDigits bytes) = bytes := by
  induction bytes with
  | nil => rfl
  | cons byte rest ih =>
      have hbyte : byte.toNat < 256 := byte.toNat_lt
      have hlow : UInt8.ofNat (byte.toNat + 256 * ofDigits rest) = byte := by
        apply UInt8.toNat_inj.mp
        rw [UInt8.toNat_ofNat']
        omega
      have hhigh : (byte.toNat + 256 * ofDigits rest) / 256 =
          ofDigits rest := by
        omega
      simp only [List.length_cons, digits, ofDigits, hlow, hhigh, ih]

/-! ## Native loads and stores -/

namespace ByteOrder

/-- The bytes that a native store of a `width`-byte word leaves in memory. -/
def store (order : ByteOrder) (width value : Nat) : List UInt8 :=
  match order with
  | little => digits width value
  | big => (digits width value).reverse

def load (order : ByteOrder) (bytes : List UInt8) : Nat :=
  match order with
  | little => ofDigits bytes
  | big => ofDigits bytes.reverse

/-- `to_be` and `from_be`: swap the bytes of a word on a little-endian host. -/
def toBe (order : ByteOrder) (width value : Nat) : Nat :=
  match order with
  | little => ofDigits (digits width value).reverse
  | big => value

@[simp] theorem store_length (order : ByteOrder) (width value : Nat) :
    (order.store width value).length = width := by
  cases order <;> simp [store]

theorem load_store (order : ByteOrder) (width value : Nat) :
    order.load (order.store width value) = value % 256 ^ width := by
  cases order <;> simp [load, store, ofDigits_digits]

theorem load_store_of_lt (order : ByteOrder) {width value : Nat}
    (h : value < 256 ^ width) :
    order.load (order.store width value) = value := by
  rw [load_store, Nat.mod_eq_of_lt h]

theorem store_load (order : ByteOrder) (bytes : List UInt8) :
    order.store bytes.length (order.load bytes) = bytes := by
  cases order with
  | little => exact digits_ofDigits bytes
  | big =>
      have h := digits_ofDigits bytes.reverse
      rw [List.length_reverse] at h
      simp [store, load, h]

theorem load_replicate_zero (order : ByteOrder) (n : Nat) :
    order.load (List.replicate n 0) = 0 := by
  have hdigits : ofDigits (List.replicate n 0) = 0 := by
    induction n with
    | zero => rfl
    | succ n ih => simp [List.replicate_succ, ofDigits, ih]
  cases order <;> simp [load, hdigits]

theorem load_lt (order : ByteOrder) (bytes : List UInt8) :
    order.load bytes < 256 ^ bytes.length := by
  have h := order.load_store bytes.length (order.load bytes)
  rw [store_load] at h
  rw [h]
  exact Nat.mod_lt _ (Nat.pow_pos (by decide))

theorem store_toBe (order : ByteOrder) (width value : Nat) :
    order.store width (order.toBe width value) = big.store width value := by
  cases order with
  | big => rfl
  | little =>
      have h := digits_ofDigits (digits width value).reverse
      rw [List.length_reverse, digits_length] at h
      simpa [store, toBe] using h

theorem toBe_load (order : ByteOrder) (bytes : List UInt8) :
    order.toBe bytes.length (order.load bytes) = big.load bytes := by
  cases order with
  | big => rfl
  | little => simp [toBe, load, digits_ofDigits]

end ByteOrder

/-! ## Writing the first bytes of an area -/

def writePrefix {α : Type*} (bytes area : List α) : List α :=
  bytes ++ area.drop bytes.length

theorem writePrefix_length {α : Type*} {bytes area : List α}
    (h : bytes.length ≤ area.length) :
    (writePrefix bytes area).length = area.length := by
  simp [writePrefix]
  omega

@[simp] theorem take_writePrefix {α : Type*} (bytes area : List α) :
    (writePrefix bytes area).take bytes.length = bytes := by
  simp [writePrefix]

/-! ## Writing in the middle of an area -/

def writeAt {α : Type*} (offset : Nat) (bytes area : List α) : List α :=
  area.take offset ++ writePrefix bytes (area.drop offset)

theorem writeAt_append {α : Type*} {offset : Nat} {before old rest : List α}
    (hbefore : before.length = offset) {bytes : List α}
    (hold : old.length = bytes.length) :
    writeAt offset bytes (before ++ (old ++ rest)) =
      before ++ (bytes ++ rest) := by
  subst hbefore
  simp [writeAt, writePrefix, ← hold]

end Binger.Foundation
