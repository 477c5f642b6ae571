import Binger.Sockaddr.Codec

/-!
# The send batch

`SendBatchRaw` keeps every slot it ever used: `clear` only resets `len`, so the
slot vector holds live slots followed by dead ones.  The two inequalities that
tie `len`, the slot vector and its capacity together are fields, because the
Rust fields are private and every constructor and method maintains them.
-/

namespace Binger

structure Slice where
  ptr : Nat
  bytes : List UInt8
  deriving DecidableEq, Repr

/-- `SendSlot`: `data_ptr` and `data_len` of the caller's buffer, and the
optional destination. -/
structure SendSlot where
  data : Slice
  addr : Option SocketAddr
  deriving DecidableEq

structure SendBatchRaw where
  slots : List SendSlot
  slotsCapacity : Nat
  len : Nat
  len_le : len ≤ slots.length
  slots_le : slots.length ≤ slotsCapacity

namespace SendBatchRaw

def withCapacity (capacity : Nat) : SendBatchRaw where
  slots := []
  slotsCapacity := capacity
  len := 0
  len_le := Nat.le_refl 0
  slots_le := Nat.zero_le capacity

def push (batch : SendBatchRaw) (data : Slice) (addr : Option SocketAddr) :
    Except BingerError SendBatchRaw :=
  if hfull : batch.slotsCapacity ≤ batch.len then
    .error (.batchFull batch.slotsCapacity)
  else if hgrow : batch.slots.length ≤ batch.len then
    .ok { batch with
          slots := batch.slots ++ [⟨data, addr⟩]
          len := batch.len + 1
          len_le := by simpa using batch.len_le
          slots_le := by simp; omega }
  else
    .ok { batch with
          slots := batch.slots.set batch.len ⟨data, addr⟩
          len := batch.len + 1
          len_le := by simp; omega
          slots_le := by simpa using batch.slots_le }

/-- `entry` indexes the slot vector, not the live part of it. -/
def entry (batch : SendBatchRaw) (idx : Nat) : Except Panic SendSlot :=
  match batch.slots[idx]? with
  | some slot => .ok slot
  | none => .error (.index idx batch.slots.length)

def clear (batch : SendBatchRaw) : SendBatchRaw :=
  { batch with len := 0, len_le := Nat.zero_le _ }

/-! ## The live entries -/

def entries (batch : SendBatchRaw) : List SendSlot :=
  batch.slots.take batch.len

@[simp] theorem entries_length (batch : SendBatchRaw) :
    batch.entries.length = batch.len := by
  simp [entries, batch.len_le]

theorem entry_eq_entries (batch : SendBatchRaw) {idx : Nat}
    (h : idx < batch.entries.length) :
    batch.entry idx = .ok batch.entries[idx] := by
  have hslots : idx < batch.slots.length := by
    have := batch.len_le
    rw [entries_length] at h
    omega
  simp [entry, entries, hslots]

def ofEntries (entries : List SendSlot) : SendBatchRaw where
  slots := entries
  slotsCapacity := entries.length
  len := entries.length
  len_le := Nat.le_refl _
  slots_le := Nat.le_refl _

@[simp] theorem entries_ofEntries (entries : List SendSlot) :
    (ofEntries entries).entries = entries := by
  simp [ofEntries, SendBatchRaw.entries]

end SendBatchRaw

end Binger
