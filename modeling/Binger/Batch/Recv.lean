import Binger.Sockaddr.Codec

/-!
# The receive batch

Every slot owns a buffer of the same size, fixed at construction: `buffer_mut`
hands out a slice, which can be written but not resized, so the buffer length
is part of the slot's type.  The number of packets `len` and the recorded
lengths are independent public fields and carry no invariant here.
-/

namespace Binger

open Binger.Foundation

structure Timestamp where
  tvSec : Int
  tvNsec : Int
  deriving DecidableEq, Repr

abbrev Buf (bufSize : Nat) := { bytes : List UInt8 // bytes.length = bufSize }

structure RecvSlot (bufSize : Nat) where
  buf : Buf bufSize
  addr : SocketAddr
  recvLen : UInt16
  timestamp : Option Timestamp
  dstAddr : Option SocketAddr
  deriving DecidableEq

structure RecvBatchRaw (bufSize : Nat) where
  slots : List (RecvSlot bufSize)
  len : Nat
  deriving DecidableEq

structure Packet where
  data : List UInt8
  addr : SocketAddr
  timestamp : Option Timestamp
  dstAddr : Option SocketAddr
  deriving DecidableEq

namespace RecvSlot

variable {bufSize : Nat}

def zeroed (bufSize : Nat) : RecvSlot bufSize where
  buf := ⟨List.replicate bufSize 0, by simp⟩
  addr := .unspecified
  recvLen := 0
  timestamp := none
  dstAddr := none

def writeBuf (bytes : List UInt8) (slot : RecvSlot bufSize) :
    RecvSlot bufSize :=
  { slot with
    buf := ⟨writePrefix (bytes.take bufSize) slot.buf.1, by
      rw [writePrefix_length (by
        rw [slot.buf.2]
        exact List.length_take_le _ _), slot.buf.2]⟩ }

@[simp] theorem writeBuf_take (bytes : List UInt8) :
    (writeBuf (bytes.take bufSize) : RecvSlot bufSize → RecvSlot bufSize) =
      writeBuf bytes := by
  funext slot
  simp [writeBuf, List.take_take]

def payload (slot : RecvSlot bufSize) : List UInt8 :=
  slot.buf.1.take slot.recvLen.toNat

def entry (slot : RecvSlot bufSize) : List UInt8 × SocketAddr :=
  (slot.payload, slot.addr)

def packet (slot : RecvSlot bufSize) : Packet :=
  ⟨slot.payload, slot.addr, slot.timestamp, slot.dstAddr⟩

def clear (slot : RecvSlot bufSize) : RecvSlot bufSize :=
  { slot with recvLen := 0, timestamp := none, dstAddr := none }

end RecvSlot

namespace RecvBatchRaw

variable {bufSize : Nat}

def withCapacity (capacity bufSize : Nat) : RecvBatchRaw bufSize :=
  ⟨List.replicate capacity (.zeroed bufSize), 0⟩

def capacity (batch : RecvBatchRaw bufSize) : Nat := batch.slots.length

@[simp] theorem capacity_withCapacity (n bufSize : Nat) :
    (withCapacity n bufSize).capacity = n := by
  simp [capacity, withCapacity]

def setLen (batch : RecvBatchRaw bufSize) (len : Nat) : RecvBatchRaw bufSize :=
  { batch with len := len }

def slot (batch : RecvBatchRaw bufSize) (idx : Nat) :
    Except Panic (RecvSlot bufSize) :=
  match batch.slots[idx]? with
  | some slot => .ok slot
  | none => .error (.index idx batch.slots.length)

/-- An update through `&mut self.slots[idx]`. -/
def modifySlot (batch : RecvBatchRaw bufSize) (idx : Nat)
    (update : RecvSlot bufSize → RecvSlot bufSize) :
    Except Panic (RecvBatchRaw bufSize) :=
  if idx < batch.slots.length then
    .ok { batch with slots := batch.slots.modify idx update }
  else
    .error (.index idx batch.slots.length)

/-- The length goes through a 16-bit field. -/
def setRecvLen (batch : RecvBatchRaw bufSize) (idx n : Nat) :
    Except Panic (RecvBatchRaw bufSize) :=
  batch.modifySlot idx fun slot => { slot with recvLen := UInt16.ofNat n }

theorem recordedLen_le {n : Nat} (h : n ≤ bufSize) :
    (UInt16.ofNat n).toNat ≤ bufSize := by
  rw [UInt16.toNat_ofNat']
  exact (Nat.mod_le n _).trans h

/-- `*batch.buffer_mut(idx).1 = addr` -/
def setAddr (batch : RecvBatchRaw bufSize) (idx : Nat) (addr : SocketAddr) :
    Except Panic (RecvBatchRaw bufSize) :=
  batch.modifySlot idx fun slot => { slot with addr := addr }

def setTimestamp (batch : RecvBatchRaw bufSize) (idx : Nat)
    (ts : Option Timestamp) : Except Panic (RecvBatchRaw bufSize) :=
  batch.modifySlot idx fun slot => { slot with timestamp := ts }

def setDstAddr (batch : RecvBatchRaw bufSize) (idx : Nat)
    (addr : Option SocketAddr) : Except Panic (RecvBatchRaw bufSize) :=
  batch.modifySlot idx fun slot => { slot with dstAddr := addr }

/-- `batch.buffer_mut(idx).0[..stop]`, read. -/
def readBuf (batch : RecvBatchRaw bufSize) (idx stop : Nat) :
    Except Panic (List UInt8) := do
  let slot ← batch.slot idx
  if stop ≤ bufSize then .ok (slot.buf.1.take stop)
  else .error (.slice stop bufSize)

/-- `batch.buffer_mut(idx).0[..bytes.len()].copy_from_slice(bytes)` -/
def writeBuf (batch : RecvBatchRaw bufSize) (idx : Nat) (bytes : List UInt8) :
    Except Panic (RecvBatchRaw bufSize) := do
  let _ ← batch.slot idx
  if bytes.length ≤ bufSize then batch.modifySlot idx (RecvSlot.writeBuf bytes)
  else .error (.slice bytes.length bufSize)

def data (batch : RecvBatchRaw bufSize) (idx : Nat) :
    Except Panic (List UInt8) := do
  let slot ← batch.slot idx
  if slot.recvLen.toNat ≤ bufSize then .ok slot.payload
  else .error (.slice slot.recvLen.toNat bufSize)

def addr (batch : RecvBatchRaw bufSize) (idx : Nat) :
    Except Panic SocketAddr := do
  let slot ← batch.slot idx
  return slot.addr

def timestamp (batch : RecvBatchRaw bufSize) (idx : Nat) :
    Except Panic (Option Timestamp) := do
  let slot ← batch.slot idx
  return slot.timestamp

def dstAddr (batch : RecvBatchRaw bufSize) (idx : Nat) :
    Except Panic (Option SocketAddr) := do
  let slot ← batch.slot idx
  return slot.dstAddr

def clear (batch : RecvBatchRaw bufSize) : RecvBatchRaw bufSize :=
  ⟨batch.slots.map RecvSlot.clear, 0⟩

def read (batch : RecvBatchRaw bufSize) (n : Nat) :
    Except Panic (List (List UInt8 × SocketAddr)) :=
  (List.range' 0 n).mapM fun i => do
    let data ← batch.data i
    let addr ← batch.addr i
    return (data, addr)

def iter (batch : RecvBatchRaw bufSize) :
    Except Panic (List (List UInt8 × SocketAddr)) :=
  batch.read batch.len

/-! ## Updates in a decomposed slot vector

A receive loop writes at a moving index.  Splitting the slots at that index
turns each update into a rewrite of the head of the second part.
-/

section Split

variable (before rest : List (RecvSlot bufSize)) (slot : RecvSlot bufSize)
  (len : Nat)

@[simp] theorem slot_split :
    RecvBatchRaw.slot ⟨before ++ slot :: rest, len⟩ before.length =
      .ok slot := by
  simp [RecvBatchRaw.slot]

@[simp] theorem modifySlot_split
    (update : RecvSlot bufSize → RecvSlot bufSize) :
    RecvBatchRaw.modifySlot ⟨before ++ slot :: rest, len⟩ before.length
        update =
      .ok ⟨before ++ update slot :: rest, len⟩ := by
  simp [modifySlot, List.modify_eq_take_cons_drop]

end Split

theorem modifySlot_out_of_range {batch : RecvBatchRaw bufSize} {idx : Nat}
    (h : batch.slots.length ≤ idx)
    (update : RecvSlot bufSize → RecvSlot bufSize) :
    batch.modifySlot idx update =
      .error (.index idx batch.slots.length) := by
  rw [modifySlot, if_neg (by omega)]

/-! ## One slot -/

theorem slot_eq_ok_iff {batch : RecvBatchRaw bufSize} {idx : Nat}
    {slot : RecvSlot bufSize} :
    batch.slot idx = .ok slot ↔ batch.slots[idx]? = some slot := by
  unfold RecvBatchRaw.slot
  cases batch.slots[idx]? <;> simp

theorem exists_split {batch : RecvBatchRaw bufSize} {idx : Nat}
    {slot : RecvSlot bufSize} (h : batch.slot idx = .ok slot) :
    ∃ before rest, before.length = idx ∧
      batch.slots = before ++ slot :: rest := by
  rcases List.getElem?_eq_some_iff.mp (slot_eq_ok_iff.mp h) with ⟨hidx, rfl⟩
  refine ⟨batch.slots.take idx, batch.slots.drop (idx + 1),
    List.length_take_of_le (Nat.le_of_lt hidx), ?_⟩
  rw [List.getElem_cons_drop, List.take_append_drop]

section Overwritten

variable (before filled slots : List (RecvSlot bufSize)) (len : Nat)

theorem slot_overwritten {j : Nat} (hj : j < filled.length) :
    RecvBatchRaw.slot
        ⟨before ++ (filled ++ slots.drop filled.length), len⟩
        (before.length + j) = .ok filled[j] := by
  rw [slot_eq_ok_iff, List.getElem?_append_right (Nat.le_add_right _ _),
    Nat.add_sub_cancel_left, List.getElem?_append_left hj,
    List.getElem?_eq_getElem hj]

theorem slot_not_overwritten (hroom : filled.length ≤ slots.length)
    {idx : Nat}
    (hidx : idx < before.length ∨ before.length + filled.length ≤ idx) :
    RecvBatchRaw.slot
        ⟨before ++ (filled ++ slots.drop filled.length), len⟩ idx =
      RecvBatchRaw.slot ⟨before ++ slots, len⟩ idx := by
  have hslot : (before ++ (filled ++ slots.drop filled.length))[idx]? =
      (before ++ slots)[idx]? := by
    rcases hidx with hbefore | hbehind
    · rw [List.getElem?_append_left hbefore,
        List.getElem?_append_left hbefore]
    · rw [List.getElem?_append_right (by omega),
        List.getElem?_append_right (by omega),
        List.getElem?_append_right (by omega), List.getElem?_drop]
      congr 1
      omega
  have hlength : (before ++ (filled ++ slots.drop filled.length)).length =
      (before ++ slots).length := by
    simp only [List.length_append, List.length_drop]
    omega
  rw [RecvBatchRaw.slot, RecvBatchRaw.slot, hslot, hlength]

end Overwritten

theorem slot_modifySlot_ne {batch batch' : RecvBatchRaw bufSize}
    {idx other : Nat} {update : RecvSlot bufSize → RecvSlot bufSize}
    (h : batch.modifySlot other update = .ok batch') (hne : other ≠ idx) :
    batch'.slot idx = batch.slot idx := by
  unfold modifySlot at h
  split at h
  · cases h
    simp [RecvBatchRaw.slot, List.getElem?_modify_ne _ _ hne]
  · cases h

theorem slot_modifySlot {batch : RecvBatchRaw bufSize} {idx : Nat}
    {slot : RecvSlot bufSize} (hslot : batch.slot idx = .ok slot)
    (update : RecvSlot bufSize → RecvSlot bufSize) :
    ∃ batch', batch.modifySlot idx update = .ok batch' ∧
      batch'.slot idx = .ok (update slot) := by
  rw [slot_eq_ok_iff] at hslot
  have hidx : idx < batch.slots.length :=
    (List.getElem?_eq_some_iff.mp hslot).1
  refine ⟨_, if_pos hidx, ?_⟩
  rw [slot_eq_ok_iff, List.getElem?_modify_eq, hslot]
  rfl

theorem data_eq {batch : RecvBatchRaw bufSize} {idx : Nat}
    {slot : RecvSlot bufSize} (hslot : batch.slot idx = .ok slot)
    (hfits : slot.recvLen.toNat ≤ bufSize) :
    batch.data idx = .ok slot.payload := by
  simp [data, hslot, hfits, bind, Except.bind]

theorem readBuf_eq {batch : RecvBatchRaw bufSize} {idx stop : Nat}
    {slot : RecvSlot bufSize} (hslot : batch.slot idx = .ok slot)
    (hstop : stop ≤ bufSize) :
    batch.readBuf idx stop = .ok (slot.buf.1.take stop) := by
  simp [readBuf, hslot, hstop, bind, Except.bind]

theorem readBuf_eq_ok {batch : RecvBatchRaw bufSize} {idx stop : Nat}
    {bytes : List UInt8} (h : batch.readBuf idx stop = .ok bytes) :
    ∃ slot, batch.slot idx = .ok slot ∧ stop ≤ bufSize ∧
      bytes = slot.buf.1.take stop := by
  cases hslot : batch.slot idx with
  | error panic =>
      rw [readBuf, hslot] at h
      cases h
  | ok slot =>
      rw [readBuf, hslot] at h
      simp only [bind, Except.bind] at h
      split at h
      · next hstop =>
          cases h
          exact ⟨slot, rfl, hstop, rfl⟩
      · cases h

theorem length_of_readBuf {batch : RecvBatchRaw bufSize} {idx stop : Nat}
    {bytes : List UInt8} (h : batch.readBuf idx stop = .ok bytes) :
    bytes.length = stop := by
  rcases readBuf_eq_ok h with ⟨slot, -, hstop, rfl⟩
  rw [List.length_take, slot.buf.2, Nat.min_eq_left hstop]

/-! ## Reading a whole batch -/

def readPacket (batch : RecvBatchRaw bufSize) (idx : Nat) :
    Except Panic Packet := do
  let data ← batch.data idx
  let addr ← batch.addr idx
  let timestamp ← batch.timestamp idx
  let dstAddr ← batch.dstAddr idx
  return ⟨data, addr, timestamp, dstAddr⟩

def packets (batch : RecvBatchRaw bufSize) : Except Panic (List Packet) :=
  (List.range' 0 batch.len).mapM batch.readPacket

theorem mapM_range_eq {α β : Type} {f : Nat → Except Panic β} {g : α → β}
    (list : List α) (start : Nat)
    (h : ∀ i (hi : i < list.length), f (start + i) = .ok (g list[i])) :
    (List.range' start list.length).mapM f = .ok (list.map g) := by
  induction list generalizing start with
  | nil => rfl
  | cons head tail ih =>
      have hhead := h 0 (Nat.zero_lt_succ _)
      have htail := ih (start + 1) fun i hi => by
        have hnext := h (i + 1) (Nat.succ_lt_succ hi)
        rwa [← Nat.add_assoc, Nat.add_right_comm] at hnext
      rw [Nat.add_zero] at hhead
      rw [List.length_cons, List.range'_succ, List.mapM_cons, hhead, htail]
      rfl

section Filled

variable (filled rest : List (RecvSlot bufSize)) (len : Nat)

theorem slot_filled {i : Nat} (hi : i < filled.length) :
    RecvBatchRaw.slot ⟨filled ++ rest, len⟩ i = .ok filled[i] := by
  simp [RecvBatchRaw.slot, List.getElem?_append_left hi,
    List.getElem?_eq_getElem hi]

theorem read_eq (h : ∀ slot ∈ filled, slot.recvLen.toNat ≤ bufSize) :
    RecvBatchRaw.read ⟨filled ++ rest, len⟩ filled.length =
      .ok (filled.map RecvSlot.entry) := by
  apply mapM_range_eq filled 0
  intro i hi
  have hslot := slot_filled filled rest len hi
  have hdata := data_eq hslot (h _ (List.getElem_mem hi))
  simp [hdata, addr, hslot, RecvSlot.entry, bind, Except.bind, pure,
    Except.pure]

theorem packets_eq (h : ∀ slot ∈ filled, slot.recvLen.toNat ≤ bufSize) :
    RecvBatchRaw.packets ⟨filled ++ rest, filled.length⟩ =
      .ok (filled.map RecvSlot.packet) := by
  apply mapM_range_eq filled 0
  intro i hi
  have hslot := slot_filled filled rest filled.length hi
  have hdata := data_eq hslot (h _ (List.getElem_mem hi))
  simp [readPacket, hdata, addr, timestamp, dstAddr, hslot, RecvSlot.packet,
    bind, Except.bind, pure, Except.pure]

end Filled

end RecvBatchRaw

end Binger
