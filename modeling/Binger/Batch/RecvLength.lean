import Binger.Foundation.Runs
import Binger.Batch.Recv

/-!
# The recorded length of a slot

The contract of `set_recv_len` allows every length up to the buffer size, and
`data` cuts the buffer at the recorded length.  The field has 16 bits, so what
`data` cuts at is the length modulo `2 ^ 16`.  Nothing that is done to the
other slots touches either the buffer or the field.
-/

namespace Binger

open Binger.Foundation

variable {bufSize : Nat}

namespace RecvBatchRaw

/-- The methods of a batch that write to at most one slot.  A caller of
`buffer_mut` can store any bytes and any address. -/
inductive SlotOp (bufSize : Nat) where
  | setLen (len : Nat)
  | bufferMut (idx : Nat) (buf : Buf bufSize) (addr : SocketAddr)
  | setRecvLen (idx n : Nat)
  | setTimestamp (idx : Nat) (ts : Option Timestamp)
  | setDstAddr (idx : Nat) (addr : Option SocketAddr)

def SlotOp.target : SlotOp bufSize → Option Nat
  | .setLen _ => none
  | .bufferMut idx _ _ => some idx
  | .setRecvLen idx _ => some idx
  | .setTimestamp idx _ => some idx
  | .setDstAddr idx _ => some idx

/-- An index out of range panics and ends the run. -/
def performSlot (batch : RecvBatchRaw bufSize) :
    SlotOp bufSize → Option (RecvBatchRaw bufSize)
  | .setLen len => some (batch.setLen len)
  | .bufferMut idx buf addr =>
      (batch.modifySlot idx fun slot =>
        { slot with buf := buf, addr := addr }).toOption
  | .setRecvLen idx n => (batch.setRecvLen idx n).toOption
  | .setTimestamp idx ts => (batch.setTimestamp idx ts).toOption
  | .setDstAddr idx addr => (batch.setDstAddr idx addr).toOption

theorem slot_performSlot {batch batch' : RecvBatchRaw bufSize} {idx : Nat}
    {op : SlotOp bufSize} (hother : op.target ≠ some idx)
    (h : batch.performSlot op = some batch') :
    batch'.slot idx = batch.slot idx := by
  have hne : ∀ other, op.target = some other → other ≠ idx := by
    rintro other htarget rfl
    exact hother htarget
  cases op with
  | setLen len =>
      cases h
      rfl
  | bufferMut other buf addr =>
      exact slot_modifySlot_ne (toOption_eq_some h) (hne other rfl)
  | setRecvLen other n =>
      exact slot_modifySlot_ne (toOption_eq_some h) (hne other rfl)
  | setTimestamp other ts =>
      exact slot_modifySlot_ne (toOption_eq_some h) (hne other rfl)
  | setDstAddr other addr =>
      exact slot_modifySlot_ne (toOption_eq_some h) (hne other rfl)

theorem slot_run {batch reached : RecvBatchRaw bufSize} {idx : Nat}
    {ops : List (SlotOp bufSize)}
    (hothers : ∀ op ∈ ops, op.target ≠ some idx)
    (hrun : run performSlot batch ops = some reached) :
    reached.slot idx = batch.slot idx := by
  refine @run_invariant _ _ performSlot
    (fun _ state => state.slot idx = batch.slot idx)
    (fun op => op.target ≠ some idx) ?_ ops hothers [] batch reached rfl hrun
  intro past state op next hinv hother hstep
  rw [slot_performSlot hother hstep, hinv]

theorem data_of_recorded {reached : RecvBatchRaw bufSize} {idx n : Nat}
    {slot : RecvSlot bufSize} (hn : n ≤ bufSize)
    (hslot : reached.slot idx =
      .ok { slot with recvLen := UInt16.ofNat n }) :
    reached.data idx = .ok (slot.buf.1.take (n % 2 ^ 16)) := by
  have hkept : (UInt16.ofNat n).toNat = n % 2 ^ 16 := UInt16.toNat_ofNat'
  rw [data_eq hslot (recordedLen_le hn), RecvSlot.payload, hkept]

/-- A length within the contract is kept exactly when it fits 16 bits, whatever
happens to the other slots. -/
theorem recvLen_kept_iff {batch : RecvBatchRaw bufSize} {idx n : Nat}
    {slot : RecvSlot bufSize} (hslot : batch.slot idx = .ok slot)
    (hn : n ≤ bufSize) :
    ∃ recorded, batch.setRecvLen idx n = .ok recorded ∧
      ∀ ops reached, (∀ op ∈ ops, op.target ≠ some idx) →
        run performSlot recorded ops = some reached →
        (reached.data idx = .ok (slot.buf.1.take n) ↔ n < 2 ^ 16) := by
  rcases slot_modifySlot hslot
    (fun slot => { slot with recvLen := UInt16.ofNat n }) with
    ⟨recorded, hset, hrecorded⟩
  refine ⟨recorded, hset, ?_⟩
  intro ops reached hothers hrun
  have hreached := (slot_run hothers hrun).trans hrecorded
  -- both are prefixes of the buffer, so they are equal when their lengths are
  rw [data_of_recorded hn hreached, Except.ok.injEq, List.take_eq_take_iff,
    slot.buf.2]
  omega

theorem short_length_kept :
    ∃ recorded, (withCapacity 2 8).setRecvLen 0 5 = .ok recorded ∧
      ∀ ops reached, (∀ op ∈ ops, op.target ≠ some 0) →
        run performSlot recorded ops = some reached →
        (reached.data 0 = .ok (List.replicate 5 0)) := by
  rcases @recvLen_kept_iff 8 (withCapacity 2 8) 0 5 (.zeroed 8) rfl
    (by decide) with ⟨recorded, hset, hkept⟩
  refine ⟨recorded, hset, ?_⟩
  intro ops reached hothers hrun
  exact (hkept ops reached hothers hrun).mpr (by decide)

/-- A full buffer of 65536 bytes is shown as an empty packet. -/
theorem recorded_length_wraps :
    ∃ recorded bytes,
      (withCapacity 1 65536).setRecvLen 0 65536 = .ok recorded ∧
      recorded.readBuf 0 65536 = .ok bytes ∧ bytes.length = 65536 ∧
      recorded.data 0 = .ok [] ∧
      recorded.data 0 ≠ recorded.readBuf 0 65536 := by
  have hslot : (withCapacity 1 65536).slot 0 = .ok (.zeroed 65536) := rfl
  rcases slot_modifySlot hslot
    (fun slot => { slot with recvLen := UInt16.ofNat 65536 }) with
    ⟨recorded, hset, hrecorded⟩
  have hread := readBuf_eq hrecorded (Nat.le_refl 65536)
  have hdata : recorded.data 0 = .ok [] :=
    data_of_recorded (Nat.le_refl 65536) hrecorded
  have hlength : ((RecvSlot.zeroed 65536).buf.1.take 65536).length =
      65536 := by
    rw [List.length_take, (RecvSlot.zeroed 65536).buf.2, Nat.min_self]
  refine ⟨recorded, _, hset, hread, hlength, hdata, ?_⟩
  rw [hread, hdata]
  intro hsame
  rw [← Except.ok.inj hsame] at hlength
  cases hlength

end RecvBatchRaw

end Binger
