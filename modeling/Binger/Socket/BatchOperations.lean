import Binger.Foundation.Runs
import Binger.Platform.RecvRepresentation
import Binger.Socket.RecvResult

/-!
# Histories of a receive batch

What a caller can do to a receive batch: the safe methods, `set_recv_len`
within its contract, and receives on any socket.  `RecvBatch<N>` has the same
operations on a raw batch of `N` slots.  All of them keep the batch valid except
`set_len`, which stores any number.

A receive that panics ends the history.
-/

namespace Binger.Socket

open Binger.Foundation Binger.Platform Binger.Sockaddr

variable {bufSize : Nat}

structure Receiver where
  backend : Backend
  features : Features
  host : Host
  os : Os

inductive RecvBatchOp (bufSize : Nat) where
  | clear
  | setLen (len : Nat)
  | bufferMut (idx : Nat) (buf : Buf bufSize) (addr : SocketAddr)
  | setRecvLen (idx n : Nat)
  | tryRecvBatch (receiver : Receiver)
  | recvBatch (receiver : Receiver) (socket : BingerUdp) (waits : List Wait)

/-- The callers of `set_recv_len` have to respect its contract. -/
def performRecv (batch : RecvBatchRaw bufSize) :
    RecvBatchOp bufSize → Option (RecvBatchRaw bufSize)
  | .clear => some batch.clear
  | .setLen len => some (batch.setLen len)
  | .bufferMut idx buf addr =>
      (batch.modifySlot idx fun slot =>
        { slot with buf := buf, addr := addr }).toOption
  | .setRecvLen idx n => do
      guard (idx < batch.capacity ∧ n ≤ bufSize)
      (batch.setRecvLen idx n).toOption
  | .tryRecvBatch ⟨backend, features, host, os⟩ =>
      (Platform.tryRecvBatch backend features host batch os).1.toOption.map
        fun (_, batch) => batch
  | .recvBatch ⟨backend, features, host, os⟩ socket waits =>
      (BingerUdp.recvBatch (Platform.tryRecvBatch backend features host) waits
        socket batch os).1.toOption.map fun (_, _, batch) => batch

theorem BingerUdp.recvBatch_keeps {backend : Backend} {features : Features}
    {host : Host} {waits : List Wait} {socket socket' : BingerUdp}
    {batch batch' : RecvBatchRaw bufSize} {os os' : Os}
    {poll : Poll (IoResult Nat)}
    (h : recvBatch (Platform.tryRecvBatch backend features host) waits socket
      batch os = (.ok (poll, socket', batch'), os')) :
    batch.Keeps batch' := by
  refine recvBatch_rule (motive := fun _ _ batch _ => batch.Keeps batch')
    ?_ ?_ ?_ h
  · intro waits socket batch os tried os₁ hcall _ _
    exact tryRecvBatch_keeps (congrArg Prod.fst hcall)
  · intro waits socket batch os tried os₁ hcall _ _
    exact tryRecvBatch_keeps (congrArg Prod.fst hcall)
  · intro wait waits socket batch os tried socket₁ batch₁ os₁ hcall _ hrest
    exact (tryRecvBatch_keeps (congrArg Prod.fst hcall)).trans hrest

theorem performRecv_keeps {batch batch' : RecvBatchRaw bufSize}
    {op : RecvBatchOp bufSize}
    (hlen : ∀ len, op = .setLen len → len ≤ batch.capacity)
    (h : performRecv batch op = some batch') : batch.Keeps batch' := by
  cases op with
  | clear =>
      cases h
      exact RecvBatchRaw.keeps_clear batch
  | setLen len =>
      cases h
      exact RecvBatchRaw.keeps_setLen (hlen len rfl)
  | bufferMut idx buf addr =>
      refine RecvBatchRaw.keeps_modifySlot ?_ (toOption_eq_some h)
      intro slot hfits
      exact hfits
  | setRecvLen idx n =>
      simp only [performRecv, bind, Option.bind_eq_some_iff] at h
      rcases h with ⟨_, hguard, hset⟩
      rw [Option.guard_eq_some'] at hguard
      exact RecvBatchRaw.keeps_setRecvLen hguard.2 (toOption_eq_some hset)
  | tryRecvBatch receiver =>
      rcases Option.map_eq_some_iff.mp h with ⟨⟨result, next⟩, hcall, rfl⟩
      exact tryRecvBatch_keeps (toOption_eq_some hcall)
  | recvBatch receiver socket waits =>
      rcases Option.map_eq_some_iff.mp h with
        ⟨⟨poll, socket', next⟩, hcall, rfl⟩
      exact BingerUdp.recvBatch_keeps
        (Prod.ext (toOption_eq_some hcall) rfl)

structure Sound (capacity : Nat) (batch : RecvBatchRaw bufSize) : Prop where
  capacity_eq : batch.capacity = capacity
  len_le : batch.len ≤ capacity
  recvLen_le : ∀ slot ∈ batch.slots, slot.recvLen.toNat ≤ bufSize
  iter_ok : ∃ items, batch.iter = .ok items ∧ items.length = batch.len

theorem sound_iff {capacity : Nat} {batch : RecvBatchRaw bufSize} :
    Sound capacity batch ↔ batch.capacity = capacity ∧ batch.Valid := by
  constructor
  · intro sound
    exact ⟨sound.capacity_eq, sound.capacity_eq ▸ sound.len_le,
      sound.recvLen_le⟩
  · rintro ⟨rfl, valid⟩
    exact ⟨rfl, valid.len_le, valid.fits, valid.iter_eq⟩

theorem sound_performRecv_iff {capacity : Nat}
    {batch batch' : RecvBatchRaw bufSize} {op : RecvBatchOp bufSize}
    (sound : Sound capacity batch) (h : performRecv batch op = some batch') :
    Sound capacity batch' ↔ ∀ len, op = .setLen len → len ≤ capacity := by
  constructor
  · rintro sound' len rfl
    cases h
    exact sound'.len_le
  · intro hlen
    rw [← sound.capacity_eq] at hlen
    have hkeeps := performRecv_keeps hlen h
    rw [sound_iff] at sound ⊢
    exact ⟨hkeeps.capacity_eq.trans sound.1, hkeeps.valid sound.2⟩

/-- The runs that keep `iter` safe throughout are those in which no `set_len`
goes beyond the capacity. -/
theorem iter_safe_iff (capacity bufSize : Nat)
    (ops : List (RecvBatchOp bufSize)) :
    EveryStep performRecv (fun _ op _ =>
        ∀ len, op = .setLen len → len ≤ capacity)
        (.withCapacity capacity bufSize) ops ↔
      ∀ before after reached, ops = before ++ after →
        run performRecv (.withCapacity capacity bufSize) before =
          some reached → Sound capacity reached := by
  apply everyStep_iff_reached
  · intro batch op batch' sound h
    exact sound_performRecv_iff sound h
  · rw [sound_iff]
    exact ⟨RecvBatchRaw.capacity_withCapacity capacity bufSize,
      RecvBatchRaw.valid_withCapacity capacity bufSize⟩

/-- Three packets in a batch of two slots. -/
theorem setLen_beyond_capacity :
    ∃ batch, run performRecv (.withCapacity 2 4) [.setLen 3] = some batch ∧
      batch.iter = .error (.index 2 2) ∧ ¬ Sound 2 batch := by
  refine ⟨_, rfl, rfl, ?_⟩
  intro sound
  exact absurd sound.len_le (by decide)

end Binger.Socket
