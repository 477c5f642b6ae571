import Binger.Platform.LinuxRecv

/-!
# Draining the receive queue

A caller that clears its batch and receives again gets the queue in pieces.
`drain` is that loop over an arbitrary series of batches, so a capacity and
leftovers of earlier calls are chosen anew for every call.  What it delivers
depends on the sum of the counts only, which on the `recvmmsg` path are the
capacities modulo 2^32.
-/

namespace Binger.Platform

open Binger.Foundation Binger.Sockaddr

variable {bufSize : Nat}

/-! ## The caller's loop -/

def shown : RecvOutcome bufSize → Except Panic (List Packet)
  | .error panic => .error panic
  | .ok (.error _, _) => .ok []
  | .ok (.ok _, batch) => batch.packets

section Drain

variable (platform : RecvBatchRaw bufSize → Os → RecvOutcome bufSize × Os)

/-- Receives on a series of batches, each cleared before its call: the packets
they show, one call after the other, and the kernel behind them. -/
def drain : List (RecvBatchRaw bufSize) → Os → Except Panic (List Packet) × Os
  | [], os => (.ok [], os)
  | batch :: batches, os =>
      match platform batch.clear os with
      | (.error panic, os) => (.error panic, os)
      | (.ok outcome, os) =>
          let (rest, os) := drain batches os
          (do return (← shown (.ok outcome)) ++ (← rest), os)

/-- On a queue of `good` datagrams and nothing else, a receive takes the first
`count capacity` of them and shows each one as its `view`. -/
def TakesChunk (bufSize : Nat)
    (platform : RecvBatchRaw bufSize → Os → RecvOutcome bufSize × Os)
    (os : Os) (count : Nat → Nat) (good : Datagram → Prop)
    (view : Datagram → Packet) : Prop :=
  ∀ (batch : RecvBatchRaw bufSize) (queue : List Datagram),
    (∀ datagram ∈ queue, good datagram) →
    ∃ outcome,
      platform batch.clear { os with recvScript := queue.map .ok } =
        (.ok outcome, { os with
          recvScript := (queue.drop (count batch.capacity)).map .ok }) ∧
      shown (.ok outcome) =
        .ok ((queue.take (count batch.capacity)).map view)

def asked (count : Nat → Nat) (batches : List (RecvBatchRaw bufSize)) : Nat :=
  (batches.map fun batch => count batch.capacity).sum

variable {platform}

theorem drain_eq {os : Os} {count : Nat → Nat} {good : Datagram → Prop}
    {view : Datagram → Packet}
    (chunk : TakesChunk bufSize platform os count good view)
    (batches : List (RecvBatchRaw bufSize)) {queue : List Datagram}
    (hgood : ∀ datagram ∈ queue, good datagram) :
    drain platform batches { os with recvScript := queue.map .ok } =
      (.ok ((queue.take (asked count batches)).map view),
        { os with
          recvScript := (queue.drop (asked count batches)).map .ok }) := by
  induction batches generalizing queue with
  | nil => simp [drain, asked]
  | cons batch batches ih =>
      obtain ⟨outcome, hcall, hshown⟩ := chunk batch queue hgood
      have hrest := @ih (queue.drop (count batch.capacity))
        fun datagram hmem => hgood datagram (List.mem_of_mem_drop hmem)
      have hasked : asked count (batch :: batches) =
          count batch.capacity + asked count batches := by
        simp [asked]
      rw [drain, hcall]
      simp only [hrest, hshown, hasked, List.drop_drop]
      rw [List.take_add, List.map_append]
      rfl

end Drain

/-! ## Slots of a cleared batch -/

def asPacket (features : Features) (bufSize : Nat) (datagram : Datagram) :
    Packet where
  data := datagram.payload.take bufSize
  addr := datagram.source
  timestamp :=
    if features.timestamping then lastOf readTimestamp datagram.control
    else none
  dstAddr :=
    if features.pktinfo then lastOf readDstAddr datagram.control else none

def barePacket (bufSize : Nat) (datagram : Datagram) : Packet where
  data := datagram.payload.take bufSize
  addr := datagram.source
  timestamp := none
  dstAddr := none

def Recordable (datagram : Datagram) : Prop := datagram.payload.length < 2 ^ 16

theorem recvLen_recordable (bufSize : Nat) {datagram : Datagram}
    (h : Recordable datagram) :
    (UInt16.ofNat (min bufSize datagram.payload.length)).toNat =
      (datagram.payload.take bufSize).length := by
  rw [UInt16.toNat_ofNat', List.length_take]
  unfold Recordable at h
  omega

def Shows (bufSize : Nat)
    (fill : Datagram → RecvSlot bufSize → RecvSlot bufSize)
    (datagram : Datagram) (packet : Packet) : Prop :=
  ∀ slot : RecvSlot bufSize,
    (fill datagram slot.clear).packet = packet ∧
      (fill datagram slot.clear).recvLen.toNat ≤ bufSize

theorem plainSlot_shows (features : Features) {datagram : Datagram}
    (h : Recordable datagram) :
    Shows bufSize (plainSlot features) datagram
      (asPacket features bufSize datagram) := by
  intro slot
  have hlen := recvLen_recordable bufSize h
  simp only [plainSlot, messageSlot, annotate, asReceived, RecvSlot.packet,
    RecvSlot.payload, RecvSlot.writeBuf, RecvSlot.clear, hlen,
    take_writePrefix, asPacket]
  simp

theorem datagramSlot_shows {datagram : Datagram} (h : Recordable datagram) :
    Shows bufSize datagramSlot datagram (barePacket bufSize datagram) := by
  intro slot
  have hlen := recvLen_recordable bufSize h
  simp only [datagramSlot, RecvSlot.packet, RecvSlot.payload,
    RecvSlot.writeBuf, RecvSlot.clear, hlen, take_writePrefix, barePacket]
  simp

theorem zipWith_shows
    {fill : Datagram → RecvSlot bufSize → RecvSlot bufSize}
    {view : Datagram → Packet} {datagrams : List Datagram}
    (hshows : ∀ datagram ∈ datagrams,
      Shows bufSize fill datagram (view datagram))
    {slots : List (RecvSlot bufSize)}
    (hlen : datagrams.length ≤ slots.length) :
    (List.zipWith fill datagrams (slots.map RecvSlot.clear)).map
        RecvSlot.packet = datagrams.map view ∧
      ∀ slot ∈ List.zipWith fill datagrams (slots.map RecvSlot.clear),
        slot.recvLen.toNat ≤ bufSize := by
  induction datagrams generalizing slots with
  | nil => simp
  | cons datagram datagrams ih =>
      cases slots with
      | nil => simp at hlen
      | cons slot slots =>
          obtain ⟨hpacket, hfits⟩ := hshows datagram List.mem_cons_self slot
          obtain ⟨htail, hrest⟩ := ih
            (fun datagram hmem =>
              hshows datagram (List.mem_cons_of_mem _ hmem))
            (Nat.le_of_succ_le_succ hlen)
          simp only [List.map_cons, List.zipWith_cons_cons, hpacket, htail,
            true_and, List.mem_cons, forall_eq_or_imp]
          exact ⟨hfits, hrest⟩

theorem packets_fillSlots
    {fill : Datagram → RecvSlot bufSize → RecvSlot bufSize}
    {view : Datagram → Packet} {datagrams : List Datagram}
    (hshows : ∀ datagram ∈ datagrams,
      Shows bufSize fill datagram (view datagram))
    {batch : RecvBatchRaw bufSize}
    (hlen : datagrams.length ≤ batch.capacity) :
    RecvBatchRaw.packets ⟨fillSlots fill datagrams batch.clear.slots,
        datagrams.length⟩ =
      .ok (datagrams.map view) := by
  obtain ⟨slots, len⟩ := batch
  simp only [RecvBatchRaw.clear, RecvBatchRaw.capacity] at hlen ⊢
  obtain ⟨hviews, hfits⟩ := zipWith_shows hshows hlen
  have hlength : (List.zipWith fill datagrams
      (slots.map RecvSlot.clear)).length = datagrams.length := by
    simpa using hlen
  have hpackets := RecvBatchRaw.packets_eq _
    ((slots.map RecvSlot.clear).drop datagrams.length) hfits
  rwa [hlength, hviews] at hpackets

/-! ## The backends -/

theorem perPacketRecvResult_map_ok (n : Nat) (queue : List Datagram) :
    perPacketRecvResult 0 n (queue.map .ok) = .ok (queue.take n).length := by
  rw [perPacketRecvResult, granted_map_ok, refusal_map_ok, Nat.zero_add]
  split_ifs <;> rfl

@[simp] theorem clear_capacity (batch : RecvBatchRaw bufSize) :
    batch.clear.capacity = batch.capacity := by
  simp [RecvBatchRaw.clear, RecvBatchRaw.capacity]

theorem perPacketRecv_takesChunk (host : Host) (os : Os) :
    TakesChunk bufSize
      (fun batch os =>
        perPacketRecv host batch.capacity 0 0 batch os)
      os id Recordable (barePacket bufSize) := by
  intro batch queue hgood
  have hlen : (queue.take batch.capacity).length ≤ batch.capacity :=
    List.length_take_le _ _
  have hcount : (if queue.take batch.capacity = [] then batch.clear.len
      else (queue.take batch.capacity).length) =
      (queue.take batch.capacity).length := by
    split
    · next hnil => simp [hnil, RecvBatchRaw.clear]
    · rfl
  refine ⟨(.ok (queue.take batch.capacity).length,
    ⟨fillSlots datagramSlot (queue.take batch.capacity) batch.clear.slots,
      (queue.take batch.capacity).length⟩), ?_, ?_⟩
  · beta_reduce
    rw [perPacketRecv_batch]
    simp only [clear_capacity, granted_map_ok, perPacketRecvResult_map_ok,
      remaining_map_ok, stored_eq_fillSlots, hcount, id]
  · exact packets_fillSlots (fun datagram hmem => datagramSlot_shows
      (hgood datagram (List.mem_of_mem_take hmem))) hlen

def Plain (datagram : Datagram) : Prop :=
  Recordable datagram ∧ ∀ size, .udpGro size ∉ datagram.control

theorem groSize_of_not_mem (features : Features) {control : List Cmsg}
    (h : ∀ size, .udpGro size ∉ control) : groSize features control = 0 := by
  have hnone : control.filterMap readGro = [] := by
    rw [List.filterMap_eq_nil_iff]
    intro cmsg hmem
    cases cmsg with
    | udpGro size => exact absurd hmem (h size)
    | scmTimestampns | ipPktinfo | ipv6Pktinfo | other => rfl
  simp [groSize, lastOf, hnone]

namespace Linux

theorem recvManyResult_map_ok (n : Nat) (queue : List Datagram) :
    recvManyResult n (queue.map .ok) =
      if n ≠ 0 ∧ queue = [] then .error .wouldBlock
      else .ok (queue.take n) := by
  rw [recvManyResult, granted_map_ok, refusal_map_ok]
  cases n <;> cases queue <;> simp

theorem skipInterrupted_map_ok {α : Type} (n : Nat) (values : List α) :
    skipInterrupted n (values.map .ok) = values.map .ok := by
  cases values with
  | nil => simp [skipInterrupted]
  | cons value values => exact skipInterrupted_of_not n rfl _

theorem tryRecvBatch_takesChunk (features : Features) (host : Host) {os : Os}
    (h : os.hasRecvmmsg = true) :
    TakesChunk bufSize (tryRecvBatch features host) os vlen Plain
      (asPacket features bufSize) := by
  intro batch queue hgood
  have hlen : (queue.take (vlen batch.capacity)).length ≤ batch.capacity :=
    (List.length_take_le _ _).trans (vlen_le _)
  have hplain : ∀ datagram ∈ queue.take (vlen batch.capacity),
      Plain datagram :=
    fun datagram hmem => hgood datagram (List.mem_of_mem_take hmem)
  rcases Nat.eq_zero_or_pos batch.capacity with hzero | hcap
  · refine ⟨(.ok 0, batch.clear), ?_, ?_⟩
    · simp [tryRecvBatch, hzero, vlen]
    · simp [hzero, vlen, shown, RecvBatchRaw.packets, RecvBatchRaw.clear]
      rfl
  · have hcall := @tryRecvBatch_of_recvmmsg bufSize features host batch.clear
      (by rwa [clear_capacity]) { os with recvScript := queue.map .ok } h
    simp only [recvAnswers, clear_capacity, skipInterrupted_map_ok,
      recvManyResult_map_ok, remaining_map_ok] at hcall
    split_ifs at hcall with hidle
    · exact ⟨_, hcall, by simp [shown, hidle.2]⟩
    · simp only at hcall
      rw [delivered_plain features
        (fun datagram hmem =>
          groSize_of_not_mem features (hplain datagram hmem).2)
        (by rwa [clear_capacity])] at hcall
      exact ⟨_, hcall, packets_fillSlots (fun datagram hmem =>
        plainSlot_shows features (hplain datagram hmem).1) hlen⟩

end Linux

/-! ## Every schedule -/

theorem TakesChunk.congr
    {platform platform' :
      RecvBatchRaw bufSize → Os → RecvOutcome bufSize × Os}
    {os : Os} {count : Nat → Nat} {good : Datagram → Prop}
    {view : Datagram → Packet}
    (chunk : TakesChunk bufSize platform os count good view)
    (h : ∀ batch script, platform' batch { os with recvScript := script } =
      platform batch { os with recvScript := script }) :
    TakesChunk bufSize platform' os count good view := by
  intro batch queue hgood
  rw [h]
  exact chunk batch queue hgood

theorem Linux.tryRecvBatch_takesChunk_of_enosys (features : Features)
    (host : Host) {os : Os} (h : os.hasRecvmmsg = false) :
    TakesChunk bufSize (Linux.tryRecvBatch features host) os id Recordable
      (barePacket bufSize) := by
  apply (perPacketRecv_takesChunk host os).congr
  intro batch script
  rcases Nat.eq_zero_or_pos batch.capacity with hzero | hcap
  · simp [Linux.tryRecvBatch, hzero, perPacketRecv]
  · exact Linux.tryRecvBatch_of_enosys features host hcap h

theorem Macos.tryRecvBatch_takesChunk_of_missing (host : Host) {os : Os}
    (h : os.hasRecvmsgX = false) :
    TakesChunk bufSize (Macos.tryRecvBatch host) os id Recordable
      (barePacket bufSize) := by
  apply (perPacketRecv_takesChunk host os).congr
  intro batch script
  rcases Nat.eq_zero_or_pos batch.capacity with hzero | hcap
  · simp [Macos.tryRecvBatch, hzero, perPacketRecv]
  · have hne : batch.capacity ≠ 0 := by omega
    simp [Macos.tryRecvBatch, hne, h]

def drained (view : Datagram → Packet) (queue : List Datagram) (n : Nat)
    (os : Os) : Except Panic (List Packet) × Os :=
  (.ok ((queue.take n).map view),
    { os with recvScript := (queue.drop n).map .ok })

theorem drained_eq_iff (view : Datagram → Packet) (queue : List Datagram)
    {m n : Nat} (h : m ≤ n) (os : Os) :
    drained view queue m os = drained view queue n os ↔
      min queue.length n ≤ m := by
  constructor
  · intro hsame
    have hpackets : (queue.take m).map view = (queue.take n).map view := by
      simpa [drained] using congrArg Prod.fst hsame
    have hlength := congrArg List.length hpackets
    simp only [List.length_map, List.length_take] at hlength
    omega
  · intro hle
    rcases Nat.lt_or_ge m queue.length with hpart | hall
    · obtain rfl : m = n := by omega
      rfl
    · simp [drained, List.take_of_length_le hall, List.drop_eq_nil_of_le hall,
        List.take_of_length_le (hall.trans h),
        List.drop_eq_nil_of_le (hall.trans h)]

theorem asked_vlen_le (batches : List (RecvBatchRaw bufSize)) :
    asked vlen batches ≤ asked id batches := by
  induction batches with
  | nil => simp [asked]
  | cons batch batches ih =>
      have hbatch := vlen_le batch.capacity
      simp only [asked, List.map_cons, List.sum_cons, id] at ih ⊢
      omega

/-- Receives on any series of batches deliver as many datagrams of the queue as
there are slots, in order, with the metadata of their own control messages; on
the `recvmmsg` path exactly when the capacities modulo 2^32 cover them. -/
theorem drain_queue_iff (features : Features) (host : Host)
    (batches : List (RecvBatchRaw bufSize)) {queue : List Datagram}
    (hplain : ∀ datagram ∈ queue, ∀ size, .udpGro size ∉ datagram.control)
    (hsmall : ∀ datagram ∈ queue, datagram.payload.length ≤ 65535) (os : Os) :
    (os.hasRecvmmsg = true →
      (drain (Linux.tryRecvBatch features host) batches
          { os with recvScript := queue.map .ok } =
        drained (asPacket features bufSize) queue (asked id batches) os ↔
      min queue.length (asked id batches) ≤ asked vlen batches)) ∧
    (os.hasRecvmmsg = false →
      drain (Linux.tryRecvBatch features host) batches
          { os with recvScript := queue.map .ok } =
        drained (barePacket bufSize) queue (asked id batches) os) ∧
    (os.hasRecvmsgX = false →
      drain (Macos.tryRecvBatch host) batches
          { os with recvScript := queue.map .ok } =
        drained (barePacket bufSize) queue (asked id batches) os) ∧
    drain (Fallback.tryRecvBatch host) batches
        { os with recvScript := queue.map .ok } =
      drained (barePacket bufSize) queue (asked id batches) os := by
  have hrecordable : ∀ datagram ∈ queue, Recordable datagram :=
    fun datagram hmem => Nat.lt_succ_of_le (hsmall datagram hmem)
  refine ⟨fun h => ?_, fun h => ?_, fun h => ?_, ?_⟩
  · rw [drain_eq (Linux.tryRecvBatch_takesChunk features host h) batches
      fun datagram hmem => ⟨hrecordable datagram hmem, hplain datagram hmem⟩]
    exact drained_eq_iff _ queue (asked_vlen_le batches) os
  · exact drain_eq (Linux.tryRecvBatch_takesChunk_of_enosys features host h)
      batches hrecordable
  · exact drain_eq (Macos.tryRecvBatch_takesChunk_of_missing host h) batches
      hrecordable
  · exact drain_eq (perPacketRecv_takesChunk host os) batches hrecordable

def stampedQueue : List Datagram :=
  [⟨[1, 2, 3], .unspecified, [.scmTimestampns ⟨5, 6⟩]⟩,
    ⟨[4], .unspecified, []⟩]

theorem stampedQueue_drained :
    drain (Linux.tryRecvBatch ⟨true, true, true⟩ ⟨.linux, .little⟩)
        [.withCapacity 1 2, .withCapacity 65 2]
        { Linux.plainOs with recvScript := stampedQueue.map .ok } =
      drained (asPacket ⟨true, true, true⟩ 2) stampedQueue 66
        Linux.plainOs :=
  ((drain_queue_iff ⟨true, true, true⟩ ⟨.linux, .little⟩
    [.withCapacity 1 2, .withCapacity 65 2] (by simp [stampedQueue])
    (by simp [stampedQueue]) Linux.plainOs).1 rfl).mpr (by decide)

/-- A batch of 2^32 slots asks `recvmmsg` for no message at all. -/
theorem drain_stalls :
    drain (Linux.tryRecvBatch ⟨true, true, true⟩ ⟨.linux, .little⟩)
        [.withCapacity (2 ^ 32) 2]
        { Linux.plainOs with recvScript := stampedQueue.map .ok } ≠
      drained (asPacket ⟨true, true, true⟩ 2) stampedQueue (2 ^ 32)
        Linux.plainOs := by
  have hplain : ∀ datagram ∈ stampedQueue, Plain datagram := by
    simp [stampedQueue, Plain, Recordable]
  have hcall := drain_eq (Linux.tryRecvBatch_takesChunk ⟨true, true, true⟩
    ⟨.linux, .little⟩ (show Linux.plainOs.hasRecvmmsg = true from rfl))
    [.withCapacity (2 ^ 32) 2] hplain
  have hasked : asked vlen
      [RecvBatchRaw.withCapacity (2 ^ 32) 2] = 0 := by
    simp only [asked, List.map_cons, RecvBatchRaw.capacity_withCapacity,
      vlen, Nat.mod_self, List.map_nil, List.sum_cons, List.sum_nil,
      Nat.add_zero]
  rw [hasked] at hcall
  rw [hcall]
  intro hsame
  have hle := (drained_eq_iff _ stampedQueue (Nat.zero_le _) _).mp hsame
  exact absurd hle (by decide)

end Binger.Platform
