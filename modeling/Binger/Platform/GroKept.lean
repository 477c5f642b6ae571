import Mathlib.Algebra.Order.BigOperators.Group.List
import Mathlib.Data.Finset.Sort
import Binger.Platform.Gro

/-!
# Packets that a receive keeps

A receive keeps the packets of its messages where every message is read in
place.  A message that is read at another slot may find equal bytes there, so
the other direction is about buffers in which no packet can be mistaken for
another one.  There the slots at which messages with bytes are read are the
slots of such messages, and both are in increasing order.
-/

namespace Binger.Platform

open Binger.Foundation Binger.Sockaddr

variable {bufSize : Nat}

/-! ## Packets that only their own slot holds -/

/-- No packet with bytes in it occurs in the buffer of a slot other than that
of its message. -/
def Apart (features : Features) (bufSize : Nat) (datagrams : List Datagram)
    (bufs : List (List UInt8)) : Prop :=
  ∀ i (hi : i < datagrams.length) s (hs : s < bufs.length),
    (∃ packet ∈ packetsOf features bufSize datagrams[i],
      packet.1 ≠ [] ∧ packet.1 <:+: bufs[s]) → s = i

theorem eq_self_of_strictMonoOn {α : Type} [LinearOrder α] {s : Finset α}
    {f : α → α} (hmono : StrictMonoOn f s) (hsub : s ⊆ s.image f) {i : α}
    (hi : i ∈ s) : f i = i := by
  have himage : s = s.image f :=
    Finset.eq_of_subset_of_card_le hsub Finset.card_image_le
  have hmem : ∀ x : Fin s.card, f (s.orderEmbOfFin rfl x) ∈ s := by
    intro x
    have hx := Finset.mem_image_of_mem f (s.orderEmbOfFin_mem rfl x)
    rwa [← himage] at hx
  have hself := Finset.orderEmbOfFin_unique rfl hmem fun x y hxy =>
    hmono (s.orderEmbOfFin_mem rfl x) (s.orderEmbOfFin_mem rfl y)
      ((s.orderEmbOfFin rfl).strictMono hxy)
  have hrange : i ∈ Set.range (s.orderEmbOfFin rfl) := by
    rw [Finset.range_orderEmbOfFin]
    exact hi
  obtain ⟨x, rfl⟩ := hrange
  exact congrFun hself x

theorem cut_flatten (size : Nat) (bytes : List UInt8) :
    (cut size bytes).flatten = bytes := by
  unfold cut
  split
  · simp
  · next hsize => exact flatten_segments (Nat.pos_of_ne_zero hsize) bytes

theorem exists_packet (features : Features) {datagram : Datagram}
    (h : returned bufSize datagram ≠ []) :
    ∃ packet ∈ packetsOf features bufSize datagram, packet.1 ≠ [] := by
  rw [← cut_flatten (groSize features datagram.control)
    (returned bufSize datagram), ne_eq, List.flatten_eq_nil_iff] at h
  push Not at h
  obtain ⟨segment, hmem, hne⟩ := h
  exact ⟨(segment, datagram.source), List.mem_map_of_mem hmem, hne⟩

theorem slotsOf_pos (features : Features) {datagram : Datagram}
    (h : returned bufSize datagram ≠ []) :
    0 < slotsOf features bufSize datagram := by
  obtain ⟨packet, hmem, -⟩ := exists_packet features h
  rw [← packetsOf_length]
  exact List.length_pos_of_mem hmem

theorem isInfix_of_mem_pieces {features : Features} {message : Received}
    {buf piece : List UInt8} (h : piece ∈ pieces features message buf) :
    piece <:+: buf.take message.msgLen := by
  unfold pieces at h
  split at h
  · rw [List.mem_singleton] at h
    rw [h]
    exact (List.take_prefix_take_left (Nat.mod_le _ _)).isInfix
  · obtain ⟨j, -, rfl⟩ := List.mem_map.mp h
    exact (List.take_prefix _ _).isInfix.trans (List.drop_suffix _ _).isInfix

theorem mem_foundPieces {features : Features} {datagrams : List Datagram}
    {bufs : List (List UInt8)} {entry : List UInt8 × SocketAddr}
    (h : entry ∈ foundPieces features bufSize datagrams bufs) :
    ∃ j, ∃ hj : j < datagrams.length,
      ∃ hs : outIndex features bufSize datagrams j < bufs.length,
        entry.1 ∈ pieces features (asReceived bufSize datagrams[j])
          bufs[outIndex features bufSize datagrams j] := by
  obtain ⟨⟨datagram, j⟩, hmem, hentry⟩ := List.mem_flatMap.mp h
  obtain ⟨hj, hget⟩ :=
    List.getElem?_eq_some_iff.mp (List.mem_zipIdx_iff_getElem?.mp hmem)
  simp only at hj hget hentry
  subst hget
  split at hentry
  · next buf hbuf =>
      obtain ⟨hs, rfl⟩ := List.getElem?_eq_some_iff.mp hbuf
      obtain ⟨piece, hpiece, rfl⟩ := List.mem_map.mp hentry
      exact ⟨j, hj, hs, hpiece⟩
  · cases hentry

theorem outIndex_add_slotsOf_le (features : Features)
    (datagrams : List Datagram) {i j : Nat} (hij : i < j)
    (hi : i < datagrams.length) :
    outIndex features bufSize datagrams i +
        slotsOf features bufSize datagrams[i] ≤
      outIndex features bufSize datagrams j := by
  have hsub : (datagrams.take (i + 1)).Sublist (datagrams.take j) :=
    (List.take_prefix_take_left hij).sublist
  have hsum := (hsub.map (slotsOf features bufSize)).sum_le_sum
    fun _ _ => Nat.zero_le _
  rw [← List.take_append_getElem hi, List.map_append, List.sum_append] at hsum
  simpa [outIndex, totalSlots] using hsum

section Apart

variable {features : Features} {datagrams : List Datagram}
  {bufs : List (List UInt8)}

theorem Apart.found (apart : Apart features bufSize datagrams bufs) {i : Nat}
    (hi : i < datagrams.length) {packet : List UInt8 × SocketAddr}
    (hpacket : packet ∈ packetsOf features bufSize datagrams[i])
    (hne : packet.1 ≠ [])
    (hfound : packet ∈ foundPieces features bufSize datagrams bufs) :
    ∃ j, ∃ hj : j < datagrams.length,
      returned bufSize datagrams[j] ≠ [] ∧
      outIndex features bufSize datagrams j = i ∧
      ∃ hs : i < bufs.length,
        packet.1 ∈ pieces features (asReceived bufSize datagrams[j])
          bufs[i] := by
  obtain ⟨j, hj, hs, hpiece⟩ := mem_foundPieces hfound
  have hinfix := isInfix_of_mem_pieces hpiece
  have hslot := apart i hi _ hs ⟨packet, hpacket, hne,
    hinfix.trans (List.take_prefix _ _).isInfix⟩
  refine ⟨j, hj, ?_, hslot, hslot ▸ hs, by simpa only [hslot] using hpiece⟩
  intro hnil
  apply hne
  rw [← List.length_eq_zero_iff, returned_length] at hnil
  rw [hnil, List.take_zero] at hinfix
  exact List.infix_nil.mp hinfix

theorem Apart.outIndex_eq (apart : Apart features bufSize datagrams bufs)
    (hfound : packetsOfAll features bufSize datagrams ⊆
      foundPieces features bufSize datagrams bufs)
    {i : Nat} (hi : i < datagrams.length)
    (hne : returned bufSize datagrams[i] ≠ []) :
    outIndex features bufSize datagrams i = i := by
  have hmem : ∀ j, j ∈ (Finset.range datagrams.length).filter (fun j =>
      ∃ hj : j < datagrams.length, returned bufSize datagrams[j] ≠ []) ↔
      ∃ hj : j < datagrams.length, returned bufSize datagrams[j] ≠ [] := by
    intro j
    rw [Finset.mem_filter, Finset.mem_range]
    exact ⟨And.right, fun h => ⟨h.1, h⟩⟩
  refine eq_self_of_strictMonoOn ?_ ?_ ((hmem i).mpr ⟨hi, hne⟩)
  · intro j hj k _ hjk
    obtain ⟨hj, hbytes⟩ := (hmem j).mp hj
    have hle : outIndex features bufSize datagrams j +
        slotsOf features bufSize datagrams[j] ≤
          outIndex features bufSize datagrams k :=
      outIndex_add_slotsOf_le features datagrams hjk hj
    have hpos := slotsOf_pos features hbytes
    show outIndex _ _ _ _ < outIndex _ _ _ _
    omega
  · intro k hk
    obtain ⟨hk, hbytes⟩ := (hmem k).mp hk
    obtain ⟨packet, hpacket, hpacket'⟩ := exists_packet features hbytes
    obtain ⟨j, hj, hread, hjk, -⟩ := apart.found hk hpacket hpacket'
      (hfound (List.mem_flatMap.mpr ⟨_, List.getElem_mem hk, hpacket⟩))
    exact Finset.mem_image.mpr ⟨j, (hmem j).mpr ⟨hj, hread⟩, hjk⟩

theorem Apart.inPlace (apart : Apart features bufSize datagrams bufs)
    (hroom : datagrams = [] ∨
      totalSlots features bufSize datagrams.dropLast < bufs.length)
    (hown : ∀ i (hi : i < datagrams.length) (hs : i < bufs.length),
      bufs[i].take (returned bufSize datagrams[i]).length =
        returned bufSize datagrams[i])
    (hfound : packetsOfAll features bufSize datagrams ⊆
      foundPieces features bufSize datagrams bufs) :
    InPlace features bufSize datagrams bufs := by
  intro i hi
  by_cases hempty : returned bufSize datagrams[i] = []
  · have hlt := outIndex_lt
      (hroom.resolve_left (List.ne_nil_of_mem (List.getElem_mem hi))) hi
    simp [hempty, List.getElem?_eq_getElem hlt]
  have hindex := apart.outIndex_eq hfound hi hempty
  obtain ⟨packet, hpacket, hne⟩ := exists_packet features hempty
  obtain ⟨j, hj, hread, hji, hs, hpiece⟩ := apart.found hi hpacket hne
    (hfound (List.mem_flatMap.mpr ⟨_, List.getElem_mem hi, hpacket⟩))
  obtain rfl : j = i := by rw [← hji, apart.outIndex_eq hfound hj hread]
  refine ⟨?_, by simp [hindex, List.getElem?_eq_getElem hs, hown j hi hs]⟩
  intro hzero
  -- the one packet of a message that is not split is what 16 bits count of it
  obtain rfl : packet = (returned bufSize datagrams[j], datagrams[j].source) :=
    by simpa [packetsOf, cut, hzero] using hpacket
  have hlength := congrArg List.length (show returned bufSize datagrams[j] =
    bufs[j].take ((asReceived bufSize datagrams[j]).msgLen % 2 ^ 16) by
      simpa [pieces, asReceived, hzero] using hpiece)
  rw [List.length_take] at hlength
  have hmod := Nat.mod_lt (asReceived bufSize datagrams[j]).msgLen
    (Nat.two_pow_pos 16)
  omega

end Apart

theorem landed_own {datagrams : List Datagram}
    {slots : List (RecvSlot bufSize)} {i : Nat} (hi : i < datagrams.length)
    (hs : i < (landed datagrams slots).length) :
    (landed datagrams slots)[i].buf.1.take
        (returned bufSize datagrams[i]).length =
      returned bufSize datagrams[i] := by
  induction datagrams generalizing slots i with
  | nil => cases hi
  | cons datagram datagrams ih =>
      cases slots with
      | nil => cases hs
      | cons slot slots =>
          cases i with
          | zero => exact take_writePrefix _ _
          | succ i =>
              simp only [landed, List.getElem_cons_succ]
              exact ih (Nat.lt_of_succ_lt_succ hi) (Nat.lt_of_succ_lt_succ hs)

namespace Linux

theorem tryRecvBatch_keeps_iff {features : Features} {host : Host}
    {batch batch' : RecvBatchRaw bufSize} {os os' : Os} {m : Nat}
    (hcap : 0 < batch.capacity) (h : os.hasRecvmmsg = true)
    (hok : tryRecvBatch features host batch os =
      (.ok (.ok m, batch'), os')) :
    (∃ packets, batch'.iter = .ok packets ∧
        (packetsOfAll features bufSize (recvDatagrams batch os)).Subperm
          packets) ↔
      totalSlots features bufSize (recvDatagrams batch os) ≤ batch.capacity ∧
      (packetsOfAll features bufSize (recvDatagrams batch os)).Perm
        (foundPieces features bufSize (recvDatagrams batch os)
          (landedBufs (recvDatagrams batch os) batch)) := by
  obtain ⟨hread, hlen, hcount, hroom⟩ := tryRecvBatch_ok h hok
  have hbufs := landedBufs_bufSize (recvDatagrams batch os) batch
  have hroomy : totalSlots features bufSize (recvDatagrams batch os) ≤
      batch.capacity → Roomy features bufSize (recvDatagrams batch os)
        (landedBufs (recvDatagrams batch os) batch).length := by
    intro htotal
    rw [landedBufs_length]
    exact ⟨hroom, htotal⟩
  rw [RecvBatchRaw.iter, hlen hcap, hread]
  simp only [Except.ok.injEq, exists_eq_left']
  constructor
  · intro hsub
    have htotal : totalSlots features bufSize (recvDatagrams batch os) ≤
        batch.capacity := by
      rw [← packetsOfAll_length]
      exact hsub.length_le.trans hcount
    have roomy := hroomy htotal
    rw [readBack_eq_foundPieces features hbufs roomy] at hsub
    refine ⟨htotal, hsub.perm_of_length_le ?_⟩
    rw [foundPieces_length features hbufs roomy, packetsOfAll_length]
  · rintro ⟨htotal, hperm⟩
    rw [readBack_eq_foundPieces features hbufs (hroomy htotal)]
    exact hperm.subperm

/-- A receive with room for all packets keeps them where every message is read
in place, and only there if no packet can be mistaken for another one. -/
theorem tryRecvBatch_keeps_packets {features : Features} {host : Host}
    {batch batch' : RecvBatchRaw bufSize} {os os' : Os} {m : Nat}
    (hcap : 0 < batch.capacity) (h : os.hasRecvmmsg = true)
    (hok : tryRecvBatch features host batch os =
      (.ok (.ok m, batch'), os')) :
    (totalSlots features bufSize (recvDatagrams batch os) ≤ batch.capacity →
      InPlace features bufSize (recvDatagrams batch os)
        (landedBufs (recvDatagrams batch os) batch) →
      ∃ packets, batch'.iter = .ok packets ∧
        (packetsOfAll features bufSize
          (recvDatagrams batch os)).Subperm packets) ∧
    ((∃ packets, batch'.iter = .ok packets ∧
        (packetsOfAll features bufSize
          (recvDatagrams batch os)).Subperm packets) →
      totalSlots features bufSize (recvDatagrams batch os) ≤
        batch.capacity ∧
      (Apart features bufSize (recvDatagrams batch os)
          (landedBufs (recvDatagrams batch os) batch) →
        InPlace features bufSize (recvDatagrams batch os)
          (landedBufs (recvDatagrams batch os) batch))) := by
  have hiff := tryRecvBatch_keeps_iff hcap h hok
  obtain ⟨-, -, -, hroom⟩ := tryRecvBatch_ok h hok
  rw [← landedBufs_length (recvDatagrams batch os) batch] at hroom
  constructor
  · intro htotal hplace
    refine hiff.mpr ⟨htotal, ?_⟩
    rw [(foundPieces_eq_iff features (landedBufs_bufSize _ batch)
      ⟨hroom, by rwa [landedBufs_length]⟩).mpr hplace]
  · intro hkept
    obtain ⟨htotal, hperm⟩ := hiff.mp hkept
    refine ⟨htotal, fun apart => apart.inPlace hroom ?_ hperm.subset⟩
    intro i hi hs
    simp only [landedBufs, List.getElem_map]
    exact landed_own hi (by simpa [landedBufs] using hs)

end Linux

end Binger.Platform
