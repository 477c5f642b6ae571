import Binger.Platform.LinuxSend

/-!
# The header arrays of the batched calls

The stack path of Linux packs the storages with a counter that runs behind the
message index; it is right for every pattern of addressed entries.  The arrays
for `sendmsg_x` on macOS are built like the heap path of Linux, at any length,
and share its defect: the counter of the second loop walks over storages that
were pushed for all entries.
-/

namespace Binger.Platform

open Binger.Foundation Binger.Sockaddr

namespace SendHeaders

def NamesApart (headers : SendHeaders) (count : Nat) : Prop :=
  ∀ i j header header' idx, i < count → j < count →
    headers.msgs[i]? = some header → headers.msgs[j]? = some header' →
    header.msgName = .addrs idx → header'.msgName = .addrs idx → i = j

def IndicesBelow (headers : SendHeaders) (count bound : Nat) : Prop :=
  ∀ i header, i < count → headers.msgs[i]? = some header →
    i < bound ∧ (∀ idx, header.msgIov = some idx → idx < bound) ∧
      ∀ idx, header.msgName = .addrs idx → idx < bound

end SendHeaders

/-! ## The stack path -/

theorem addressedBefore_lt {entries : List SendSlot} {i j : Nat}
    (hi : i < entries.length) (hij : i < j)
    (haddr : entries[i].addr.isSome = true) :
    addressedBefore entries i < addressedBefore entries j := by
  have hnext : addressedBefore entries (i + 1) =
      addressedBefore entries i + 1 := by
    rw [addressedBefore, List.take_add_one, List.getElem?_eq_getElem hi,
      List.countP_append]
    simp [addressedBefore, haddr]
  have hmono : addressedBefore entries (i + 1) ≤ addressedBefore entries j :=
    (List.take_sublist_take_left (by omega)).countP_le
  omega

theorem entryHeader_msgName {host : Host} {addrIdx i idx : Nat}
    {entry : SendSlot}
    (h : (entryHeader host addrIdx i entry).msgName = .addrs idx) :
    entry.addr.isSome = true ∧ idx = addrIdx := by
  cases hsome : entry.addr.isSome with
  | false => simp [entryHeader, hsome] at h
  | true => simpa [entryHeader, hsome, eq_comm] using h

section Stack

variable (host : Host) {batch : SendBatchRaw} (h : batch.len ≤ maxStack)

theorem stackHeaders_namesApart :
    (stackHeaders host batch h).NamesApart batch.len := by
  intro i j header header' idx hi hj hheader hheader' hname hname'
  rw [← batch.entries_length] at hi hj
  rw [stackHeaders_msgs host h hi, Option.some.injEq] at hheader
  rw [stackHeaders_msgs host h hj, Option.some.injEq] at hheader'
  rw [← hheader] at hname
  rw [← hheader'] at hname'
  have hfirst := entryHeader_msgName hname
  have hsecond := entryHeader_msgName hname'
  rcases Nat.lt_trichotomy i j with hlt | heq | hgt
  · have := addressedBefore_lt hi hlt hfirst.1
    omega
  · exact heq
  · have := addressedBefore_lt hj hgt hsecond.1
    omega

theorem stackHeaders_indicesBelow :
    (stackHeaders host batch h).IndicesBelow batch.len maxStack := by
  intro i header hi hheader
  have hlt : i < maxStack := hi.trans_le h
  rw [← batch.entries_length] at hi
  rw [stackHeaders_msgs host h hi, Option.some.injEq] at hheader
  subst hheader
  refine ⟨hlt, ?_, ?_⟩
  · intro idx hidx
    rw [entryHeader, Option.some.injEq] at hidx
    omega
  · intro idx hidx
    have hrank := addressedBefore_le batch.entries i
    have hname := (entryHeader_msgName hidx).2
    omega

end Stack

namespace Linux

/-- Up to 64 entries the array and the count handed to `sendmmsg` stand for the
batch, with a storage of its own for each addressed message and all indices
inside the arrays. -/
theorem sendmmsg_arrays_represent (host : Host) (batch : SendBatchRaw)
    (hlen : batch.len ≤ 64) :
    vlen batch.len = batch.len ∧
    (sendHeaders host batch).Represents host batch.entries ∧
    (sendHeaders host batch).NamesApart batch.len ∧
    (sendHeaders host batch).IndicesBelow batch.len 64 := by
  have hfits : batch.len ≤ maxStack := hlen
  have hstack : sendHeaders host batch = stackHeaders host batch hfits := by
    rw [sendHeaders, dif_pos hfits]
  rw [hstack]
  refine ⟨?_, stackHeaders_represents host batch hfits,
    stackHeaders_namesApart host hfits, stackHeaders_indicesBelow host hfits⟩
  rw [vlen, Nat.mod_eq_of_lt (by omega)]

def alternatingBatch : SendBatchRaw :=
  .ofEntries [⟨⟨0, [1]⟩, none⟩, ⟨⟨1, [2]⟩, some loopbackPeer⟩,
    ⟨⟨2, [3]⟩, none⟩, ⟨⟨3, []⟩, some (.v6 ⟨List.replicate 16 1, rfl⟩ 7 0 2)⟩]

theorem alternatingBatch_represented :
    alternatingBatch.len = 4 ∧
      (sendHeaders ⟨.linux, .little⟩ alternatingBatch).Represents
        ⟨.linux, .little⟩ alternatingBatch.entries :=
  ⟨rfl, (sendmmsg_arrays_represent _ alternatingBatch (by decide)).2.1⟩

end Linux

/-! ## The arrays for `sendmsg_x` -/

namespace Macos

theorem sendmsgX_arrays_represent_iff (order : ByteOrder)
    (batch : SendBatchRaw) :
    (sendHeaders ⟨.macos, order⟩ batch).Represents ⟨.macos, order⟩
        batch.entries ↔
      Linux.AddressesAligned batch.entries :=
  heapHeaders_represents_iff ⟨.macos, order⟩ batch

/-- The message of the second entry names the storage of the first one, which
was pushed without an address. -/
theorem sendmsgX_arrays_misrepresent :
    ¬ (sendHeaders ⟨.macos, .little⟩
        (.ofEntries [⟨⟨0, [1]⟩, none⟩,
          ⟨⟨1, [2]⟩, some Linux.loopbackPeer⟩])).Represents
      ⟨.macos, .little⟩
      [⟨⟨0, [1]⟩, none⟩, ⟨⟨1, [2]⟩, some Linux.loopbackPeer⟩] := by
  intro h
  have haligned := (heapHeaders_represents_iff ⟨.macos, .little⟩
    (.ofEntries [⟨⟨0, [1]⟩, none⟩,
      ⟨⟨1, [2]⟩, some Linux.loopbackPeer⟩])).mp h
  exact absurd (haligned 1 (by decide) Linux.loopbackPeer rfl) (by decide)

end Macos

end Binger.Platform
