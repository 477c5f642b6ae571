import Binger.Foundation.Loops
import Binger.Platform.RecvSpec

/-!
# The split loop

The segments of a coalesced message are written by a `while` loop with two
counters: the segments so far, from which the next slot follows, and the offset
in the payload.  It goes on until the payload is used up or the batch is full;
nothing else bounds it.  The stack branch and the heap branch have the same
text.

`splitLoop_eq` says that the loop ends and computes `splitSegments`, with which
the output loop is written.
-/

namespace Binger.Platform

open Binger.Foundation Binger.Sockaddr

variable {bufSize : Nat}

/-! ## The loop -/

structure SplitState (bufSize : Nat) where
  segCount : Nat
  offset : Nat
  batch : RecvBatchRaw bufSize

/-- The test of the loop and a pass through its body. -/
def splitPass (features : Features) (firstIdx totalLen : Nat)
    (decodedAddr : SocketAddr) (groSegSize : UInt16) (coalesced : List UInt8) :
    SplitState bufSize →
      Except Panic (SplitState bufSize ⊕ Nat × RecvBatchRaw bufSize)
  | ⟨segCount, offset, batch⟩ =>
      if offset < totalLen then
        let segEnd := min (offset + groSegSize.toNat) totalLen
        let segLen := segEnd - offset
        if segCount = 0 then do
          -- the bytes of the first segment are in their place
          let batch ← batch.setRecvLen firstIdx segLen
          return .inl ⟨segCount + 1, segEnd, batch⟩
        else
          let nextIdx := firstIdx + segCount
          if nextIdx ≥ batch.capacity then return .inr (segCount, batch)
          else do
            let segment := (coalesced.take segEnd).drop offset
            let batch ← storeSegment features firstIdx nextIdx decodedAddr
              segment batch
            return .inl ⟨segCount + 1, segEnd, batch⟩
      else return .inr (segCount, batch)

/-- The block under `gro_seg_size > 0`: the new `out_idx`, or nothing when the
loop is still running after `passes` passes. -/
def splitGro (passes : Nat) (features : Features) (firstIdx totalLen : Nat)
    (decodedAddr : SocketAddr) (groSegSize : UInt16)
    (batch : RecvBatchRaw bufSize) :
    Option (Except Panic (Nat × RecvBatchRaw bufSize)) :=
  match batch.readBuf firstIdx totalLen with
  | .error panic => some (.error panic)
  | .ok coalesced =>
      (loop (splitPass features firstIdx totalLen decodedAddr groSegSize
        coalesced) passes ⟨0, 0, batch⟩).map fun result =>
          result.map fun (segCount, batch) => (firstIdx + segCount, batch)

section Loop

variable (features : Features) (firstIdx : Nat) (decodedAddr : SocketAddr)
  {groSegSize : UInt16} (coalesced : List UInt8)

theorem splitPass_offset {state next : SplitState bufSize}
    (h : splitPass features firstIdx coalesced.length decodedAddr groSegSize
      coalesced state = .ok (.inl next)) :
    state.offset < coalesced.length ∧
      next.offset =
        min (state.offset + groSegSize.toNat) coalesced.length := by
  rcases state with ⟨segCount, offset, batch⟩
  simp only [splitPass, bind, Except.bind, pure, Except.pure] at h
  split at h
  · next hoffset =>
      refine ⟨hoffset, ?_⟩
      split at h
      · split at h
        · cases h
        · cases h
          rfl
      · split at h
        · cases h
        · split at h
          · cases h
          · cases h
            rfl
  · cases h

theorem splitSegments_unroll (hsize : 0 < groSegSize.toNat)
    (state : SplitState bufSize) :
    splitSegments features firstIdx decodedAddr groSegSize.toNat coalesced
        state.segCount state.offset state.batch =
      (splitPass features firstIdx coalesced.length decodedAddr groSegSize
        coalesced state).bind (Sum.elim (fun state =>
          splitSegments features firstIdx decodedAddr groSegSize.toNat
            coalesced state.segCount state.offset state.batch) .ok) := by
  rcases state with ⟨segCount, offset, batch⟩
  rw [splitSegments, splitPass]
  simp only [hsize, and_true, bind, pure, Except.pure]
  by_cases hoffset : offset < coalesced.length
  · rw [dif_pos hoffset, if_pos hoffset]
    by_cases hfirst : segCount = 0
    · rw [if_pos hfirst, if_pos hfirst]
      cases batch.setRecvLen firstIdx _ <;> rfl
    · rw [if_neg hfirst, if_neg hfirst]
      split
      · rfl
      · cases storeSegment features firstIdx _ decodedAddr _ batch <;> rfl
  · rw [dif_neg hoffset, if_neg hoffset]
    rfl

theorem splitLoop_eq (hsize : 0 < groSegSize.toNat) {passes : Nat}
    {state : SplitState bufSize}
    (hpasses : coalesced.length - state.offset < passes) :
    loop (splitPass features firstIdx coalesced.length decodedAddr groSegSize
        coalesced) passes state =
      some (splitSegments features firstIdx decodedAddr groSegSize.toNat
        coalesced state.segCount state.offset state.batch) := by
  refine loop_eq_of_variant (fun state => coalesced.length - state.offset)
    (splitSegments_unroll features firstIdx decodedAddr coalesced hsize) ?_
    hpasses
  intro state next h
  have hnext := splitPass_offset features firstIdx decodedAddr coalesced h
  omega

theorem splitGro_eq (hsize : 0 < groSegSize.toNat) {passes totalLen : Nat}
    (hpasses : totalLen < passes) (batch : RecvBatchRaw bufSize) :
    splitGro passes features firstIdx totalLen decodedAddr groSegSize batch =
      some do
        let coalesced ← batch.readBuf firstIdx totalLen
        let (segCount, batch) ← splitSegments features firstIdx decodedAddr
          groSegSize.toNat coalesced 0 0 batch
        return (firstIdx + segCount, batch) := by
  unfold splitGro
  cases hread : batch.readBuf firstIdx totalLen with
  | error panic => rfl
  | ok coalesced =>
      obtain rfl : coalesced.length = totalLen :=
        RecvBatchRaw.length_of_readBuf hread
      have hloop := @splitLoop_eq bufSize features firstIdx decodedAddr
        groSegSize coalesced hsize passes ⟨0, 0, batch⟩ hpasses
      simp only [hloop, Option.map_some, bind, Except.bind]
      cases splitSegments features firstIdx decodedAddr groSegSize.toNat
        coalesced 0 0 batch <;> rfl

end Loop

/-- The output loop runs this block for a coalesced message, with the address
of the message in the slot. -/
theorem outputMessage_splitGro (features : Features) {message : Received}
    {batch : RecvBatchRaw bufSize} {outIdx : Nat} {slot : RecvSlot bufSize}
    (hslot : batch.slot outIdx = .ok slot)
    (hsize : 0 < groSize features message.control) :
    ∃ walked : RecvBatchRaw bufSize,
      walked.slot outIdx = .ok (messageSlot features message slot) ∧
      walked.addr outIdx = .ok message.addr ∧
      ∀ passes, message.msgLen < passes →
        splitGro passes features outIdx message.msgLen message.addr
            (UInt16.ofNat (groSize features message.control)) walked =
          some (outputMessage features message outIdx batch) := by
  rcases RecvBatchRaw.exists_split hslot with ⟨before, rest, rfl, hslots⟩
  rcases batch with ⟨slots, len⟩
  obtain rfl : slots = before ++ slot :: rest := hslots
  have hgro : (UInt16.ofNat (groSize features message.control)).toNat =
      groSize features message.control :=
    UInt16.toNat_ofNat_of_lt' (groSize_lt features message.control)
  have hwalked := RecvBatchRaw.slot_split before rest
    (messageSlot features message slot) len
  refine ⟨⟨before ++ messageSlot features message slot :: rest, len⟩, hwalked,
    ?_, ?_⟩
  · rw [RecvBatchRaw.addr, hwalked]
    rfl
  · intro passes hpasses
    rw [splitGro_eq features before.length message.addr (by rwa [hgro])
      hpasses, outputMessage_walked, hgro]
    simp only [hsize, if_true]

/-! ## The slots that it fills -/

def splitSlots (features : Features) (size : Nat) (coalesced : List UInt8)
    (slot : RecvSlot bufSize) (rest : List (RecvSlot bufSize)) :
    List (RecvSlot bufSize) :=
  match segments size coalesced with
  | [] => []
  | segment :: further =>
      let first := { slot with recvLen := UInt16.ofNat segment.length }
      first :: List.zipWith (segmentSlot features slot.addr first) further rest

theorem splitSlots_length (features : Features) (size : Nat)
    (coalesced : List UInt8) (slot : RecvSlot bufSize)
    (rest : List (RecvSlot bufSize)) :
    (splitSlots features size coalesced slot rest).length =
      min (segmentCount size coalesced.length) (rest.length + 1) := by
  rw [← segments_length, splitSlots]
  cases segments size coalesced with
  | nil => simp
  | cons segment further => simp

theorem splitSegments_splitSlots (features : Features)
    (before rest : List (RecvSlot bufSize)) (slot : RecvSlot bufSize)
    (len : Nat) {size : Nat} (hsize : 0 < size) {coalesced : List UInt8}
    (hlength : coalesced.length ≤ bufSize) :
    splitSegments features before.length slot.addr size coalesced 0 0
        ⟨before ++ slot :: rest, len⟩ =
      let filled := splitSlots features size coalesced slot rest
      .ok (filled.length,
        ⟨before ++ (filled ++ (slot :: rest).drop filled.length), len⟩) := by
  by_cases hne : coalesced = []
  · simp [hne, splitSegments, splitSlots]
  · rw [splitSegments_eq features slot.addr before rest slot len hsize hlength
      hne, splitSlots, segments_cons hsize hne]
    simp [Nat.add_comm 1]

structure CarriesSegment (features : Features) (source : RecvSlot bufSize)
    (segment : List UInt8) (slot : RecvSlot bufSize) : Prop where
  fits : slot.recvLen.toNat ≤ bufSize
  payload : slot.payload = segment
  addr : slot.addr = source.addr
  timestamp : features.timestamping = true →
    slot.timestamp = source.timestamp
  dstAddr : features.pktinfo = true → slot.dstAddr = source.dstAddr

theorem carries_first (features : Features) {slot : RecvSlot bufSize}
    {segment : List UInt8} (hshort : segment.length < 2 ^ 16)
    (hfront : segment <+: slot.buf.1) :
    CarriesSegment features slot segment
      { slot with recvLen := UInt16.ofNat segment.length } := by
  have hrecv : (UInt16.ofNat segment.length).toNat = segment.length :=
    UInt16.toNat_ofNat_of_lt' hshort
  refine ⟨?_, ?_, rfl, fun _ => rfl, fun _ => rfl⟩
  · rw [hrecv, ← slot.buf.2]
    exact hfront.length_le
  · rw [RecvSlot.payload, hrecv, ← List.prefix_iff_eq_take.mp hfront]

theorem carries_segmentSlot (features : Features) (first : RecvSlot bufSize)
    {segment : List UInt8} (hlength : segment.length ≤ bufSize)
    (hshort : segment.length < 2 ^ 16) (slot : RecvSlot bufSize) :
    CarriesSegment features first segment
      (segmentSlot features first.addr first segment slot) := by
  have hrecv : (UInt16.ofNat segment.length).toNat = segment.length :=
    UInt16.toNat_ofNat_of_lt' hshort
  refine ⟨?_, ?_, rfl, ?_, ?_⟩
  · change (UInt16.ofNat segment.length).toNat ≤ bufSize
    rw [hrecv]
    exact hlength
  · simp [RecvSlot.payload, segmentSlot, hrecv, RecvSlot.writeBuf,
      List.take_of_length_le hlength]
  · intro hfeature
    rw [segmentSlot, if_pos hfeature]
  · intro hfeature
    rw [segmentSlot, if_pos hfeature]

theorem splitSlots_carries (features : Features) {size : Nat}
    (hsize : 0 < size) (hsmall : size < 2 ^ 16) {coalesced : List UInt8}
    {slot : RecvSlot bufSize} (hfront : coalesced <+: slot.buf.1)
    (rest : List (RecvSlot bufSize)) {j : Nat} {segment : List UInt8}
    (hsegment : (segments size coalesced)[j]? = some segment)
    {filled : RecvSlot bufSize}
    (hfilled : (splitSlots features size coalesced slot rest)[j]? =
      some filled) :
    CarriesSegment features slot segment filled := by
  have hmem := List.mem_of_getElem? hsegment
  have hlength : segment.length ≤ bufSize := by
    rw [← slot.buf.2]
    exact (length_le_length_of_mem_segments hmem).trans hfront.length_le
  have hshort : segment.length < 2 ^ 16 :=
    Nat.lt_of_le_of_lt (length_le_of_mem_segments hmem) hsmall
  have hne : coalesced ≠ [] := by
    rintro rfl
    simp at hsegment
  rw [splitSlots, segments_cons hsize hne] at hfilled
  rw [segments_cons hsize hne] at hsegment
  cases j with
  | zero =>
      obtain rfl := Option.some.inj hsegment
      obtain rfl := Option.some.inj hfilled
      exact carries_first features hshort
        ((List.take_prefix size coalesced).trans hfront)
  | succ j =>
      rw [List.getElem?_cons_succ] at hsegment hfilled
      rcases List.getElem?_zipWith_eq_some.mp hfilled with
        ⟨found, target, hfound, -, rfl⟩
      obtain rfl := Option.some.inj (hfound.symm.trans hsegment)
      have hcarries := carries_segmentSlot features
        { slot with recvLen := UInt16.ofNat (coalesced.take size).length }
        hlength hshort target
      exact ⟨hcarries.fits, hcarries.payload, hcarries.addr,
        hcarries.timestamp, hcarries.dstAddr⟩

section Filled

variable (features : Features) {size : Nat} (hsize : 0 < size)
  (hsmall : size < 2 ^ 16) {coalesced : List UInt8} {slot : RecvSlot bufSize}
  (hfront : coalesced <+: slot.buf.1) (rest : List (RecvSlot bufSize))

theorem lt_of_lt_splitSlots {j : Nat}
    (hj : j < (splitSlots features size coalesced slot rest).length) :
    j < (segments size coalesced).length := by
  rw [splitSlots_length] at hj
  rw [segments_length]
  omega

include hsize hsmall hfront

theorem splitSlots_entries :
    (splitSlots features size coalesced slot rest).map RecvSlot.entry =
      ((segments size coalesced).take (rest.length + 1)).map
        fun segment => (segment, slot.addr) := by
  apply List.ext_getElem
  · simp [splitSlots_length, Nat.min_comm]
  · intro j hj hj'
    rw [List.length_map] at hj
    have hcarries := splitSlots_carries features hsize hsmall hfront rest
      (List.getElem?_eq_getElem (lt_of_lt_splitSlots features rest hj))
      (List.getElem?_eq_getElem hj)
    simp only [List.getElem_map, List.getElem_take]
    exact Prod.ext hcarries.payload hcarries.addr

theorem splitSlots_fits :
    ∀ filled ∈ splitSlots features size coalesced slot rest,
      filled.recvLen.toNat ≤ bufSize := by
  intro filled hmem
  rcases List.mem_iff_getElem.mp hmem with ⟨j, hj, rfl⟩
  exact (splitSlots_carries features hsize hsmall hfront rest
    (List.getElem?_eq_getElem (lt_of_lt_splitSlots features rest hj))
    (List.getElem?_eq_getElem hj)).fits

end Filled

/-! ## The batch behind it -/

/-- A batch in which `count` slots from `firstIdx` on carry the pieces of
`payload` and everything else is as it was.  The methods `timestamp` and
`dst_addr` exist only with their features. -/
structure SplitOver (features : Features) (firstIdx size : Nat)
    (payload : List UInt8) (count : Nat)
    (batch batch' : RecvBatchRaw bufSize) : Prop where
  data : ∀ j < count, batch'.data (firstIdx + j) =
    .ok (payload.extract (j * size) (min ((j + 1) * size) payload.length))
  addr : ∀ j < count, batch'.addr (firstIdx + j) = batch.addr firstIdx
  timestamp : features.timestamping = true →
    ∀ j < count, batch'.timestamp (firstIdx + j) = batch.timestamp firstIdx
  dstAddr : features.pktinfo = true →
    ∀ j < count, batch'.dstAddr (firstIdx + j) = batch.dstAddr firstIdx
  unchanged : ∀ idx, idx < firstIdx ∨ firstIdx + count ≤ idx →
    batch'.slot idx = batch.slot idx
  len_eq : batch'.len = batch.len

theorem splitOver_splitSlots (features : Features) {size : Nat}
    (hsize : 0 < size) (hsmall : size < 2 ^ 16) {payload : List UInt8}
    {slot : RecvSlot bufSize} (hfront : payload <+: slot.buf.1)
    (before rest : List (RecvSlot bufSize)) (len : Nat) :
    let filled := splitSlots features size payload slot rest
    SplitOver features before.length size payload filled.length
      ⟨before ++ slot :: rest, len⟩
      ⟨before ++ (filled ++ (slot :: rest).drop filled.length), len⟩ := by
  intro filled
  have hlength : filled.length =
      min (segmentCount size payload.length) (rest.length + 1) :=
    splitSlots_length features size payload slot rest
  have hsource : RecvBatchRaw.slot ⟨before ++ slot :: rest, len⟩
      before.length = .ok slot := RecvBatchRaw.slot_split before rest slot len
  have hslot : ∀ j (hj : j < filled.length), RecvBatchRaw.slot
      ⟨before ++ (filled ++ (slot :: rest).drop filled.length), len⟩
      (before.length + j) = .ok filled[j] :=
    fun j hj => RecvBatchRaw.slot_overwritten before filled _ len hj
  have hcarries : ∀ j (hj : j < filled.length), CarriesSegment features slot
      (payload.extract (j * size) (min ((j + 1) * size) payload.length))
      filled[j] := by
    intro j hj
    exact splitSlots_carries features hsize hsmall hfront rest
      (getElem?_segments (by omega)) (List.getElem?_eq_getElem hj)
  refine ⟨?_, ?_, ?_, ?_, ?_, rfl⟩
  · intro j hj
    rw [RecvBatchRaw.data_eq (hslot j hj) (hcarries j hj).fits,
      (hcarries j hj).payload]
  · intro j hj
    rw [RecvBatchRaw.addr, RecvBatchRaw.addr, hslot j hj, hsource]
    exact congrArg Except.ok (hcarries j hj).addr
  · intro hfeature j hj
    rw [RecvBatchRaw.timestamp, RecvBatchRaw.timestamp, hslot j hj, hsource]
    exact congrArg Except.ok ((hcarries j hj).timestamp hfeature)
  · intro hfeature j hj
    rw [RecvBatchRaw.dstAddr, RecvBatchRaw.dstAddr, hslot j hj, hsource]
    exact congrArg Except.ok ((hcarries j hj).dstAddr hfeature)
  · intro idx hidx
    have hroom : filled.length ≤ (slot :: rest).length := by
      rw [hlength, List.length_cons]
      exact Nat.min_le_right _ _
    exact RecvBatchRaw.slot_not_overwritten before filled _ len hroom hidx

/-- The loop ends, and behind it the pieces of the payload are in the slots
from `firstIdx` on, as many as there are slots for. -/
theorem splitGro_correct (features : Features)
    {batch : RecvBatchRaw bufSize} {firstIdx : Nat} {payload : List UInt8}
    (hpayload : batch.readBuf firstIdx payload.length = .ok payload)
    {decodedAddr : SocketAddr} (haddr : batch.addr firstIdx = .ok decodedAddr)
    {groSegSize : UInt16} (hsize : 1 ≤ groSegSize) :
    let count := min (segmentCount groSegSize.toNat payload.length)
      (batch.capacity - firstIdx)
    ∃ batch',
      (∀ passes, payload.length < passes →
        splitGro passes features firstIdx payload.length decodedAddr
          groSegSize batch = some (.ok (firstIdx + count, batch'))) ∧
      SplitOver features firstIdx groSegSize.toNat payload count batch
        batch' := by
  intro count
  have hpos : 0 < groSegSize.toNat := hsize
  rcases RecvBatchRaw.readBuf_eq_ok hpayload with ⟨slot, hslot, hfit, hfront⟩
  obtain rfl : slot.addr = decodedAddr := by
    rw [RecvBatchRaw.addr, hslot] at haddr
    exact Except.ok.inj haddr
  rcases RecvBatchRaw.exists_split hslot with ⟨before, rest, rfl, hslots⟩
  rcases batch with ⟨slots, len⟩
  obtain rfl : slots = before ++ slot :: rest := hslots
  have hcount : count =
      (splitSlots features groSegSize.toNat payload slot rest).length := by
    rw [splitSlots_length]
    simp [count, RecvBatchRaw.capacity]
  rw [hcount]
  refine ⟨_, ?_, splitOver_splitSlots features hpos
    (UInt16.toNat_lt groSegSize) (List.prefix_iff_eq_take.mpr hfront) before
    rest len⟩
  intro passes hpasses
  rw [splitGro_eq features before.length slot.addr hpos hpasses, hpayload]
  simp only [bind, Except.bind,
    splitSegments_splitSlots features before rest slot len hpos hfit]
  rfl

def coalescedBatch : RecvBatchRaw 4 where
  slots := [{ RecvSlot.zeroed 4 with buf := ⟨[1, 2, 3, 9], rfl⟩ }, .zeroed 4,
    .zeroed 4]
  len := 0

theorem coalescedBatch_split :
    ∃ batch', splitGro 4 ⟨true, true, true⟩ 0 3 .unspecified 2 coalescedBatch =
        some (.ok (2, batch')) ∧
      batch'.data 0 = .ok [1, 2] ∧ batch'.data 1 = .ok [3] := by
  rcases @splitGro_correct 4 ⟨true, true, true⟩ coalescedBatch 0 [1, 2, 3] rfl
    .unspecified rfl 2 (by decide) with ⟨batch', hends, hover⟩
  exact ⟨batch', hends 4 (by decide), hover.data 0 (by decide),
    hover.data 1 (by decide)⟩

end Binger.Platform
