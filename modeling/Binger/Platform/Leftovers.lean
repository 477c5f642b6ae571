import Binger.Platform.Chunking

/-!
# What earlier receives leave in a batch

`clear` resets the lengths and the metadata and keeps the buffers, and a receive
overwrites the metadata of a slot only with what its message carries.  So two
things can survive in a batch: bytes in the buffers, which a later receive
shows when it reads a message at a slot that it did not fill, and metadata of a
batch that was not cleared.
-/

namespace Binger.Platform

open Binger.Foundation Binger.Sockaddr

variable {bufSize : Nat}

/-! ## Metadata of a cleared batch -/

def metadata (slot : RecvSlot bufSize) :
    Option Timestamp × Option SocketAddr :=
  (slot.timestamp, slot.dstAddr)

theorem metadata_messageSlot (features : Features) (message : Received)
    {slot slot' : RecvSlot bufSize} (h : metadata slot = metadata slot') :
    metadata (messageSlot features message slot) =
      metadata (messageSlot features message slot') := by
  simp only [metadata, Prod.mk.injEq] at h
  simp [metadata, messageSlot, annotate, h.1, h.2]

theorem zipWith_metadata (features : Features) (addr : SocketAddr)
    {first first' : RecvSlot bufSize} (hfirst : metadata first =
      metadata first') {further further' : List (List UInt8)}
    (hcount : further.length = further'.length)
    {rest rest' : List (RecvSlot bufSize)}
    (hrest : rest.map metadata = rest'.map metadata) :
    (List.zipWith (segmentSlot features addr first) further rest).map
        metadata =
      (List.zipWith (segmentSlot features addr first') further' rest').map
        metadata := by
  induction further generalizing further' rest rest' with
  | nil =>
      obtain rfl := List.eq_nil_of_length_eq_zero hcount.symm
      simp
  | cons segment further ih =>
      cases further' with
      | nil => simp at hcount
      | cons segment' further' =>
          cases rest <;> cases rest' <;> simp at hrest
          · rfl
          · next slot rest slot' rest' =>
              have htail := ih (Nat.succ_injective hcount) hrest.2
              simp only [metadata, Prod.mk.injEq] at hfirst hrest
              simp [htail, metadata, segmentSlot, hfirst, hrest.1]

theorem emit_metadata (features : Features) (message : Received)
    {slot slot' : RecvSlot bufSize} (hslot : metadata slot = metadata slot')
    {rest rest' : List (RecvSlot bufSize)}
    (hrest : rest.map metadata = rest'.map metadata) :
    (emit features message slot rest).1.map metadata =
        (emit features message slot' rest').1.map metadata ∧
      (emit features message slot rest).2.map metadata =
        (emit features message slot' rest').2.map metadata := by
  have hmessage := metadata_messageSlot features message hslot
  by_cases hsize : groSize features message.control = 0
  · simp [emit, hsize, hmessage, hrest]
  · have hcount : (segments (groSize features message.control)
        (slot.buf.1.take message.msgLen)).length =
        (segments (groSize features message.control)
          (slot'.buf.1.take message.msgLen)).length := by
      simp [slot.buf.2, slot'.buf.2]
    simp only [emit, hsize, if_false]
    split
    · next hnil =>
        rw [hnil, List.length_nil, eq_comm, List.length_eq_zero_iff] at hcount
        simp [hcount, hmessage, hrest]
    · next segment further hcons =>
        rw [hcons] at hcount
        split
        · next hnil => simp [hnil] at hcount
        · next segment' further' hcons' =>
            rw [hcons', List.length_cons, List.length_cons,
              Nat.succ_inj] at hcount
            have hfirst : metadata (firstSlot features message segment slot) =
                metadata (firstSlot features message segment' slot') :=
              hmessage
            refine ⟨?_, ?_⟩
            · rw [List.map_cons, List.map_cons, hfirst,
                zipWith_metadata features message.addr hfirst hcount hrest]
            · rw [List.map_drop, List.map_drop, hrest, hcount]

theorem emitAll_metadata (features : Features) {messages : List Received}
    {slots slots' out out' rest rest' : List (RecvSlot bufSize)}
    (hslots : slots.map metadata = slots'.map metadata)
    (h : emitAll features messages slots = some (out, rest))
    (h' : emitAll features messages slots' = some (out', rest')) :
    out.map metadata = out'.map metadata := by
  induction messages generalizing slots slots' out out' rest rest' with
  | nil =>
      obtain ⟨rfl, -⟩ : [] = out ∧ slots = rest := by simpa [emitAll] using h
      obtain ⟨rfl, -⟩ : [] = out' ∧ slots' = rest' := by
        simpa [emitAll] using h'
      rfl
  | cons message messages ih =>
      cases slots with
      | nil => simp [emitAll] at h
      | cons slot slots =>
          cases slots' with
          | nil => simp [emitAll] at h'
          | cons slot' slots' =>
              rw [List.map_cons, List.map_cons, List.cons.injEq] at hslots
              obtain ⟨hfilled, hrest⟩ := emit_metadata features message
                hslots.1 hslots.2
              simp only [emitAll, Option.map_eq_some_iff,
                Prod.mk.injEq] at h h'
              obtain ⟨⟨tail, _⟩, htail, rfl, -⟩ := h
              obtain ⟨⟨tail', _⟩, htail', rfl, -⟩ := h'
              have hout := ih hrest htail htail'
              rw [List.map_append, List.map_append, hfilled, hout]

/-! ## Bytes of a message -/

/-- The bytes that a message shows of the buffer it is read from, with `room`
slots left. -/
def shownBytes (features : Features) (bufSize room : Nat)
    (datagram : Datagram) : Nat :=
  if groSize features datagram.control = 0 then
    (returned bufSize datagram).length % 2 ^ 16
  else
    min (room * groSize features datagram.control)
      (returned bufSize datagram).length

theorem pieces_take_eq_iff (features : Features) (datagram : Datagram)
    {room : Nat} (hroom : 0 < room) (buf buf' : List UInt8) :
    (pieces features (asReceived bufSize datagram) buf).take room =
        (pieces features (asReceived bufSize datagram) buf').take room ↔
      buf.take (shownBytes features bufSize room datagram) =
        buf'.take (shownBytes features bufSize room datagram) := by
  have hlen := returned_length bufSize datagram
  have hcontrol : (asReceived bufSize datagram).control = datagram.control :=
    rfl
  rw [pieces, pieces, shownBytes, hcontrol, ← hlen]
  by_cases hsize : groSize features datagram.control = 0
  · obtain ⟨room, rfl⟩ := Nat.exists_eq_succ_of_ne_zero (Nat.ne_of_gt hroom)
    simp [hsize]
  · have hpos := Nat.pos_of_ne_zero hsize
    rw [if_neg hsize, if_neg hsize, if_neg hsize, take_segments hpos,
      take_segments hpos, (segments_injective hpos).eq_iff,
      List.take_take, List.take_take]

theorem readBack_cons_eq_iff (features : Features) (datagram : Datagram)
    (datagrams : List Datagram) {buf buf' : List UInt8}
    (hbuf : buf.length = bufSize) (hbuf' : buf'.length = bufSize)
    {bufs bufs' : List (List UInt8)} (hlength : bufs.length = bufs'.length) :
    readBack features ((datagram :: datagrams).map (asReceived bufSize))
        (buf :: bufs) =
        readBack features ((datagram :: datagrams).map (asReceived bufSize))
          (buf' :: bufs') ↔
      buf.take (shownBytes features bufSize (bufs.length + 1) datagram) =
        buf'.take (shownBytes features bufSize (bufs.length + 1) datagram) ∧
      readBack features (datagrams.map (asReceived bufSize))
          ((buf :: bufs).drop (slotsOf features bufSize datagram)) =
        readBack features (datagrams.map (asReceived bufSize))
          ((buf' :: bufs').drop (slotsOf features bufSize datagram)) := by
  have hinjective : Function.Injective
      fun piece : List UInt8 => (piece, datagram.source) :=
    fun first second h => congrArg Prod.fst h
  have hcount : ∀ bytes : List UInt8, bytes.length = bufSize →
      (pieces features (asReceived bufSize datagram) bytes).length =
        slotsOf features bufSize datagram := by
    intro bytes hbytes
    exact pieces_length features (by simp [asReceived, hbytes])
  rw [← pieces_take_eq_iff features datagram (Nat.succ_pos bufs.length),
    ← (List.map_injective_iff.mpr hinjective).eq_iff, List.map_cons, readBack,
    readBack, ← hlength]
  apply append_eq_append_iff_of_length
  simp [hcount buf hbuf, hcount buf' hbuf', hlength]

theorem readBack_eq_iff (features : Features) (datagrams : List Datagram)
    {bufs bufs' : List (List UInt8)}
    (hbufs : ∀ buf ∈ bufs, buf.length = bufSize)
    (hbufs' : ∀ buf ∈ bufs', buf.length = bufSize)
    (hlength : bufs.length = bufs'.length) :
    readBack features (datagrams.map (asReceived bufSize)) bufs =
        readBack features (datagrams.map (asReceived bufSize)) bufs' ↔
      ∀ i (hi : i < datagrams.length),
        let idx := outIndex features bufSize datagrams i
        let shown := shownBytes features bufSize (bufs.length - idx)
          datagrams[i]
        bufs[idx]?.map (List.take shown) =
          bufs'[idx]?.map (List.take shown) := by
  induction datagrams generalizing bufs bufs' with
  | nil => simp [readBack]
  | cons datagram datagrams ih =>
      cases bufs with
      | nil =>
          obtain rfl := List.eq_nil_of_length_eq_zero hlength.symm
          simp
      | cons buf bufs =>
          cases bufs' with
          | nil => simp at hlength
          | cons buf' bufs' =>
              have hrest : bufs.length = bufs'.length := by simpa using hlength
              have htail := @ih
                ((buf :: bufs).drop (slotsOf features bufSize datagram))
                ((buf' :: bufs').drop (slotsOf features bufSize datagram))
                (fun other hmem => hbufs other (List.mem_of_mem_drop hmem))
                (fun other hmem => hbufs' other (List.mem_of_mem_drop hmem))
                (by simp [hrest])
              rw [readBack_cons_eq_iff features datagram datagrams
                (hbufs buf List.mem_cons_self)
                (hbufs' buf' List.mem_cons_self) hrest, htail]
              constructor
              · rintro ⟨hhead, hrest⟩ i hi
                cases i with
                | zero => simpa [outIndex, totalSlots] using hhead
                | succ i =>
                    have hstep := hrest i (by simpa using hi)
                    simpa [outIndex, totalSlots, Nat.sub_add_eq] using hstep
              · intro hall
                refine ⟨?_, fun i hi => ?_⟩
                · have hhead := hall 0 (Nat.succ_pos _)
                  simpa [outIndex, totalSlots] using hhead
                · have hstep := hall (i + 1) (Nat.succ_lt_succ hi)
                  simpa [outIndex, totalSlots, Nat.sub_add_eq] using hstep

/-! ## Bytes that this receive wrote -/

def freshBytes (bufSize : Nat) (datagrams : List Datagram) (j : Nat) :
    List UInt8 :=
  (datagrams[j]?.map (returned bufSize)).getD []

theorem landedBufs_getElem? (datagrams : List Datagram)
    (batch : RecvBatchRaw bufSize) (j : Nat) :
    (landedBufs datagrams batch)[j]? = batch.slots[j]?.map fun slot =>
      writePrefix (freshBytes bufSize datagrams j) slot.buf.1 := by
  obtain ⟨slots, len⟩ := batch
  rw [landedBufs]
  induction datagrams generalizing slots j with
  | nil =>
      have hslots : landed [] slots = slots := by cases slots <;> rfl
      simp [hslots, freshBytes, writePrefix]
  | cons datagram datagrams ih =>
      cases slots with
      | nil => simp [landed]
      | cons slot slots =>
          cases j with
          | zero =>
              simp [landed, freshBytes, RecvSlot.writeBuf, returned]
          | succ j => simpa [landed, freshBytes] using ih j slots

/-- Every message is read at a slot to which this receive wrote at least the
bytes that the message shows. -/
def Covered (features : Features) (bufSize capacity : Nat)
    (datagrams : List Datagram) : Prop :=
  ∀ i (hi : i < datagrams.length),
    shownBytes features bufSize
        (capacity - outIndex features bufSize datagrams i) datagrams[i] ≤
      (freshBytes bufSize datagrams
        (outIndex features bufSize datagrams i)).length

theorem covered_nil (features : Features) (bufSize capacity : Nat) :
    Covered features bufSize capacity [] :=
  fun i hi => absurd hi (Nat.not_lt_zero i)

theorem shownBytes_le (features : Features) (bufSize room : Nat)
    (datagram : Datagram) :
    shownBytes features bufSize room datagram ≤
      (returned bufSize datagram).length := by
  unfold shownBytes
  split
  · exact Nat.mod_le _ _
  · exact Nat.min_le_right _ _

theorem covered_of_one_slot {features : Features} {datagrams : List Datagram}
    (h : ∀ datagram ∈ datagrams.dropLast,
      slotsOf features bufSize datagram = 1) (capacity : Nat) :
    Covered features bufSize capacity datagrams := by
  intro i hi
  have hindex : outIndex features bufSize datagrams i = i := by
    have hones : (datagrams.take i).map (slotsOf features bufSize) =
        List.replicate i 1 := by
      rw [List.eq_replicate_iff]
      refine ⟨by simp; omega, fun count hmem => ?_⟩
      obtain ⟨datagram, hdatagram, rfl⟩ := List.mem_map.mp hmem
      rw [take_eq_dropLast_take hi] at hdatagram
      exact h datagram (List.mem_of_mem_take hdatagram)
    rw [outIndex, totalSlots, hones, List.sum_replicate_nat, Nat.mul_one]
  rw [hindex, freshBytes, List.getElem?_eq_getElem hi]
  exact shownBytes_le features bufSize _ _

theorem readBack_of_covered {features : Features} {datagrams : List Datagram}
    {first second : RecvBatchRaw bufSize}
    (hcap : first.capacity = second.capacity)
    (h : Covered features bufSize first.capacity datagrams) :
    readBack features (datagrams.map (asReceived bufSize))
        (landedBufs datagrams first) =
      readBack features (datagrams.map (asReceived bufSize))
        (landedBufs datagrams second) := by
  have hlength := @Linux.landedBufs_length bufSize datagrams
  rw [readBack_eq_iff features datagrams
    (Linux.landedBufs_bufSize datagrams first)
    (Linux.landedBufs_bufSize datagrams second)
    (by rw [hlength, hlength, hcap])]
  intro i hi
  have hshown := h i hi
  simp only [hlength, landedBufs_getElem?]
  generalize outIndex features bufSize datagrams i = idx at hshown ⊢
  have htake : ∀ stale : List UInt8, List.take (shownBytes features bufSize
      (first.capacity - idx) datagrams[i])
      (writePrefix (freshBytes bufSize datagrams idx) stale) =
      List.take (shownBytes features bufSize (first.capacity - idx)
        datagrams[i]) (freshBytes bufSize datagrams idx) := by
    intro stale
    exact List.take_append_of_le_length hshown
  rcases Nat.lt_or_ge idx first.capacity with hidx | hidx
  · have hfirst : idx < first.slots.length := hidx
    have hsecond : idx < second.slots.length := hidx.trans_eq hcap
    simp [hfirst, hsecond, htake]
  · have hfirst : first.slots.length ≤ idx := hidx
    have hsecond : second.slots.length ≤ idx := hcap.symm.trans_le hidx
    simp [hfirst, hsecond]

def filledBatch (capacity bufSize : Nat) (byte : UInt8) :
    RecvBatchRaw bufSize where
  slots := List.replicate capacity
    { RecvSlot.zeroed bufSize with
      buf := ⟨List.replicate bufSize byte, List.length_replicate⟩ }
  len := 0

@[simp] theorem filledBatch_capacity (capacity bufSize : Nat) (byte : UInt8) :
    (filledBatch capacity bufSize byte).capacity = capacity := by
  simp [filledBatch, RecvBatchRaw.capacity]

theorem covered_of_readBack {features : Features} {datagrams : List Datagram}
    {capacity : Nat}
    (hroom : datagrams = [] ∨
      totalSlots features bufSize datagrams.dropLast < capacity)
    (h : readBack features (datagrams.map (asReceived bufSize))
        (landedBufs datagrams (filledBatch capacity bufSize 0)) =
      readBack features (datagrams.map (asReceived bufSize))
        (landedBufs datagrams (filledBatch capacity bufSize 1))) :
    Covered features bufSize capacity datagrams := by
  have hlength := @Linux.landedBufs_length bufSize datagrams
  rw [readBack_eq_iff features datagrams
    (Linux.landedBufs_bufSize datagrams _)
    (Linux.landedBufs_bufSize datagrams _) (by simp [hlength])] at h
  intro i hi
  have hidx : outIndex features bufSize datagrams i < capacity := by
    rcases hroom with rfl | hroom
    · simp at hi
    · exact outIndex_lt hroom hi
  have hsame := h i hi
  have hbound : shownBytes features bufSize
      (capacity - outIndex features bufSize datagrams i) datagrams[i] ≤
      bufSize :=
    (shownBytes_le _ _ _ _).trans (List.length_take_le _ _)
  simp only [hlength, filledBatch_capacity, landedBufs_getElem?] at hsame
  generalize outIndex features bufSize datagrams i = idx at hsame hidx hbound ⊢
  by_contra hlt
  -- the first byte behind what was written is shown and differs
  have hbyte := congrArg (fun bytes => bytes.bind fun bytes =>
    bytes[(freshBytes bufSize datagrams idx).length]?) hsame
  rw [Nat.not_le] at hlt
  have hlt' := hlt.trans_le hbound
  simp [filledBatch, hidx, hlt, hlt', writePrefix] at hbyte

/-! ## Two batches that report the same -/

def observe (batch : RecvBatchRaw bufSize) (i : Nat) :=
  (batch.data i, batch.addr i, batch.timestamp i, batch.dstAddr i)

structure SameReport (first second : RecvBatchRaw bufSize) : Prop where
  len : first.len = second.len
  observe : ∀ i < first.len, observe first i = observe second i

theorem observe_filled {filled : List (RecvSlot bufSize)}
    (hfits : ∀ slot ∈ filled, slot.recvLen.toNat ≤ bufSize)
    (rest : List (RecvSlot bufSize)) (len : Nat) {i : Nat}
    (hi : i < filled.length) :
    observe ⟨filled ++ rest, len⟩ i =
      (.ok filled[i].packet.data, .ok filled[i].packet.addr,
        .ok filled[i].packet.timestamp, .ok filled[i].packet.dstAddr) := by
  have hslot := RecvBatchRaw.slot_filled filled rest len hi
  simp [observe, RecvBatchRaw.data, RecvBatchRaw.addr, RecvBatchRaw.timestamp,
    RecvBatchRaw.dstAddr, hslot, hfits _ (List.getElem_mem hi), bind,
    Except.bind, pure, Except.pure, RecvSlot.packet]

theorem sameReport_iff {filled filled' : List (RecvSlot bufSize)}
    (hfits : ∀ slot ∈ filled, slot.recvLen.toNat ≤ bufSize)
    (hfits' : ∀ slot ∈ filled', slot.recvLen.toNat ≤ bufSize)
    (rest rest' : List (RecvSlot bufSize)) :
    SameReport ⟨filled ++ rest, filled.length⟩
        ⟨filled' ++ rest', filled'.length⟩ ↔
      filled.map RecvSlot.packet = filled'.map RecvSlot.packet := by
  constructor
  · intro same
    have hlen : filled.length = filled'.length := same.len
    apply List.ext_getElem (by simpa using hlen)
    intro i hi hi'
    rw [List.length_map] at hi hi'
    have hsame := same.observe i hi
    rw [observe_filled hfits rest _ hi, observe_filled hfits' rest' _ hi']
      at hsame
    rw [List.getElem_map, List.getElem_map]
    simpa [RecvSlot.packet] using hsame
  · intro hsame
    have hlen : filled.length = filled'.length := by
      simpa using congrArg List.length hsame
    refine ⟨hlen, fun i hi => ?_⟩
    have hi' : i < filled'.length := hlen ▸ hi
    have hpacket := List.getElem_of_eq hsame (by simpa using hi)
    rw [List.getElem_map, List.getElem_map] at hpacket
    rw [observe_filled hfits rest _ hi, observe_filled hfits' rest' _ hi',
      hpacket]

theorem map_packet_eq_iff {first second : List (RecvSlot bufSize)} :
    first.map RecvSlot.packet = second.map RecvSlot.packet ↔
      first.map RecvSlot.entry = second.map RecvSlot.entry ∧
        first.map metadata = second.map metadata := by
  induction first generalizing second with
  | nil => simp
  | cons slot first ih =>
      cases second with
      | nil => simp
      | cons slot' second =>
          simp only [List.map_cons, List.cons.injEq, ih, RecvSlot.packet,
            RecvSlot.entry, metadata, Packet.mk.injEq, Prod.mk.injEq]
          tauto

theorem map_metadata_landed (datagrams : List Datagram)
    (slots : List (RecvSlot bufSize)) :
    (landed datagrams slots).map metadata = slots.map metadata := by
  induction datagrams generalizing slots with
  | nil => cases slots <;> rfl
  | cons datagram datagrams ih =>
      cases slots with
      | nil => rfl
      | cons slot slots =>
          rw [landed, List.map_cons, ih, List.map_cons]
          rfl

namespace Linux

theorem delivered_sameReport_iff {features : Features}
    {first second first' second' : RecvBatchRaw bufSize}
    (hmeta : first.slots.map metadata = second.slots.map metadata)
    {datagrams : List Datagram} {n m : Nat}
    (h : delivered features first datagrams = .ok (.ok n, first'))
    (h' : delivered features second datagrams = .ok (.ok m, second')) :
    SameReport first' second' ↔
      readBack features (datagrams.map (asReceived bufSize))
          (landedBufs datagrams first) =
        readBack features (datagrams.map (asReceived bufSize))
          (landedBufs datagrams second) := by
  unfold delivered at h h'
  split at h
  · next out rest hemit =>
      split at h'
      · next out' rest' hemit' =>
          simp only [Except.ok.injEq, Prod.mk.injEq] at h h'
          obtain ⟨-, rfl⟩ := h
          obtain ⟨-, rfl⟩ := h'
          obtain ⟨hentries, hfits⟩ := emitAll_entries features
            (by simp [asReceived]) hemit
          obtain ⟨hentries', hfits'⟩ := emitAll_entries features
            (by simp [asReceived]) hemit'
          have hout : out.map metadata = out'.map metadata :=
            emitAll_metadata features (by
              rw [map_metadata_landed, map_metadata_landed, hmeta])
              hemit hemit'
          rw [sameReport_iff hfits hfits', map_packet_eq_iff, hentries,
            hentries', landedBufs, landedBufs]
          exact and_iff_left hout
      · simp at h'
  · simp at h

theorem map_metadata_clear (batch : RecvBatchRaw bufSize) :
    batch.clear.slots.map metadata =
      List.replicate batch.capacity (none, none) := by
  have hclear : metadata ∘ @RecvSlot.clear bufSize =
      fun _ => (none, none) := rfl
  rw [RecvBatchRaw.clear, List.map_map, hclear, List.map_const']
  rfl

/-- Any two batches of this shape, cleared, report the same after a successful
receive. -/
def ReportsAlike (features : Features) (host : Host) (bufSize capacity : Nat)
    (os : Os) : Prop :=
  ∀ (first second first' second' : RecvBatchRaw bufSize) (n m : Nat)
    (os' os'' : Os), first.capacity = capacity → second.capacity = capacity →
    tryRecvBatch features host first.clear os = (.ok (.ok n, first'), os') →
    tryRecvBatch features host second.clear os =
      (.ok (.ok m, second'), os'') →
    SameReport first' second'

def messagesFor (bufSize capacity : Nat) (os : Os) : List Datagram :=
  recvDatagrams (.withCapacity capacity bufSize : RecvBatchRaw bufSize) os

theorem recvDatagrams_eq_messagesFor (batch : RecvBatchRaw bufSize) (os : Os) :
    recvDatagrams batch.clear os = messagesFor bufSize batch.capacity os := by
  simp [messagesFor, recvDatagrams, recvAnswers]

theorem tryRecvBatch_clear_eq (features : Features) (host : Host)
    {batch : RecvBatchRaw bufSize} {os : Os} (hcap : 0 < batch.capacity)
    (h : os.hasRecvmmsg = true)
    (hsome : messagesFor bufSize batch.capacity os ≠ []) :
    (tryRecvBatch features host batch.clear os).1 =
      delivered features batch.clear
        (messagesFor bufSize batch.capacity os) := by
  have hcap' : 0 < batch.clear.capacity := by rwa [clear_capacity]
  rw [← recvDatagrams_eq_messagesFor] at hsome ⊢
  rw [tryRecvBatch_of_recvmmsg features host hcap' h]
  cases hresult : recvManyResult (vlen batch.clear.capacity)
      (recvAnswers batch.clear os) with
  | error fault => exact absurd (recvManyResult_error hresult).1 hsome
  | ok datagrams =>
      simp only [(recvManyResult_length hresult).1]
      rfl

theorem tryRecvBatch_clear_ok {features : Features} {host : Host}
    {batch batch' : RecvBatchRaw bufSize} {os os' : Os} {n : Nat}
    (hcap : 0 < batch.capacity) (h : os.hasRecvmmsg = true)
    (hok : tryRecvBatch features host batch.clear os =
      (.ok (.ok n, batch'), os')) :
    delivered features batch.clear
      (messagesFor bufSize batch.capacity os) = .ok (.ok n, batch') := by
  have hcap' : 0 < batch.clear.capacity := by rwa [clear_capacity]
  rw [tryRecvBatch_of_recvmmsg features host hcap' h, Prod.mk.injEq] at hok
  cases hresult : recvManyResult (vlen batch.clear.capacity)
      (recvAnswers batch.clear os) with
  | error fault =>
      rw [hresult] at hok
      simp at hok
  | ok datagrams =>
      rw [hresult] at hok
      rw [← recvDatagrams_eq_messagesFor, recvDatagrams,
        ← (recvManyResult_length hresult).1]
      exact hok.1

def cutPacket (bufSize : Nat) (datagram : Datagram) : Packet :=
  { barePacket bufSize datagram with
    data := (datagram.payload.take bufSize).take
      (min bufSize datagram.payload.length % 2 ^ 16) }

theorem datagramSlot_shows_cut (datagram : Datagram) :
    Shows bufSize datagramSlot datagram (cutPacket bufSize datagram) := by
  intro slot
  have hlen : (UInt16.ofNat (min bufSize datagram.payload.length)).toNat =
      min bufSize datagram.payload.length % 2 ^ 16 := UInt16.toNat_ofNat'
  have hle := Nat.mod_le (min bufSize datagram.payload.length) (2 ^ 16)
  have hfront : min bufSize datagram.payload.length % 2 ^ 16 ≤
      (datagram.payload.take bufSize).length := by
    rw [List.length_take]
    exact hle
  constructor
  · simp only [datagramSlot, RecvSlot.packet, RecvSlot.payload,
      RecvSlot.writeBuf, RecvSlot.clear, hlen, writePrefix,
      List.take_append_of_le_length hfront, cutPacket, barePacket]
  · rw [datagramSlot, hlen]
    exact hle.trans (Nat.min_le_left _ _)

theorem fallbackRecv_clear_ok {host : Host}
    {batch batch' : RecvBatchRaw bufSize} {os os' : Os} {n : Nat}
    (hok : fallbackRecv host batch.clear os = (.ok (.ok n, batch'), os')) :
    ∃ filled rest, batch' = ⟨filled ++ rest, filled.length⟩ ∧
      (∀ slot ∈ filled, slot.recvLen.toNat ≤ bufSize) ∧
      filled.map RecvSlot.packet =
        (granted batch.capacity os.recvScript).map (cutPacket bufSize) := by
  rw [fallbackRecv_eq, Prod.mk.injEq, Except.ok.injEq, Prod.mk.injEq,
    clear_capacity] at hok
  obtain ⟨⟨-, rfl⟩, -⟩ := hok
  have hlen := granted_length_le batch.capacity os.recvScript
  generalize granted batch.capacity os.recvScript = datagrams at hlen ⊢
  have hshows : ∀ datagram ∈ datagrams, Shows bufSize datagramSlot datagram
      (cutPacket bufSize datagram) :=
    fun datagram _ => datagramSlot_shows_cut datagram
  obtain ⟨hpackets, hfits⟩ := zipWith_shows hshows hlen
  refine ⟨List.zipWith datagramSlot datagrams batch.clear.slots,
    batch.clear.slots.drop datagrams.length, ?_, hfits, hpackets⟩
  have hcount : datagrams.length ≤ batch.clear.slots.length := by
    rw [← RecvBatchRaw.capacity, clear_capacity]
    exact hlen
  rw [stored_eq_fillSlots, fillSlots, List.length_zipWith,
    Nat.min_eq_left hcount]
  split
  · next hnil => simp [hnil, RecvBatchRaw.clear]
  · rfl

theorem reportsAlike_zero (features : Features) (host : Host) (bufSize : Nat)
    (os : Os) : ReportsAlike features host bufSize 0 os := by
  intro first second first' second' n m os' os'' hfirst hsecond hok hok'
  simp only [tryRecvBatch, clear_capacity, hfirst, hsecond, if_true,
    Prod.mk.injEq, Except.ok.injEq] at hok hok'
  obtain ⟨⟨-, rfl⟩, -⟩ := hok
  obtain ⟨⟨-, rfl⟩, -⟩ := hok'
  exact ⟨rfl, fun i hi => absurd hi (Nat.not_lt_zero i)⟩

theorem reportsAlike_of_enosys (features : Features) (host : Host)
    (bufSize capacity : Nat) {os : Os} (h : os.hasRecvmmsg = false) :
    ReportsAlike features host bufSize capacity os := by
  rcases Nat.eq_zero_or_pos capacity with rfl | hcap
  · exact reportsAlike_zero features host bufSize os
  · intro first second first' second' n m os' os'' hfirst hsecond hok hok'
    rw [tryRecvBatch_of_enosys features host (by simpa [hfirst]) h] at hok
    rw [tryRecvBatch_of_enosys features host (by simpa [hsecond]) h] at hok'
    obtain ⟨filled, rest, rfl, hfits, hpackets⟩ := fallbackRecv_clear_ok hok
    obtain ⟨filled', rest', rfl, hfits', hpackets'⟩ :=
      fallbackRecv_clear_ok hok'
    rw [sameReport_iff hfits hfits', hpackets, hpackets', hfirst, hsecond]

theorem filledBatch_clear (capacity bufSize : Nat) (byte : UInt8) :
    (filledBatch capacity bufSize byte).clear =
      filledBatch capacity bufSize byte := by
  simp [filledBatch, RecvBatchRaw.clear, RecvSlot.clear, RecvSlot.zeroed]

theorem delivered_of_room (features : Features)
    (batch : RecvBatchRaw bufSize) {datagrams : List Datagram}
    (h : totalSlots features bufSize datagrams.dropLast < batch.capacity) :
    ∃ n batch', delivered features batch datagrams = .ok (.ok n, batch') := by
  have hpanic := (delivered_no_panic_iff features batch datagrams).mpr (.inr h)
  unfold delivered at hpanic ⊢
  split
  · exact ⟨_, _, rfl⟩
  · next hnone => simp [hnone] at hpanic

theorem filledBatch_received (features : Features) (host : Host)
    {capacity : Nat} {os : Os} (h : os.hasRecvmmsg = true)
    (hsome : messagesFor bufSize capacity os ≠ [])
    (hroom : totalSlots features bufSize
      (messagesFor bufSize capacity os).dropLast < capacity) (byte : UInt8) :
    ∃ n batch',
      delivered features (filledBatch capacity bufSize byte)
        (messagesFor bufSize capacity os) = .ok (.ok n, batch') ∧
      (tryRecvBatch features host (filledBatch capacity bufSize byte).clear
        os).1 = .ok (.ok n, batch') := by
  obtain ⟨n, batch', hdelivered⟩ := delivered_of_room features
    (filledBatch capacity bufSize byte) (by simpa using hroom)
  have hcall := @tryRecvBatch_clear_eq bufSize features host
    (filledBatch capacity bufSize byte) os
    (by rw [filledBatch_capacity]; omega) h (by simpa using hsome)
  rw [filledBatch_capacity, filledBatch_clear] at hcall
  exact ⟨n, batch', hdelivered, by rw [filledBatch_clear, hcall, hdelivered]⟩

theorem covered_of_reportsAlike {features : Features} {host : Host}
    {bufSize capacity : Nat} {os : Os}
    (alike : ReportsAlike features host bufSize capacity os)
    (h : os.hasRecvmmsg = true)
    (hroom : totalSlots features bufSize
      (messagesFor bufSize capacity os).dropLast < capacity) :
    Covered features bufSize capacity (messagesFor bufSize capacity os) := by
  by_cases hnone : messagesFor bufSize capacity os = []
  · rw [hnone]
    exact covered_nil features bufSize capacity
  · have hcall := filledBatch_received features host h hnone hroom
    rcases hcall 0 with ⟨n, zeros, hzeros, hfirst⟩
    rcases hcall 1 with ⟨m, ones, hones, hsecond⟩
    have hsame := alike _ _ zeros ones n m _ _
      (filledBatch_capacity capacity bufSize 0)
      (filledBatch_capacity capacity bufSize 1) (Prod.ext hfirst rfl)
      (Prod.ext hsecond rfl)
    have hmeta : (filledBatch capacity bufSize 0).slots.map metadata =
        (filledBatch capacity bufSize 1).slots.map metadata := by
      simp [filledBatch, metadata]
    rw [delivered_sameReport_iff hmeta hzeros hones] at hsame
    exact covered_of_readBack (.inr hroom) hsame

theorem reportsAlike_of_covered {features : Features} {host : Host}
    {bufSize capacity : Nat} {os : Os} (hcap : 0 < capacity)
    (h : os.hasRecvmmsg = true)
    (hcovered : totalSlots features bufSize
        (messagesFor bufSize capacity os).dropLast < capacity →
      Covered features bufSize capacity (messagesFor bufSize capacity os)) :
    ReportsAlike features host bufSize capacity os := by
  intro first second first' second' n m os' os'' hfirst hsecond hok hok'
  have hdelivered := tryRecvBatch_clear_ok (by rwa [hfirst]) h hok
  have hdelivered' := tryRecvBatch_clear_ok (by rwa [hsecond]) h hok'
  rw [hfirst] at hdelivered
  rw [hsecond] at hdelivered'
  obtain ⟨-, -, -, hroom⟩ := delivered_ok hdelivered
  rw [clear_capacity, hfirst] at hroom
  have hmeta : first.clear.slots.map metadata =
      second.clear.slots.map metadata := by
    rw [map_metadata_clear, map_metadata_clear, hfirst, hsecond]
  rw [delivered_sameReport_iff hmeta hdelivered hdelivered']
  apply readBack_of_covered
  · rw [clear_capacity, clear_capacity, hfirst, hsecond]
  · rw [clear_capacity, hfirst]
    rcases hroom with hnone | hroom
    · rw [hnone]
      exact covered_nil features bufSize capacity
    · exact hcovered hroom

/-- What a receive on Linux reports is the same for all cleared batches of a
shape exactly when the messages cover the bytes that they show. -/
theorem reportsAlike_iff (features : Features) (host : Host)
    (bufSize capacity : Nat) (os : Os) :
    ReportsAlike features host bufSize capacity os ↔
      (os.hasRecvmmsg = true →
        totalSlots features bufSize
          (messagesFor bufSize capacity os).dropLast < capacity →
        Covered features bufSize capacity
          (messagesFor bufSize capacity os)) := by
  constructor
  · intro alike h hroom
    exact covered_of_reportsAlike alike h hroom
  · intro hcovered
    cases h : os.hasRecvmmsg with
    | false => exact reportsAlike_of_enosys features host bufSize capacity h
    | true =>
        rcases Nat.eq_zero_or_pos capacity with rfl | hcap
        · exact reportsAlike_zero features host bufSize os
        · exact reportsAlike_of_covered hcap h (hcovered h)

/-- The message behind a coalesced one is read from a slot that was not written:
it shows what the batch held before. -/
theorem coalesced_shows_old_bytes :
    ¬ ReportsAlike groOnly ⟨.linux, .little⟩ 4 3 coalescedOs := by
  intro alike
  have hcall : ∀ byte, tryRecvBatch groOnly ⟨.linux, .little⟩
      (filledBatch 3 4 byte).clear coalescedOs = _ := fun byte =>
    tryRecvBatch_of_recvmmsg groOnly ⟨.linux, .little⟩ (by simp) rfl
  have hsame := alike (filledBatch 3 4 0) (filledBatch 3 4 1) _ _ 3 3 _ _ rfl
    rfl (hcall 0) (hcall 1)
  exact absurd (hsame.observe 2 (by decide)) (by decide)

end Linux

end Binger.Platform
