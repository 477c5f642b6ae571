import Binger.Platform.Leftovers
import Binger.Platform.Metadata

/-!
# Metadata of the packets of coalesced messages

A coalesced message fills several slots, and each of them shows the timestamp
and the destination of the message.  In a cleared batch the metadata of every
packet is then that of the message it was cut from, also where the bytes of the
packet are those of another message.  A coalesced message without bytes fills no
slot and would leave its metadata to the next one; the kernel sends none.
-/

namespace Binger.Platform

open Binger.Foundation Binger.Sockaddr

variable {bufSize : Nat}

/-! ## One message -/

/-- The metadata that a message brings, as far as the build asks for it. -/
def carried (features : Features) (control : List Cmsg) :
    Option Timestamp × Option SocketAddr :=
  (if features.timestamping then lastOf readTimestamp control else none,
    if features.pktinfo then lastOf readDstAddr control else none)

def Blank (slot : RecvSlot bufSize) : Prop := metadata slot = (none, none)

theorem metadata_messageSlot_of_blank (features : Features)
    (message : Received) {slot : RecvSlot bufSize} (h : Blank slot) :
    metadata (messageSlot features message slot) =
      carried features message.control := by
  simp only [Blank, metadata, Prod.mk.injEq] at h
  simp [metadata, messageSlot, annotate, carried, h.1, h.2]

theorem metadata_segmentSlot_of_blank {features : Features}
    {control : List Cmsg} {first slot : RecvSlot bufSize}
    (hfirst : metadata first = carried features control) (h : Blank slot)
    (addr : SocketAddr) (segment : List UInt8) :
    metadata (segmentSlot features addr first segment slot) =
      carried features control := by
  simp only [Blank, metadata, carried, Prod.mk.injEq] at h hfirst
  simp only [metadata, segmentSlot, carried, Prod.mk.injEq]
  refine ⟨?_, ?_⟩
  · split
    · next hon => rw [hfirst.1, if_pos hon]
    · exact h.1
  · split
    · next hon => rw [hfirst.2, if_pos hon]
    · exact h.2

theorem emit_carried (features : Features) {message : Received}
    (hcount : slotCount features message ≠ 0)
    (hlen : message.msgLen ≤ bufSize) {slot : RecvSlot bufSize}
    (hslot : Blank slot) {rest : List (RecvSlot bufSize)}
    (hrest : ∀ slot ∈ rest, Blank slot) :
    (∀ filled ∈ (emit features message slot rest).1,
        metadata filled = carried features message.control) ∧
      ∀ left ∈ (emit features message slot rest).2, Blank left := by
  have hfirst := metadata_messageSlot_of_blank features message hslot
  rw [emit]
  split
  · exact ⟨by simpa using hfirst, hrest⟩
  · next hsize =>
      split
      · next hnone =>
          have hzero := congrArg List.length hnone
          rw [slotCount, if_neg hsize] at hcount
          simp [slot.buf.2, Nat.min_eq_left hlen] at hzero
          exact absurd hzero hcount
      · next segment further hsegments =>
          refine ⟨?_, fun left hmem => hrest left (List.mem_of_mem_drop hmem)⟩
          rw [List.forall_mem_cons]
          refine ⟨hfirst, ?_⟩
          intro filled hmem
          rcases List.mem_iff_getElem?.mp hmem with ⟨i, hi⟩
          rw [List.getElem?_zipWith_eq_some] at hi
          rcases hi with ⟨data, left, -, hleft, rfl⟩
          have hblank := hrest left (List.mem_of_getElem? hleft)
          have hshown : metadata (firstSlot features message segment slot) =
              carried features message.control := hfirst
          exact metadata_segmentSlot_of_blank hshown hblank message.addr data

/-! ## A series of messages -/

def carriedAll (features : Features) (messages : List Received) :
    List (Option Timestamp × Option SocketAddr) :=
  messages.flatMap fun message =>
    List.replicate (slotCount features message)
      (carried features message.control)

theorem emitAll_carried (features : Features) {messages : List Received}
    (hcount : ∀ message ∈ messages, slotCount features message ≠ 0)
    (hlen : ∀ message ∈ messages, message.msgLen ≤ bufSize)
    {slots out rest : List (RecvSlot bufSize)}
    (hslots : ∀ slot ∈ slots, Blank slot)
    (h : emitAll features messages slots = some (out, rest)) :
    out.map metadata <+: carriedAll features messages := by
  induction messages generalizing slots out rest with
  | nil =>
      obtain ⟨rfl, -⟩ : [] = out ∧ slots = rest := by simpa [emitAll] using h
      exact List.nil_prefix
  | cons message messages ih =>
      cases slots with
      | nil => simp [emitAll] at h
      | cons slot slots =>
          simp only [emitAll, Option.map_eq_some_iff, Prod.mk.injEq] at h
          obtain ⟨⟨tail, rest'⟩, htail, rfl, -⟩ := h
          rw [List.forall_mem_cons] at hcount hlen hslots
          obtain ⟨hfilled, hleft⟩ := emit_carried features hcount.1 hlen.1
            hslots.1 hslots.2
          obtain ⟨hlength, hroom⟩ := emit_lengths features hlen.1 slot slots
          have hmap : (emit features message slot slots).1.map metadata =
              List.replicate (emit features message slot slots).1.length
                (carried features message.control) := by
            rw [List.eq_replicate_iff, List.length_map]
            exact ⟨rfl, List.forall_mem_map.mpr hfilled⟩
          rw [List.map_append, hmap, carriedAll, List.flatMap_cons]
          by_cases hfits : slotCount features message ≤ slots.length + 1
          · rw [hlength, Nat.min_eq_left hfits, List.prefix_append_right_inj]
            exact ih hcount.2 hlen.2 hleft htail
          · -- The message takes all slots, so nothing comes after it.
            have hnone : (emit features message slot slots).2 = [] := by
              apply List.eq_nil_of_length_eq_zero
              omega
            obtain rfl : tail = [] := by
              rw [hnone] at htail
              cases messages with
              | nil =>
                  obtain ⟨hout, -⟩ : [] = tail ∧ [] = rest' := by
                    simpa [emitAll] using htail
                  exact hout.symm
              | cons message messages => simp [emitAll] at htail
            rw [List.map_nil, List.append_nil, hlength,
              Nat.min_eq_right (by omega)]
            refine List.IsPrefix.trans ?_ (List.prefix_append _ _)
            rw [List.prefix_replicate_iff]
            simpa using by omega

/-! ## Receives into a cleared batch -/

namespace Linux

def metadataOf (features : Features) (bufSize : Nat)
    (messages : List Datagram) :
    List (Option Timestamp × Option SocketAddr) :=
  carriedAll features (messages.map (asReceived bufSize))

def ShowsMetadata (batch : RecvBatchRaw bufSize) (i : Nat)
    (value : Option Timestamp × Option SocketAddr) : Prop :=
  batch.timestamp i = .ok value.1 ∧ batch.dstAddr i = .ok value.2

theorem showsMetadata_of_slot {batch : RecvBatchRaw bufSize} {i : Nat}
    {slot : RecvSlot bufSize} (h : batch.slot i = .ok slot) :
    ShowsMetadata batch i (metadata slot) := by
  simp [ShowsMetadata, RecvBatchRaw.timestamp, RecvBatchRaw.dstAddr, h,
    metadata, bind, Except.bind, pure, Except.pure]

theorem blank_of_mem_clear {batch : RecvBatchRaw bufSize}
    {slot : RecvSlot bufSize} (h : slot ∈ batch.clear.slots) : Blank slot := by
  have hmem : metadata slot ∈ batch.clear.slots.map metadata :=
    List.mem_map_of_mem h
  rw [map_metadata_clear] at hmem
  exact List.eq_of_mem_replicate hmem

theorem slotCount_ne_zero {features : Features} {message : Datagram}
    (h : groSize features message.control ≠ 0 →
      returned bufSize message ≠ []) :
    slotCount features (asReceived bufSize message) ≠ 0 := by
  rw [slotCount]
  split
  · exact Nat.one_ne_zero
  · next hsize =>
      have hpos : 0 < (asReceived bufSize message).msgLen := by
        rw [← returned_length]
        exact List.length_pos_iff.mpr (h hsize)
      rw [segmentCount_sub (Nat.pos_of_ne_zero hsize) hpos]
      exact Nat.succ_ne_zero _

theorem delivered_metadata {features : Features}
    {batch batch' : RecvBatchRaw bufSize} {datagrams : List Datagram}
    (hbytes : ∀ message ∈ datagrams, groSize features message.control ≠ 0 →
      returned bufSize message ≠ []) {n : Nat}
    (h : delivered features batch.clear datagrams = .ok (.ok n, batch')) :
    ∀ i < n, ∃ value,
      (metadataOf features bufSize datagrams)[i]? = some value ∧
      ShowsMetadata batch' i value := by
  have hslots : ∀ slot ∈ landed datagrams batch.clear.slots,
      Blank slot := by
    intro slot hmem
    have hmetadata : metadata slot ∈ batch.clear.slots.map metadata := by
      rw [← map_metadata_landed datagrams]
      exact List.mem_map_of_mem hmem
    rw [map_metadata_clear] at hmetadata
    exact List.eq_of_mem_replicate hmetadata
  unfold delivered at h
  split at h
  · next out rest hemit =>
      cases h
      obtain ⟨further, hshown⟩ := emitAll_carried features
        (List.forall_mem_map.mpr fun message hmem =>
          slotCount_ne_zero (hbytes message hmem))
        (by simp [asReceived]) hslots hemit
      intro i hi
      refine ⟨metadata out[i], ?_, ?_⟩
      · rw [metadataOf, ← hshown,
          List.getElem?_append_left (by simpa using hi)]
        simp [hi]
      · exact showsMetadata_of_slot (RecvBatchRaw.slot_filled out rest _ hi)
  · cases h

theorem metadataOf_plain {features : Features} {messages : List Datagram}
    (h : ∀ message ∈ messages, message.control = []) :
    metadataOf features bufSize messages =
      List.replicate messages.length (none, none) := by
  induction messages with
  | nil => rfl
  | cons message messages ih =>
      rw [List.forall_mem_cons] at h
      have hcontrol : (asReceived bufSize message).control = [] := h.1
      have hrest := ih h.2
      rw [metadataOf, carriedAll] at hrest
      rw [metadataOf, carriedAll, List.map_cons, List.flatMap_cons, hrest]
      simp [slotCount, carried, hcontrol, lastOf, List.replicate_succ]

theorem enosys_metadata {features : Features} {host : Host}
    {batch batch' : RecvBatchRaw bufSize} {os : Os}
    (hmmsg : os.hasRecvmmsg = false) {n : Nat}
    (h : (tryRecvBatch features host batch.clear os).1 =
      .ok (.ok n, batch')) :
    n = (messages batch.clear os).length ∧
      ∀ i < n, ShowsMetadata batch' i (none, none) := by
  have hcontrol : ∀ message ∈ messages batch.clear os,
      message.control = [] := by
    simp [messages, hmmsg]
  have hgro : ∀ message ∈ messages batch.clear os,
      groSize features message.control = 0 := by
    intro message hmem
    rw [hcontrol message hmem]
    exact groSize_of_not_mem features (fun size => List.not_mem_nil)
  rcases tryRecvBatch_messages features host batch.clear os hgro with
    ⟨len, -, hcall⟩ | ⟨error, failed, -, hcall⟩
  · rw [hcall] at h
    cases h
    refine ⟨rfl, ?_⟩
    intro i hi
    have hroom : i < batch.clear.slots.length :=
      hi.trans_le (messages_length_le batch.clear os)
    have hslot := @slot_fillSlots _ (plainSlot features) _ _ len _ _ _
      (List.getElem?_eq_getElem hi) (List.getElem?_eq_getElem hroom)
    have hcleared : Blank batch.clear.slots[i] :=
      blank_of_mem_clear (List.getElem_mem hroom)
    have hblank : Blank (batch.clear.slots[i].writeBuf
        (messages batch.clear os)[i].payload) := hcleared
    have hnone : carried features
        (asReceived bufSize (messages batch.clear os)[i]).control =
          (none, none) := by
      simp [carried, asReceived, hcontrol _ (List.getElem_mem hi), lastOf]
    have hshows := showsMetadata_of_slot hslot
    rwa [plainSlot, metadata_messageSlot_of_blank features _ hblank, hnone]
      at hshows
  · rw [hcall] at h
    cases h

theorem recvmmsg_metadata {features : Features} {host : Host}
    {batch batch' : RecvBatchRaw bufSize} {os : Os}
    (hmmsg : os.hasRecvmmsg = true)
    (hbytes : ∀ message ∈ recvDatagrams batch.clear os,
      groSize features message.control ≠ 0 → returned bufSize message ≠ [])
    {n : Nat}
    (h : (tryRecvBatch features host batch.clear os).1 =
      .ok (.ok n, batch')) :
    ∀ i < n, ∃ value,
      (metadataOf features bufSize (recvDatagrams batch.clear os))[i]? =
        some value ∧
      ShowsMetadata batch' i value := by
  rcases Nat.eq_zero_or_pos batch.capacity with hzero | hcap
  · rw [tryRecvBatch] at h
    simp only [clear_capacity, hzero, if_true] at h
    cases h
    intro i hi
    exact absurd hi (Nat.not_lt_zero i)
  · rw [recvDatagrams_eq_messagesFor] at hbytes ⊢
    exact delivered_metadata hbytes
      (tryRecvBatch_clear_ok hcap hmmsg (Prod.ext h rfl))

/--
Every packet of a receive into a cleared batch shows the timestamp and the
destination of the message that it was cut from, coalesced or not.
-/
theorem tryRecvBatch_clear_metadata {features : Features} {host : Host}
    {batch batch' : RecvBatchRaw bufSize} {os : Os}
    (hbytes : ∀ message ∈ messages batch.clear os,
      groSize features message.control ≠ 0 → returned bufSize message ≠ [])
    {n : Nat}
    (h : (tryRecvBatch features host batch.clear os).1 =
      .ok (.ok n, batch')) :
    ∀ i < n, ∃ value,
      (metadataOf features bufSize (messages batch.clear os))[i]? =
        some value ∧
      ShowsMetadata batch' i value := by
  cases hmmsg : os.hasRecvmmsg with
  | false =>
      obtain ⟨rfl, hshows⟩ := enosys_metadata hmmsg h
      intro i hi
      refine ⟨(none, none), ?_, hshows i hi⟩
      rw [metadataOf_plain (by simp [messages, hmmsg])]
      simp [hi]
  | true =>
      have hmessages : messages batch.clear os =
          recvDatagrams batch.clear os := by
        rw [messages, if_pos hmmsg]
      rw [hmessages] at hbytes ⊢
      exact recvmmsg_metadata hmmsg hbytes h

def stampedPairOs : Os :=
  { plainOs with
    recvScript := [
      .ok ⟨[1, 2], loopbackSource, [.udpGro 1, .scmTimestampns ⟨5, 6⟩]⟩,
      .ok ⟨[9], loopbackSource, []⟩] }

theorem coalesced_packets_share_timestamp :
    ∃ batch', (tryRecvBatch allFeatures ⟨.linux, .little⟩
        (RecvBatchRaw.clear (.withCapacity 3 4)) stampedPairOs).1 =
          .ok (.ok 3, batch') ∧
      ShowsMetadata batch' 1 (some ⟨5, 6⟩, none) ∧
      ShowsMetadata batch' 2 (none, none) := by
  have hcap : 0 < (RecvBatchRaw.clear (.withCapacity 3 4)).capacity := by
    decide
  have hcall := tryRecvBatch_of_recvmmsg allFeatures ⟨.linux, .little⟩ hcap
    (show stampedPairOs.hasRecvmmsg = true from rfl)
  have hmetadata := @tryRecvBatch_clear_metadata 4 allFeatures
    ⟨.linux, .little⟩ (.withCapacity 3 4) _ stampedPairOs (by decide) 3
    (congrArg Prod.fst hcall)
  obtain ⟨first, hfirst, hshown⟩ := hmetadata 1 (by decide)
  obtain ⟨second, hsecond, hshown'⟩ := hmetadata 2 (by decide)
  obtain rfl : (some ⟨5, 6⟩, none) = first := Option.some_inj.mp hfirst
  obtain rfl : (none, none) = second := Option.some_inj.mp hsecond
  exact ⟨_, congrArg Prod.fst hcall, hshown, hshown'⟩

end Linux

end Binger.Platform
