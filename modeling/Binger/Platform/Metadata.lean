import Binger.Platform.Chunking

/-!
# Timestamps and destination addresses

The walk over the control messages stores what it finds and nothing else, and
`recvfrom` returns no control messages at all.  So a slot keeps its metadata
when a message without any arrives in it.  Without coalescing, the metadata of
a packet is its own exactly when the slot held none or the message brings its
own.
-/

namespace Binger.Platform

open Binger.Foundation Binger.Sockaddr

variable {bufSize : Nat}

/-! ## Metadata of a message -/

structure Reports {β : Type} (read : Cmsg → Option β) (control : List Cmsg)
    (value : Option β) : Prop where
  isSome_iff : value.isSome ↔ ∃ cmsg ∈ control, (read cmsg).isSome
  carried : ∀ found, value = some found →
    ∃ cmsg ∈ control, read cmsg = some found

def Replaces {β : Type} (read : Cmsg → Option β) (control : List Cmsg)
    (old : Option β) : Prop :=
  old = none ∨ ∃ cmsg ∈ control, (read cmsg).isSome

theorem lastOf_eq_none_iff {β : Type} (read : Cmsg → Option β)
    (control : List Cmsg) :
    lastOf read control = none ↔ ∀ cmsg ∈ control, read cmsg = none := by
  simp [lastOf]

theorem mem_of_lastOf {β : Type} {read : Cmsg → Option β}
    {control : List Cmsg} {value : β} (h : lastOf read control = some value) :
    ∃ cmsg ∈ control, read cmsg = some value :=
  List.mem_filterMap.mp (List.mem_of_getLast? h)

theorem reports_lastOf_iff {β : Type} (read : Cmsg → Option β)
    (control : List Cmsg) (old : Option β) :
    Reports read control (lastOf read control <|> old) ↔
      Replaces read control old := by
  cases hlast : lastOf read control with
  | some value =>
      obtain ⟨cmsg, hmem, hread⟩ := mem_of_lastOf hlast
      have hsome : ∃ cmsg ∈ control, (read cmsg).isSome :=
        ⟨cmsg, hmem, by simp [hread]⟩
      refine iff_of_true ⟨by simp [hsome], ?_⟩ (.inr hsome)
      intro found hfound
      obtain rfl : value = found := by simpa using hfound
      exact ⟨cmsg, hmem, hread⟩
  | none =>
      have hnone : ¬ ∃ cmsg ∈ control, (read cmsg).isSome := by
        rintro ⟨cmsg, hmem, hsome⟩
        simp [(lastOf_eq_none_iff read control).mp hlast cmsg hmem] at hsome
      have hold : (none <|> old) = old := by cases old <;> rfl
      rw [hold]
      constructor
      · intro reports
        have hiff := reports.isSome_iff
        rw [iff_false_right hnone, Option.not_isSome_iff_eq_none] at hiff
        exact .inl hiff
      · intro replaces
        obtain rfl := replaces.resolve_right hnone
        exact ⟨by simp [hnone], by simp⟩

/-! ## The messages of a receive -/

namespace Linux

def messages (batch : RecvBatchRaw bufSize) (os : Os) : List Datagram :=
  if os.hasRecvmmsg then recvDatagrams batch os
  else (granted batch.capacity os.recvScript).map fun datagram =>
    { datagram with control := [] }

def Completes (batch : RecvBatchRaw bufSize) (os : Os) : Prop :=
  os.hasRecvmmsg = false → ∀ fault,
    refusal .wouldBlock batch.capacity os.recvScript = some fault →
    fault = .wouldBlock

theorem messages_length_le (batch : RecvBatchRaw bufSize) (os : Os) :
    (messages batch os).length ≤ batch.capacity := by
  unfold messages
  split
  · exact (granted_length_le _ _).trans (vlen_le _)
  · rw [List.length_map]
    exact granted_length_le _ _

theorem stored_strip (features : Features) (datagrams : List Datagram)
    (slots : List (RecvSlot bufSize)) :
    stored datagrams slots = fillSlots (plainSlot features)
      (datagrams.map fun datagram => { datagram with control := [] })
      slots := by
  have hfill : ∀ datagram : Datagram,
      (plainSlot features { datagram with control := [] } :
        RecvSlot bufSize → RecvSlot bufSize) = datagramSlot datagram := by
    intro datagram
    rw [plainSlot_eq_datagramSlot features rfl]
    rfl
  rw [stored_eq_fillSlots, fillSlots, fillSlots, List.zipWith_map_left,
    List.length_map]
  simp only [hfill]

theorem tryRecvBatch_messages (features : Features) (host : Host)
    (batch : RecvBatchRaw bufSize) (os : Os)
    (hgro : ∀ message ∈ messages batch os,
      groSize features message.control = 0) :
    (∃ len, Completes batch os ∧
      (tryRecvBatch features host batch os).1 =
        .ok (.ok (messages batch os).length,
          ⟨fillSlots (plainSlot features) (messages batch os) batch.slots,
            len⟩)) ∨
    ∃ error batch', (Completes batch os → messages batch os = []) ∧
      (tryRecvBatch features host batch os).1 = .ok (.error error, batch') := by
  rcases Nat.eq_zero_or_pos batch.capacity with hzero | hcap
  · have hnone := List.eq_nil_of_length_eq_zero
      (Nat.le_zero.mp (hzero ▸ messages_length_le batch os))
    refine .inl ⟨batch.len, ?_, ?_⟩
    · simp [Completes, hzero]
    · simp [tryRecvBatch, hzero, hnone]
  · cases h : os.hasRecvmmsg with
    | false =>
        have hmessages : messages batch os =
            (granted batch.capacity os.recvScript).map fun datagram =>
              { datagram with control := [] } := by
          simp [messages, h]
        rw [tryRecvBatch_of_enosys features host hcap h, fallbackRecv_eq,
          hmessages, ← stored_strip, List.length_map]
        by_cases hdone : ∀ fault, refusal .wouldBlock batch.capacity
            os.recvScript = some fault → fault = .wouldBlock
        · have hresult := perPacketRecvResult_eq_ok_iff.mpr ⟨rfl, hdone⟩
          exact .inl ⟨_, fun _ => hdone, by rw [hresult]⟩
        · obtain ⟨error, herror⟩ := (@perPacketRecvResult_fails_iff 0).mpr hdone
          exact .inr ⟨error, _, fun hall => absurd (hall h) hdone,
            by rw [herror]⟩
    | true =>
        have hmessages : messages batch os = recvDatagrams batch os := by
          simp [messages, h]
        rw [hmessages] at hgro ⊢
        rw [tryRecvBatch_of_recvmmsg features host hcap h]
        cases hresult : recvManyResult (vlen batch.capacity)
            (recvAnswers batch os) with
        | error fault =>
            exact .inr ⟨_, _, fun _ => (recvManyResult_error hresult).1, rfl⟩
        | ok datagrams =>
            obtain ⟨hgranted, hlen⟩ := recvManyResult_length hresult
            rw [recvDatagrams, ← hgranted] at hgro ⊢
            refine .inl ⟨_, fun hmissing => ?_,
              delivered_plain features hgro (hlen.trans (vlen_le _))⟩
            simp [h] at hmissing

/-! ## Metadata of a packet -/

/-- Every packet of a successful receive reports the metadata of its own
message.  Each accessor exists with its feature only. -/
def OwnMetadata (features : Features) (messages : List Datagram)
    (outcome : RecvOutcome bufSize) : Prop :=
  ∀ n batch', outcome = .ok (.ok n, batch') → ∀ i < n,
    ∃ message, messages[i]? = some message ∧
      (features.timestamping = true → ∃ value,
        batch'.timestamp i = .ok value ∧
        Reports readTimestamp message.control value) ∧
      (features.pktinfo = true → ∃ value,
        batch'.dstAddr i = .ok value ∧
        Reports readDstAddr message.control value)

/-- No message finds metadata in its slot that it does not replace. -/
def FreshMetadata (features : Features) (messages : List Datagram)
    (batch : RecvBatchRaw bufSize) : Prop :=
  ∀ (i : Nat) (message : Datagram) (slot : RecvSlot bufSize),
    messages[i]? = some message → batch.slots[i]? = some slot →
    (features.timestamping = true →
      Replaces readTimestamp message.control slot.timestamp) ∧
    (features.pktinfo = true →
      Replaces readDstAddr message.control slot.dstAddr)

theorem plainSlot_reports_iff (features : Features) (message : Datagram)
    (slot : RecvSlot bufSize) :
    (features.timestamping = true → Reports readTimestamp message.control
        (plainSlot features message slot).timestamp) ∧
      (features.pktinfo = true → Reports readDstAddr message.control
        (plainSlot features message slot).dstAddr) ↔
      (features.timestamping = true →
        Replaces readTimestamp message.control slot.timestamp) ∧
      (features.pktinfo = true →
        Replaces readDstAddr message.control slot.dstAddr) := by
  have htimestamp : features.timestamping = true →
      (plainSlot features message slot).timestamp =
        (lastOf readTimestamp message.control <|> slot.timestamp) := by
    intro h
    simp [plainSlot, messageSlot, annotate, h, asReceived, RecvSlot.writeBuf]
  have hdst : features.pktinfo = true →
      (plainSlot features message slot).dstAddr =
        (lastOf readDstAddr message.control <|> slot.dstAddr) := by
    intro h
    simp [plainSlot, messageSlot, annotate, h, asReceived, RecvSlot.writeBuf]
  apply and_congr
  · apply forall_congr'
    intro h
    rw [htimestamp h]
    exact reports_lastOf_iff readTimestamp message.control slot.timestamp
  · apply forall_congr'
    intro h
    rw [hdst h]
    exact reports_lastOf_iff readDstAddr message.control slot.dstAddr

theorem slot_fillSlots {fill : Datagram → RecvSlot bufSize → RecvSlot bufSize}
    {messages : List Datagram} {slots : List (RecvSlot bufSize)} (len : Nat)
    {i : Nat} {message : Datagram} {slot : RecvSlot bufSize}
    (hmessage : messages[i]? = some message) (hslot : slots[i]? = some slot) :
    RecvBatchRaw.slot ⟨fillSlots fill messages slots, len⟩ i =
      .ok (fill message slot) := by
  have hzip : (List.zipWith fill messages slots)[i]? =
      some (fill message slot) := by
    simp [List.getElem?_zipWith, hmessage, hslot]
  obtain ⟨hi, -⟩ := List.getElem?_eq_some_iff.mp hzip
  simp [RecvBatchRaw.slot, fillSlots, List.getElem?_append_left hi, hzip]

theorem ownMetadata_filled_iff (features : Features)
    {messages : List Datagram} {batch : RecvBatchRaw bufSize} (len : Nat)
    (hlen : messages.length ≤ batch.capacity) :
    OwnMetadata features messages (.ok (.ok messages.length,
        ⟨fillSlots (plainSlot features) messages batch.slots, len⟩)) ↔
      FreshMetadata features messages batch := by
  constructor
  · intro own i message slot hmessage hslot
    obtain ⟨hi, -⟩ := List.getElem?_eq_some_iff.mp hmessage
    obtain ⟨found, hfound, htimestamp, hdst⟩ := own _ _ rfl i hi
    obtain rfl : message = found := by simpa [hmessage] using hfound
    rw [RecvBatchRaw.timestamp, slot_fillSlots len hmessage hslot]
      at htimestamp
    rw [RecvBatchRaw.dstAddr, slot_fillSlots len hmessage hslot] at hdst
    rw [← plainSlot_reports_iff]
    refine ⟨fun h => ?_, fun h => ?_⟩
    · obtain ⟨value, hvalue, reports⟩ := htimestamp h
      obtain rfl : _ = value := by
        simpa [bind, Except.bind, pure, Except.pure] using hvalue
      exact reports
    · obtain ⟨value, hvalue, reports⟩ := hdst h
      obtain rfl : _ = value := by
        simpa [bind, Except.bind, pure, Except.pure] using hvalue
      exact reports
  · intro fresh n batch' hok i hi
    obtain ⟨rfl, rfl⟩ : messages.length = n ∧
        (⟨fillSlots (plainSlot features) messages batch.slots, len⟩ :
          RecvBatchRaw bufSize) = batch' := by
      simpa using hok
    have hi' : i < batch.slots.length := hi.trans_le hlen
    have hmessage := List.getElem?_eq_getElem hi
    have hslot := List.getElem?_eq_getElem hi'
    obtain ⟨htimestamp, hdst⟩ := (plainSlot_reports_iff features _ _).mpr
      (fresh i _ _ hmessage hslot)
    refine ⟨_, hmessage, fun h => ⟨_, ?_, htimestamp h⟩,
      fun h => ⟨_, ?_, hdst h⟩⟩
    · rw [RecvBatchRaw.timestamp, slot_fillSlots len hmessage hslot]
      rfl
    · rw [RecvBatchRaw.dstAddr, slot_fillSlots len hmessage hslot]
      rfl

theorem freshMetadata_clear (features : Features) (messages : List Datagram)
    (batch : RecvBatchRaw bufSize) :
    FreshMetadata features messages batch.clear := by
  intro i message slot _ hslot
  obtain ⟨old, -, rfl⟩ : ∃ old, batch.slots[i]? = some old ∧
      old.clear = slot := by
    simpa [RecvBatchRaw.clear] using hslot
  exact ⟨fun _ => .inl rfl, fun _ => .inl rfl⟩

/-- Without coalesced messages, the packets of a receive report their own
metadata exactly when every slot to be filled is free of older metadata that
its message does not replace. -/
theorem tryRecvBatch_ownMetadata_iff (features : Features) (host : Host)
    {batch : RecvBatchRaw bufSize} {os : Os}
    (hplain : ∀ message ∈ messages batch os,
      ∀ size, .udpGro size ∉ message.control) :
    OwnMetadata features (messages batch os)
        (tryRecvBatch features host batch os).1 ↔
      (Completes batch os →
        FreshMetadata features (messages batch os) batch) := by
  have hgro : ∀ message ∈ messages batch os,
      groSize features message.control = 0 :=
    fun message hmem => groSize_of_not_mem features (hplain message hmem)
  rcases tryRecvBatch_messages features host batch os hgro with
    ⟨len, hdone, hcall⟩ | ⟨error, batch', hnone, hcall⟩
  · rw [hcall, ownMetadata_filled_iff features len
      (messages_length_le batch os)]
    exact ⟨fun fresh _ => fresh, fun fresh => fresh hdone⟩
  · apply iff_of_true
    · intro n batch'' hok
      simp [hcall] at hok
    · intro hdone i message slot hmessage
      simp [hnone hdone] at hmessage

def allFeatures : Features := ⟨true, true, true⟩

def stampedOs : Os :=
  { plainOs with recvScript := stampedQueue.map .ok }

theorem cleared_batch_reports_own_metadata :
    OwnMetadata allFeatures
      (messages (RecvBatchRaw.clear (.withCapacity 2 4)) stampedOs)
      (tryRecvBatch allFeatures ⟨.linux, .little⟩
        (RecvBatchRaw.clear (.withCapacity 2 4)) stampedOs).1 :=
  (@tryRecvBatch_ownMetadata_iff 4 allFeatures ⟨.linux, .little⟩
    (RecvBatchRaw.clear (.withCapacity 2 4)) stampedOs (by
      have hmessages : messages (RecvBatchRaw.clear (.withCapacity 2 4))
          stampedOs = stampedQueue := rfl
      rw [hmessages]
      simp [stampedQueue])).mpr
    fun _ => freshMetadata_clear allFeatures _ _

def stampedBatch : RecvBatchRaw 4 where
  slots := [
    { RecvSlot.writeBuf [1, 2, 3] (.zeroed 4) with
      recvLen := 3
      timestamp := some ⟨5, 6⟩ }]
  len := 1

def unstampedOs : Os :=
  { stampedOs with recvScript := (stampedQueue.drop 1).map .ok }

/-- A batch that is not cleared: the second packet has no timestamp and reports
that of the first one. -/
theorem second_receive_reports_old_timestamp :
    tryRecvBatch allFeatures ⟨.linux, .little⟩ (.withCapacity 1 4)
        stampedOs = (.ok (.ok 1, stampedBatch), unstampedOs) ∧
      messages stampedBatch unstampedOs = [⟨[4], .unspecified, []⟩] ∧
      ¬ OwnMetadata allFeatures (messages stampedBatch unstampedOs)
        (tryRecvBatch allFeatures ⟨.linux, .little⟩ stampedBatch
          unstampedOs).1 := by
  have hcap : 0 < RecvBatchRaw.capacity (.withCapacity 1 4) := by decide
  have hfirst := tryRecvBatch_of_recvmmsg allFeatures ⟨.linux, .little⟩ hcap
    (show stampedOs.hasRecvmmsg = true from rfl)
  refine ⟨hfirst, rfl, fun own => ?_⟩
  rw [tryRecvBatch_of_recvmmsg allFeatures ⟨.linux, .little⟩ (by decide) rfl]
    at own
  obtain ⟨message, hmessage, htimestamp, -⟩ := own 1 _ rfl 0 Nat.one_pos
  obtain ⟨value, hvalue, reports⟩ := htimestamp rfl
  obtain rfl : ⟨[4], .unspecified, []⟩ = message := Option.some.inj hmessage
  obtain rfl : some ⟨5, 6⟩ = value := Except.ok.inj hvalue
  simpa using reports.isSome_iff

end Linux

end Binger.Platform
