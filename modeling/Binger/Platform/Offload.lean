import Binger.Platform.Gro
import Binger.Platform.SendAttempt

/-!
# Joined datagrams

The receiving kernel may join datagrams of one size into one message, and the
receive loop cuts it again.  A message at the end of a receive comes out as the
datagrams that were joined, so a batch of such datagrams arrives as it was put
on the wire.
-/

namespace Binger.Platform.Linux

open Binger.Foundation Binger.Sockaddr

variable {bufSize : Nat} {features : Features}

/-- A message that the kernel joined from these datagrams. -/
structure Joins (features : Features) (datagrams : List (List UInt8))
    (message : Datagram) : Prop where
  some : datagrams ≠ []
  size : 0 < groSize features message.control
  uniform : Uniform (groSize features message.control) datagrams
  payload : message.payload = datagrams.flatten

structure OneDatagram (features : Features) (message : Datagram) : Prop where
  single : groSize features message.control = 0
  recordable : message.payload.length < 2 ^ 16

theorem Joins.packetsOf {datagrams : List (List UInt8)} {message : Datagram}
    (h : Joins features datagrams message)
    (hfits : message.payload.length ≤ bufSize) :
    packetsOf features bufSize message =
      datagrams.map fun bytes => (bytes, message.source) := by
  rw [Platform.packetsOf, cut, if_neg (Nat.ne_of_gt h.size), returned,
    List.take_of_length_le hfits, h.payload,
    segments_flatten h.size h.uniform]

theorem OneDatagram.packetsOf {message : Datagram}
    (h : OneDatagram features message) :
    packetsOf features bufSize message =
      [(returned bufSize message, message.source)] := by
  rw [Platform.packetsOf, cut, if_pos h.single, List.map_singleton]

theorem OneDatagram.slotsOf {message : Datagram}
    (h : OneDatagram features message) :
    slotsOf features bufSize message = 1 := by
  rw [← packetsOf_length, h.packetsOf, List.length_singleton]

theorem packetsOfAll_plain {plain : List Datagram}
    (h : ∀ message ∈ plain, OneDatagram features message) :
    packetsOfAll features bufSize plain =
      plain.map fun message => (returned bufSize message, message.source) := by
  induction plain with
  | nil => rfl
  | cons message plain ih =>
      rw [List.forall_mem_cons] at h
      rw [packetsOfAll, List.flatMap_cons, h.1.packetsOf, List.map_cons,
        ← ih h.2]
      rfl

theorem delivered_in_place {datagrams : List Datagram}
    {batch : RecvBatchRaw bufSize}
    (roomy : Roomy features bufSize datagrams batch.capacity)
    (hplace : InPlace features bufSize datagrams
      (landedBufs datagrams batch)) :
    ∃ batch',
      delivered features batch datagrams =
        .ok (.ok (totalSlots features bufSize datagrams), batch') ∧
      batch'.read (totalSlots features bufSize datagrams) =
        .ok (packetsOfAll features bufSize datagrams) := by
  have hbufs := landedBufs_bufSize datagrams batch
  have roomy' := roomy
  rw [← landedBufs_length datagrams batch] at roomy'
  have hback : readBack features (datagrams.map (asReceived bufSize))
      (landedBufs datagrams batch) =
        packetsOfAll features bufSize datagrams := by
    rw [readBack_eq_foundPieces features hbufs roomy']
    exact (foundPieces_eq_iff features hbufs roomy').mpr hplace
  have hsome := (emitAll_datagrams_isSome_iff features datagrams
    (landed datagrams batch.slots)).mpr (by
      rw [landed_length]
      exact roomy.slot)
  obtain ⟨⟨out, rest⟩, hemit⟩ := Option.isSome_iff_exists.mp hsome
  have hdelivered : delivered features batch datagrams =
      .ok (.ok out.length, ⟨out ++ rest, out.length⟩) := by
    rw [delivered, hemit]
  have hlength : out.length = totalSlots features bufSize datagrams := by
    have hentries := (emitAll_entries features (by simp [asReceived])
      hemit).1
    rw [← packetsOfAll_length, ← hback, landedBufs, ← hentries,
      List.length_map]
  have hread := (delivered_ok hdelivered).1
  rw [hback, hlength] at hread
  rw [hlength] at hdelivered
  exact ⟨_, hdelivered, hread⟩

theorem tryRecvBatch_of_granted (features : Features) (host : Host)
    {batch : RecvBatchRaw bufSize} {os : Os} (h : os.hasRecvmmsg = true)
    {datagrams : List Datagram} (hsome : datagrams ≠ [])
    (hqueue : recvDatagrams batch os = datagrams) :
    ∃ os', tryRecvBatch features host batch os =
      (delivered features batch datagrams, os') := by
  have hcap : 0 < batch.capacity := by
    rw [Nat.pos_iff_ne_zero]
    intro hzero
    apply hsome
    rw [← hqueue, recvDatagrams, hzero]
    rfl
  rw [tryRecvBatch_of_recvmmsg features host hcap h]
  cases hresult : recvManyResult (vlen batch.capacity)
      (recvAnswers batch os) with
  | error fault =>
      have hnone := (recvManyResult_error hresult).1
      rw [recvDatagrams, hnone] at hqueue
      exact absurd hqueue.symm hsome
  | ok received =>
      obtain rfl : received = datagrams := by
        rw [← hqueue, recvDatagrams, (recvManyResult_length hresult).1]
      exact ⟨_, rfl⟩

theorem tryRecvBatch_joined (host : Host) {batch : RecvBatchRaw bufSize}
    {os : Os} {plain : List Datagram} {message : Datagram}
    {datagrams : List (List UInt8)} (h : os.hasRecvmmsg = true)
    (hqueue : recvDatagrams batch os = plain ++ [message])
    (hplain : ∀ message ∈ plain, OneDatagram features message)
    (hjoins : Joins features datagrams message)
    (hfits : message.payload.length ≤ bufSize)
    (hshort : message.payload.length < 2 ^ 16)
    (hroom : plain.length + datagrams.length ≤ batch.capacity) :
    ∃ batch' os',
      tryRecvBatch features host batch os =
        (.ok (.ok (plain.length + datagrams.length), batch'), os') ∧
      batch'.read (plain.length + datagrams.length) =
        .ok (plain.map (fun message =>
            (returned bufSize message, message.source)) ++
          datagrams.map fun bytes => (bytes, message.source)) := by
  have hpackets : packetsOfAll features bufSize (plain ++ [message]) =
      plain.map (fun message =>
          (returned bufSize message, message.source)) ++
        datagrams.map fun bytes => (bytes, message.source) := by
    rw [packetsOfAll, List.flatMap_append, List.flatMap_singleton,
      ← packetsOfAll, packetsOfAll_plain hplain, hjoins.packetsOf hfits]
  have hslots : totalSlots features bufSize (plain ++ [message]) =
      plain.length + datagrams.length := by
    rw [← packetsOfAll_length, hpackets, List.length_append, List.length_map,
      List.length_map]
  have hfront : totalSlots features bufSize plain = plain.length := by
    rw [← packetsOfAll_length, packetsOfAll_plain hplain, List.length_map]
  have hpos : 0 < datagrams.length := List.length_pos_of_ne_nil hjoins.some
  have roomy : Roomy features bufSize (plain ++ [message])
      batch.capacity := by
    refine ⟨.inr ?_, hslots.trans_le hroom⟩
    rw [List.dropLast_concat, hfront]
    omega
  have hplace : InPlace features bufSize (plain ++ [message])
      (landedBufs (plain ++ [message]) batch) := by
    apply inPlace_landedBufs
    · intro other hmem
      rw [List.dropLast_concat] at hmem
      exact (hplain other hmem).slotsOf
    · intro other hmem
      rw [returned, List.length_take]
      apply (Nat.min_le_right _ _).trans_lt
      rcases List.mem_append.mp hmem with hold | hnew
      · exact (hplain other hold).recordable
      · rw [List.mem_singleton.mp hnew]
        exact hshort
    · rw [List.length_append, List.length_singleton]
      omega
  obtain ⟨os', hcall⟩ := tryRecvBatch_of_granted features host h (by simp)
    hqueue
  obtain ⟨batch', hdelivered, hread⟩ := delivered_in_place roomy hplace
  rw [hslots] at hdelivered hread
  rw [hpackets] at hread
  exact ⟨batch', os', hcall.trans (by rw [hdelivered]), hread⟩

/-! ## From `try_send_batch` to the receive loop -/

/-- What `try_send_batch` puts on the wire of a batch of datagrams of one size,
the last one possibly shorter, a receiver whose kernel joins it at the end of a
receive shows as it was on the wire. -/
theorem send_gro_round_trip (backend : Backend) (host : Host)
    (entries : SendBatchRaw) (sender : Os) {size : Nat} (hsize : 0 < size)
    (huniform : Uniform size ((items backend entries).map Prod.snd)) :
    ∃ sent,
      (Platform.trySendBatch backend host entries sender).2.wire =
        sender.wire ++ sent ∧
      sent.map Sent.data <+: (items backend entries).map Prod.snd ∧
      (∀ n, (Platform.trySendBatch backend host entries sender).1 = .ok n →
        n = sent.length) ∧
      ∀ {batch : RecvBatchRaw bufSize} {receiver : Os}
        {plain : List Datagram} {message : Datagram} (host : Host),
        receiver.hasRecvmmsg = true →
        recvDatagrams batch receiver = plain ++ [message] →
        (∀ message ∈ plain, OneDatagram features message) →
        sent ≠ [] → message.payload = (sent.map Sent.data).flatten →
        groSize features message.control = size →
        message.payload.length ≤ bufSize → message.payload.length < 2 ^ 16 →
        plain.length + sent.length ≤ batch.capacity →
        ∃ batch' receiver',
          tryRecvBatch features host batch receiver =
            (.ok (.ok (plain.length + sent.length), batch'), receiver') ∧
          batch'.read (plain.length + sent.length) =
            .ok (plain.map (fun message =>
                (returned bufSize message, message.source)) ++
              sent.map fun sent => (sent.data, message.source)) := by
  obtain ⟨sent, hwire, hfront, hcount⟩ :=
    trySendBatch_sent backend host entries sender
  refine ⟨sent, hwire, hfront, ?_, ?_⟩
  · intro n hn
    rw [(trySendBatch_performs backend host entries sender).result] at hn
    rw [hcount, attempt_ok _ _ _ hn]
  intro batch receiver plain message host hhas hqueue hplain hsome hpayload
    hgro hfits hshort hroom
  have hjoins : Joins features (sent.map Sent.data) message :=
    ⟨by simpa using hsome, hgro ▸ hsize,
      hgro ▸ huniform.of_prefix hsize hfront, hpayload⟩
  have hlength : (sent.map Sent.data).length = sent.length :=
    List.length_map _
  rw [← hlength] at hroom
  obtain ⟨batch', receiver', hcall, hread⟩ := tryRecvBatch_joined host hhas
    hqueue hplain hjoins hfits hshort hroom
  rw [hlength] at hcall hread
  refine ⟨batch', receiver', hcall, ?_⟩
  rw [hread, List.map_map]
  rfl

def twoDatagrams : SendBatchRaw :=
  .ofEntries [⟨⟨0, [1, 2]⟩, some loopbackSource⟩,
    ⟨⟨0, [3]⟩, some loopbackSource⟩]

def twoAccepted : Os := { coalescedOs with sendScript := [.ok (), .ok ()] }

def joinedOs : Os :=
  { coalescedOs with
    recvScript := [.ok ⟨[9], loopbackSource, []⟩,
      .ok ⟨[1, 2, 3], loopbackSource, [.udpGro 2]⟩] }

theorem two_datagrams_round_trip :
    ∃ batch' receiver',
      (Platform.trySendBatch .linux ⟨.linux, .little⟩ twoDatagrams
        twoAccepted).2.wire.map Sent.data = [[1, 2], [3]] ∧
      tryRecvBatch groOnly ⟨.linux, .little⟩ (.withCapacity 4 4) joinedOs =
        (.ok (.ok 3, batch'), receiver') ∧
      batch'.read 3 = .ok [([9], loopbackSource), ([1, 2], loopbackSource),
        ([3], loopbackSource)] := by
  obtain ⟨sent, hwire, -, -, hrecv⟩ := @send_gro_round_trip 4 groOnly .linux
    ⟨.linux, .little⟩ twoDatagrams twoAccepted 2 (by decide)
    ⟨rfl, by decide, by decide⟩
  have hsends : (Platform.trySendBatch .linux ⟨.linux, .little⟩ twoDatagrams
      twoAccepted).2.wire =
        [⟨0, [1, 2], some loopbackSource⟩, ⟨1, [3], some loopbackSource⟩] := by
    rw [Platform.trySendBatch, trySendBatch_of_sendmmsg _ _ rfl]
    rfl
  obtain rfl : sent =
      [⟨0, [1, 2], some loopbackSource⟩, ⟨1, [3], some loopbackSource⟩] :=
    hwire.symm.trans hsends
  obtain ⟨batch', receiver', hcall, hread⟩ := @hrecv (.withCapacity 4 4)
    joinedOs [⟨[9], loopbackSource, []⟩]
    ⟨[1, 2, 3], loopbackSource, [.udpGro 2]⟩ ⟨.linux, .little⟩ rfl rfl
    (by simpa using ⟨rfl, by decide⟩) (by simp) rfl rfl (by decide)
    (by decide) (by decide)
  exact ⟨batch', receiver', by rw [hsends]; rfl, hcall, hread⟩

end Binger.Platform.Linux
