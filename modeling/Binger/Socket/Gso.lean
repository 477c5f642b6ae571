import Binger.Socket.Send

/-!
# Segmentation offload

`UDP_SEGMENT` exists twice: as a control message of one `sendmsg`, which is what
`send_gso` uses, and as a socket option that cuts every later send without such
a control message.  The value of the option is the segment size, and zero turns
it off.
-/

namespace Binger.Socket

open Binger.Foundation Binger.Platform Binger.Sockaddr

/-! ## Sending with a control message -/

namespace BingerUdp

def trySendGso (socket : BingerUdp) (data : List UInt8) (segmentSize : UInt16)
    (os : Os) : IoResult Nat × BingerUdp × Os :=
  match Linux.trySendGso data segmentSize os with
  | (result, os) => (result, socket, os)

def sendGso (data : List UInt8) (segmentSize : UInt16) :
    List Wait → BingerUdp → Os → Poll (IoResult Nat) × BingerUdp × Os
  | waits, socket, os =>
      match socket.trySendGso data segmentSize os with
      | (result, socket, os) =>
          match sendArm result, waits with
          | some result, _ => (.ready result, socket, os)
          | none, [] => (.pending, socket, os)
          | none, wait :: waits =>
              if socket.tokio then
                match wait.outcome with
                | .ok () => sendGso data segmentSize waits socket os
                | .error error => (.ready (.error error), socket, os)
              else (.ready (.error tokioDisabled), socket, os)

/-! ## The socket option -/

/-- `set_gso` on a socket whose option has the value `udpSegment`, under the
kernel's answer to the `setsockopt`. -/
def setGso (enabled : Bool) (answer : Except Fault Unit) (udpSegment : Nat) :
    IoResult Unit × Nat :=
  match answer with
  | .ok () => (.ok (), enabled.toNat)
  | .error fault => (.error fault.error, udpSegment)

end BingerUdp

/-- The datagrams that leave the host for a message without a control message
of its own. -/
def leaving (udpSegment : Nat) (message : Sent) : List (List UInt8) :=
  Os.gsoDatagrams udpSegment message.data

def LeavesWhole (batch : SendBatchRaw) (udpSegment : Nat)
    (accepted : List Sent) : Prop :=
  ∀ message ∈ accepted, ∃ entry,
    batch.entries[message.entry]? = some entry ∧
      leaving udpSegment message = [entry.data.bytes]

theorem gsoDatagrams_one_eq_iff (data : List UInt8) :
    Os.gsoDatagrams 1 data = [data] ↔ data.length ≤ 1 := by
  rw [Os.gsoDatagrams]
  split
  · next h => simpa using h
  · next h =>
      have hlong : 1 < data.length := by omega
      apply iff_of_false _ (by omega)
      intro hsegments
      have hcount := congrArg List.length hsegments
      rw [segments_length, segmentCount, Nat.div_one,
        List.length_singleton] at hcount
      omega

theorem getElem?_items_take (batch : SendBatchRaw) (n j : Nat) :
    ((items .linux batch).take n)[j]? =
      (batch.entries.take n)[j]?.map fun entry => (j, entry.data.bytes) := by
  simp only [items, List.getElem?_take, List.getElem?_map,
    List.getElem?_zipIdx, Nat.zero_add]
  split
  · cases batch.entries[j]? <;> rfl
  · rfl

theorem mem_accepted {batch : SendBatchRaw} {accepted : List Sent} {n : Nat}
    (h : accepted.map Sent.item = (items .linux batch).take n) :
    (∀ message ∈ accepted, ∃ entry ∈ batch.entries.take n,
      batch.entries[message.entry]? = some entry ∧
        message.data = entry.data.bytes) ∧
    ∀ entry ∈ batch.entries.take n, ∃ message ∈ accepted,
      batch.entries[message.entry]? = some entry ∧
        message.data = entry.data.bytes := by
  have hget : ∀ j, accepted[j]?.map Sent.item =
      (batch.entries.take n)[j]?.map fun entry => (j, entry.data.bytes) := by
    intro j
    rw [← List.getElem?_map, h, getElem?_items_take]
  have hfront : ∀ (j : Nat) (entry : SendSlot),
      (batch.entries.take n)[j]? = some entry →
        batch.entries[j]? = some entry := by
    intro j entry hentry
    rw [List.getElem?_take] at hentry
    split at hentry <;> simp_all
  constructor
  · intro message hmem
    obtain ⟨j, hj⟩ := List.mem_iff_getElem?.mp hmem
    have hitem := hget j
    rw [hj, Option.map_some, eq_comm, Option.map_eq_some_iff] at hitem
    obtain ⟨entry, hentry, heq⟩ := hitem
    obtain ⟨rfl, hdata⟩ : j = message.entry ∧
        entry.data.bytes = message.data := by
      simpa [Sent.item] using heq
    exact ⟨entry, List.mem_of_getElem? hentry, hfront _ entry hentry,
      hdata.symm⟩
  · intro entry hmem
    obtain ⟨j, hj⟩ := List.mem_iff_getElem?.mp hmem
    have hitem := hget j
    rw [hj, Option.map_some, Option.map_eq_some_iff] at hitem
    obtain ⟨message, hmessage, heq⟩ := hitem
    obtain ⟨hentry, hdata⟩ : message.entry = j ∧
        message.data = entry.data.bytes := by
      simpa [Sent.item] using heq
    refine ⟨message, List.mem_of_getElem? hmessage, ?_, hdata⟩
    rw [hentry]
    exact hfront j entry hj

/-- After `set_gso(true)` the accepted entries of a batch leave whole exactly
when each of them has at most one byte. -/
theorem setGso_leavesWhole_iff {answer : Except Fault Unit}
    {udpSegment udpSegment' : Nat}
    (h : BingerUdp.setGso true answer udpSegment = (.ok (), udpSegment'))
    {socket : BingerUdp} (hlinux : socket.backend = .linux)
    (batch : SendBatchRaw) (os : Os) :
    LeavesWhole batch udpSegment'
        ((socket.trySendBatch batch os).2.2.wire.drop os.wire.length) ↔
      ∀ entry ∈ batch.entries.take (attempt (sendPath .linux os) batch.len
        os.sendScript).accepted, entry.data.bytes.length ≤ 1 := by
  obtain rfl : 1 = udpSegment' := by
    cases answer <;> simp_all [BingerUdp.setGso]
  obtain ⟨socket', os', hcall, -, -, performs⟩ :=
    socket.trySendBatch_performs batch os
  rw [hlinux] at hcall performs
  obtain ⟨accepted, hwire, hitems⟩ := performs.wire
  obtain ⟨hentry, hmessage⟩ := mem_accepted hitems
  have hnew : (socket.trySendBatch batch os).2.2.wire.drop os.wire.length =
      accepted := by
    rw [hcall]
    exact hwire ▸ List.drop_left
  rw [hnew]
  constructor
  · intro whole entry hmem
    obtain ⟨message, hsent, hfound, hdata⟩ := hmessage entry hmem
    obtain ⟨entry', hfound', hleaving⟩ := whole message hsent
    obtain rfl : entry = entry' := by simpa [hfound] using hfound'
    rw [leaving, hdata] at hleaving
    exact (gsoDatagrams_one_eq_iff _).mp hleaving
  · intro hshort message hmem
    obtain ⟨entry, hsent, hfound, hdata⟩ := hentry message hmem
    refine ⟨entry, hfound, ?_⟩
    rw [leaving, hdata]
    exact (gsoDatagrams_one_eq_iff _).mpr (hshort entry hsent)

def connectedOs (script : List (Except Fault Unit)) : Os where
  peer := some (.v4 .loopback 7)
  hasSendmmsg := true
  hasRecvmmsg := true
  hasSendmsgX := false
  hasRecvmsgX := false
  sendScript := script
  recvScript := []
  wire := []

def byteEntries (payloads : List (List UInt8)) : SendBatchRaw :=
  .ofEntries (payloads.map fun bytes => ⟨⟨0, bytes⟩, none⟩)

theorem one_byte_entries_leave_whole :
    LeavesWhole (byteEntries [[1], [2]]) 1
      (((BingerUdp.plainSocket .linux).trySendBatch (byteEntries [[1], [2]])
        (connectedOs [.ok (), .ok ()])).2.2.wire.drop 0) :=
  (setGso_leavesWhole_iff (show BingerUdp.setGso true (.ok ()) 0 =
      (.ok (), 1) from rfl)
    (show (BingerUdp.plainSocket .linux).backend = .linux from rfl)
    (byteEntries [[1], [2]]) (connectedOs [.ok (), .ok ()])).mpr (by decide)

/-- An entry of two bytes leaves as two datagrams. -/
theorem two_bytes_leave_apart :
    BingerUdp.setGso true (.ok ()) 0 = (.ok (), 1) ∧
      ¬ LeavesWhole (byteEntries [[1, 2]]) 1
        (((BingerUdp.plainSocket .linux).trySendBatch (byteEntries [[1, 2]])
          (connectedOs [.ok ()])).2.2.wire.drop 0) := by
  refine ⟨rfl, fun whole => ?_⟩
  obtain ⟨entry, hentry, hleaving⟩ := whole
    ⟨0, [1, 2], some (.v4 .loopback 7)⟩ (by decide)
  obtain rfl : ⟨⟨0, [1, 2]⟩, none⟩ = entry := Option.some.inj hentry
  exact absurd hleaving (by decide)

end Binger.Socket
