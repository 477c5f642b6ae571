import Binger.Platform.SendAttempt
import Binger.Sockaddr.Copies

/-!
# The messages of the Windows send loop

The Windows backend with a log of its `WSASendMsg` calls: the `WSAMSG` handed
over for each entry and what came back.  The loop has four exits.  At each of
them the accepted messages are those of the entries in front of the one that
stopped it, and only a failure at the first entry is reported as an error.
-/

namespace Binger.Platform.Windows

open Binger.Foundation Binger.Sockaddr

/-- `name` is `none` for the null pointer. -/
structure WsaMsg where
  name : Option Storage
  namelen : Int
  buffer : List UInt8
  deriving DecidableEq

/-- The name is encoded into a zeroed storage, and `namelen` stays zero when
there is nothing to encode. -/
def wsaMsg (order : ByteOrder) (connected : Bool) (entry : SendSlot) :
    WsaMsg :=
  let (addrStorage, namelen) :=
    match connected, entry.addr with
    | false, some target =>
        WindowsBackend.encodeAddrInto order target zeroedStorage 0
    | _, _ => (zeroedStorage, 0)
  let useAddr := !connected && entry.addr.isSome
  { name := if useAddr then some addrStorage else none
    namelen := namelen
    buffer := entry.data.bytes.take (entry.data.bytes.length % 2 ^ 32) }

def WsaMsg.sent (order : ByteOrder) (peer : Option SocketAddr) (i : Nat)
    (msg : WsaMsg) : Sent :=
  ⟨i, msg.buffer,
    (msg.name.map fun storage =>
      WindowsBackend.decodeSockaddr order storage msg.namelen) <|> peer⟩

structure SendCall where
  entry : Nat
  msg : WsaMsg
  outcome : Except Fault Unit

structure SendLog where
  value : IoResult Nat × Os
  calls : List SendCall

def wsaSendLoopTraced (order : ByteOrder) (connected : Bool) :
    List SendSlot → Nat → Nat → Os → SendLog
  | [], _, sent, os => ⟨(.ok sent, os), []⟩
  | entry :: entries, i, sent, os =>
      let msg := wsaMsg order connected entry
      match os.offer (msg.sent order os.peer i) with
      | (.ok (), os) =>
          let rest :=
            wsaSendLoopTraced order connected entries (i + 1) (sent + 1) os
          ⟨rest.value, ⟨i, msg, .ok ()⟩ :: rest.calls⟩
      | (.error fault, os) =>
          ⟨if fault.error.kind = .wouldBlock then (.ok sent, os)
            else if sent > 0 then (.ok sent, os)
            else (.error fault.error, os),
            [⟨i, msg, .error fault⟩]⟩

def trySendBatchTraced (order : ByteOrder) (batch : SendBatchRaw) (os : Os) :
    SendLog :=
  if batch.len = 0 then ⟨(.ok 0, os), []⟩
  else wsaSendLoopTraced order os.isConnected batch.entries 0 0 os

def accepted (calls : List SendCall) : List (Nat × WsaMsg) :=
  calls.filterMap fun call =>
    match call.outcome with
    | .ok () => some (call.entry, call.msg)
    | .error _ => none

/-! ## One message -/

structure Carries (order : ByteOrder) (connected : Bool) (entry : SendSlot)
    (msg : WsaMsg) : Prop where
  buffer_eq : msg.buffer = entry.data.bytes
  name_eq_none_iff : msg.name = none ↔ connected = true ∨ entry.addr = none
  name_eq : ∀ storage addr, msg.name = some storage →
    entry.addr = some addr →
    (storage, msg.namelen) =
        WindowsBackend.encodeAddrInto order addr zeroedStorage 0 ∧
      WindowsBackend.decodeSockaddr order storage msg.namelen = addr

theorem decode_encodeAddrInto (order : ByteOrder) (addr : SocketAddr) :
    WindowsBackend.decodeSockaddr order
        (WindowsBackend.encodeAddrInto order addr zeroedStorage 0).1
        (WindowsBackend.encodeAddrInto order addr zeroedStorage 0).2 =
      addr := by
  rw [WindowsBackend.encodeAddrInto_eq, WindowsImpl.encodeSockaddr_eq,
    WindowsBackend.decodeSockaddr_eq, WindowsImpl.decodeSockaddr_eq]
  exact decodeSockaddr_encodeSockaddr ⟨.windows, order⟩ addr zeroedStorage

theorem carries_wsaMsg (order : ByteOrder) (connected : Bool)
    {entry : SendSlot} (hsmall : entry.data.bytes.length < 2 ^ 32) :
    Carries order connected entry (wsaMsg order connected entry) := by
  obtain ⟨data, addr⟩ := entry
  have hbuffer : data.bytes.take (data.bytes.length % 2 ^ 32) =
      data.bytes := by
    rw [Nat.mod_eq_of_lt hsmall, List.take_length]
  cases connected with
  | true => exact ⟨hbuffer, by simp [wsaMsg], by simp [wsaMsg]⟩
  | false =>
      cases addr with
      | none => exact ⟨hbuffer, by simp [wsaMsg], by simp [wsaMsg]⟩
      | some target =>
          refine ⟨hbuffer, by simp [wsaMsg], ?_⟩
          rintro storage addr hname ⟨⟩
          obtain rfl : (WindowsBackend.encodeAddrInto order target
              zeroedStorage 0).1 = storage := by
            simpa [wsaMsg] using hname
          exact ⟨rfl, decode_encodeAddrInto order target⟩

theorem wsaMsg_sent (order : ByteOrder) (connected : Bool)
    (peer : Option SocketAddr) (i : Nat) (entry : SendSlot) :
    (wsaMsg order connected entry).sent order peer i =
      ⟨i, wsaPayload entry, perPacketRoute connected i entry <|> peer⟩ := by
  obtain ⟨data, addr⟩ := entry
  cases connected with
  | true => rfl
  | false =>
      cases addr with
      | none => rfl
      | some target =>
          simp [WsaMsg.sent, wsaMsg, wsaPayload, perPacketRoute,
            decode_encodeAddrInto]

/-! ## The loop -/

theorem wsaSendLoopTraced_value (order : ByteOrder) (connected : Bool)
    (entries : List SendSlot) (i sent : Nat) (os : Os) :
    (wsaSendLoopTraced order connected entries i sent os).value =
      wsaSendLoop ⟨.windows, order⟩ connected entries i sent os := by
  induction entries generalizing i sent os with
  | nil => rfl
  | cons entry entries ih =>
      rw [wsaSendLoop_cons, wsaSendLoopTraced, wsaMsg_sent]
      rcases os.offer ⟨i, wsaPayload entry,
        perPacketRoute connected i entry <|> os.peer⟩ with ⟨fault | _, os'⟩
      · simp only [Fault.error_kind_wouldBlock]
      · exact ih (i + 1) (sent + 1) os'

theorem trySendBatchTraced_value (order : ByteOrder) (batch : SendBatchRaw)
    (os : Os) :
    (trySendBatchTraced order batch os).value =
      trySendBatch ⟨.windows, order⟩ batch os := by
  unfold trySendBatchTraced trySendBatch
  split
  · rfl
  · exact wsaSendLoopTraced_value order os.isConnected batch.entries 0 0 os

def numbered (order : ByteOrder) (connected : Bool) (entries : List SendSlot)
    (i : Nat) : List (Nat × WsaMsg) :=
  (entries.zipIdx i).map fun (entry, k) => (k, wsaMsg order connected entry)

theorem accepted_loop (order : ByteOrder) (connected : Bool)
    (entries : List SendSlot) (i sent : Nat) (os : Os) :
    accepted (wsaSendLoopTraced order connected entries i sent os).calls =
      (numbered order connected entries i).take
        (granted entries.length os.sendScript).length := by
  induction entries generalizing i sent os with
  | nil => simp [wsaSendLoopTraced, accepted]
  | cons entry entries ih =>
      rcases hscript : os.sendScript with - | ⟨fault | ⟨⟩, script⟩
      · simp [wsaSendLoopTraced, Os.offer, hscript, ask, accepted, granted]
      · simp [wsaSendLoopTraced, Os.offer, hscript, ask, accepted, granted]
      · simp only [wsaSendLoopTraced, Os.offer, hscript, ask, List.length_cons,
          granted]
        rw [accepted, List.filterMap_cons, ← accepted, ih]
        simp [numbered]

theorem loop_error {order : ByteOrder} {connected : Bool}
    {entries : List SendSlot} {i sent : Nat} {os os' : Os} {error : IoError}
    (h : (wsaSendLoopTraced order connected entries i sent os).value =
      (.error error, os')) :
    ∃ entry fault, entries.head? = some entry ∧
      (wsaSendLoopTraced order connected entries i sent os).calls =
        [⟨i, wsaMsg order connected entry, .error fault⟩] ∧
      error = fault.error ∧ os'.wire = os.wire := by
  rw [wsaSendLoopTraced_value, wsaSendLoop_eq, Prod.mk.injEq] at h
  rcases h with ⟨hresult, rfl⟩
  have hnone := wsaResult_eq_error hresult
  rcases wsaResult_fault hresult with ⟨fault, hrefusal, rfl⟩
  cases entries with
  | nil => simp at hrefusal
  | cons entry entries =>
      rcases hscript : os.sendScript with - | ⟨answer | ⟨⟩, script⟩
      · obtain rfl : Fault.wouldBlock = fault := by
          simpa [hscript, refusal] using hrefusal
        simp [hscript, wsaResult, refusal, granted] at hresult
      · obtain rfl : answer = fault := by
          simpa [hscript, refusal] using hrefusal
        refine ⟨entry, answer, rfl, ?_, rfl, ?_⟩
        · simp [wsaSendLoopTraced, Os.offer, hscript, ask]
        · simp [Os.afterOffering, hscript, granted]
      · simp [hscript, granted] at hnone

/-! ## The call -/

/-- Exactly the first `n` entries were accepted, each once and in order, each
with its own message. -/
structure SendsPrefix (order : ByteOrder) (batch : SendBatchRaw) (os os' : Os)
    (calls : List SendCall) (n : Nat) : Prop where
  le_len : n ≤ batch.len
  entries_eq : (accepted calls).map Prod.fst = List.range n
  carries : ∀ i msg, (i, msg) ∈ accepted calls →
    ∃ entry, batch.entries[i]? = some entry ∧
      Carries order os.isConnected entry msg
  wire_eq : os'.wire = os.wire ++
    (accepted calls).map fun (i, msg) => msg.sent order os.peer i

structure SendsNothing (os os' : Os) (calls : List SendCall)
    (error : IoError) : Prop where
  accepted_eq : accepted calls = []
  wire_eq : os'.wire = os.wire
  not_wouldBlock : error.kind ≠ .wouldBlock
  first_outcome : ∃ call fault, calls.head? = some call ∧ call.entry = 0 ∧
    call.outcome = .error fault ∧ error = fault.error

theorem accepted_batch (order : ByteOrder) (batch : SendBatchRaw) (os : Os) :
    accepted (trySendBatchTraced order batch os).calls =
      (numbered order os.isConnected batch.entries 0).take
        (granted batch.len os.sendScript).length := by
  rw [trySendBatchTraced]
  split
  · next hlen => simp [accepted, hlen]
  · rw [accepted_loop, batch.entries_length]

theorem numbered_getElem? (order : ByteOrder) (connected : Bool)
    (entries : List SendSlot) (k : Nat) :
    (numbered order connected entries 0)[k]? =
      entries[k]?.map fun entry => (k, wsaMsg order connected entry) := by
  simp [numbered, List.getElem?_zipIdx, Function.comp_def]

theorem map_fst_numbered (order : ByteOrder) (connected : Bool)
    (entries : List SendSlot) :
    (numbered order connected entries 0).map Prod.fst =
      List.range entries.length := by
  simp [numbered, List.map_map, Function.comp_def, ← List.range_eq_range']

theorem sendsPrefix_of_ok {order : ByteOrder} {batch : SendBatchRaw}
    (hsmall : ∀ entry ∈ batch.entries, entry.data.bytes.length < 2 ^ 32)
    {os os' : Os} {n : Nat}
    (h : trySendBatch ⟨.windows, order⟩ batch os = (.ok n, os')) :
    SendsPrefix order batch os os' (trySendBatchTraced order batch os).calls
      n := by
  rw [trySendBatch_eq, Prod.mk.injEq] at h
  rcases h with ⟨hresult, rfl⟩
  have hn := wsaResult_eq_ok hresult
  rw [Nat.zero_add] at hn
  have hle : n ≤ batch.len := hn ▸ granted_length_le _ _
  have haccepted := accepted_batch order batch os
  rw [← hn] at haccepted
  constructor
  case le_len => exact hle
  case entries_eq =>
    rw [haccepted, List.map_take, map_fst_numbered, List.take_range,
      batch.entries_length, Nat.min_eq_left hle]
  case carries =>
    intro i msg hmem
    rw [haccepted] at hmem
    obtain ⟨k, hk⟩ := List.mem_iff_getElem?.mp (List.mem_of_mem_take hmem)
    rw [numbered_getElem?, Option.map_eq_some_iff] at hk
    rcases hk with ⟨entry, hentry, hpair⟩
    cases hpair
    exact ⟨entry, hentry, carries_wsaMsg order os.isConnected
      (hsmall entry (List.mem_of_getElem? hentry))⟩
  case wire_eq =>
    rw [haccepted, List.map_take]
    simp [Os.afterOffering, outgoing, numbered, hn, List.map_map,
      Function.comp_def, wsaMsg_sent]

theorem sendsNothing_of_error {order : ByteOrder} {batch : SendBatchRaw}
    {os os' : Os} {error : IoError}
    (h : trySendBatch ⟨.windows, order⟩ batch os = (.error error, os')) :
    SendsNothing os os' (trySendBatchTraced order batch os).calls error := by
  have hkind : error.kind ≠ .wouldBlock := by
    have hresult := congrArg Prod.fst h
    rw [trySendBatch_eq] at hresult
    exact wsaResult_ne_wouldBlock hresult
  rw [← trySendBatchTraced_value] at h
  rw [trySendBatchTraced] at h ⊢
  split at h
  · simp at h
  · next hlen =>
      rcases loop_error h with ⟨entry, fault, -, hcalls, herror, hwire⟩
      rw [if_neg hlen, hcalls]
      exact ⟨rfl, hwire, hkind, _, fault, rfl, rfl, rfl, herror⟩

/-- Whatever stops the loop, a result `Ok(n)` means that the first `n` entries
were accepted with their own messages and nothing else was, and an error that
the first send failed with it. -/
theorem trySendBatch_inOrder (order : ByteOrder) (batch : SendBatchRaw)
    (hsmall : ∀ entry ∈ batch.entries, entry.data.bytes.length < 2 ^ 32)
    (os : Os) :
    (trySendBatchTraced order batch os).value =
        trySendBatch ⟨.windows, order⟩ batch os ∧
      (∀ n os', trySendBatch ⟨.windows, order⟩ batch os = (.ok n, os') →
        SendsPrefix order batch os os'
          (trySendBatchTraced order batch os).calls n) ∧
      ∀ error os',
        trySendBatch ⟨.windows, order⟩ batch os = (.error error, os') →
        SendsNothing os os' (trySendBatchTraced order batch os).calls
          error := by
  refine ⟨trySendBatchTraced_value order batch os, ?_, ?_⟩
  · intro n os' h
    exact sendsPrefix_of_ok hsmall h
  · intro error os' h
    exact sendsNothing_of_error h

def mixedEntries : SendBatchRaw :=
  .ofEntries [⟨⟨0, [1, 2]⟩, some (.v4 .loopback 9)⟩, ⟨⟨2, [3]⟩, none⟩]

def stoppingOs : Os where
  peer := none
  hasSendmmsg := false
  hasRecvmmsg := false
  hasSendmsgX := false
  hasRecvmsgX := false
  sendScript := [.ok (), .error (.hard 10057)]
  recvScript := []
  wire := []

theorem mixedEntries_inOrder :
    ∃ os', trySendBatch ⟨.windows, .little⟩ mixedEntries stoppingOs =
        (.ok 1, os') ∧
      SendsPrefix .little mixedEntries stoppingOs os'
        (trySendBatchTraced .little mixedEntries stoppingOs).calls 1 := by
  refine ⟨_, rfl, ?_⟩
  exact (trySendBatch_inOrder .little mixedEntries (by decide)
    stoppingOs).2.1 1 _ rfl

end Binger.Platform.Windows
