import Binger.Foundation.Runs
import Binger.Platform.Leftovers
import Binger.Platform.Metadata

/-!
# Destination addresses on request

`enable_pktinfo` sets two options one after the other and gives up at the first
failure.  A failure of the second call leaves the first option changed, and on
an IPv4 socket the second call always fails.  The options show in the control
messages of later datagrams, and from there in the slots of a receive.
-/

namespace Binger.Platform

open Binger.Foundation Binger.Sockaddr

variable {bufSize : Nat}

/-! ## Destinations of the packets of one receive -/

section Destinations

variable {features : Features} {shown : Bool}

theorem messageSlot_dstAddr (hpktinfo : features.pktinfo = true)
    {message : Received}
    (hmessage : (lastOf readDstAddr message.control).isSome = shown)
    {slot : RecvSlot bufSize} (hslot : slot.dstAddr.isSome → shown) :
    (messageSlot features message slot).dstAddr.isSome = shown := by
  have hdst : (messageSlot features message slot).dstAddr =
      (lastOf readDstAddr message.control <|> slot.dstAddr) := by
    simp [messageSlot, annotate, hpktinfo]
  rw [hdst]
  cases hlast : lastOf readDstAddr message.control with
  | some addr =>
      rw [hlast] at hmessage
      exact hmessage
  | none =>
      rw [hlast] at hmessage
      subst hmessage
      simpa using hslot

theorem emit_dstAddr (hpktinfo : features.pktinfo = true) {message : Received}
    (hmessage : (lastOf readDstAddr message.control).isSome = shown)
    {slot : RecvSlot bufSize} (hslot : slot.dstAddr.isSome → shown)
    {rest : List (RecvSlot bufSize)}
    (hrest : ∀ slot ∈ rest, slot.dstAddr.isSome → shown) :
    (∀ filled ∈ (emit features message slot rest).1,
        filled.dstAddr.isSome = shown) ∧
      ∀ left ∈ (emit features message slot rest).2,
        left.dstAddr.isSome → shown := by
  have hfirst := messageSlot_dstAddr hpktinfo hmessage hslot
  rw [emit]
  split
  · exact ⟨by simpa using hfirst, hrest⟩
  · split
    · refine ⟨List.forall_mem_nil _, ?_⟩
      rw [List.forall_mem_cons]
      exact ⟨by simp [hfirst], hrest⟩
    · next segment further hsegments =>
        constructor
        · rw [List.forall_mem_cons]
          refine ⟨hfirst, ?_⟩
          intro filled hmem
          rcases List.mem_iff_getElem?.mp hmem with ⟨i, hi⟩
          rw [List.getElem?_zipWith_eq_some] at hi
          rcases hi with ⟨data, left, -, -, rfl⟩
          simpa [segmentSlot, firstSlot, hpktinfo] using hfirst
        · intro left hmem
          exact hrest left (List.mem_of_mem_drop hmem)

theorem emitAll_dstAddr (hpktinfo : features.pktinfo = true)
    {messages : List Received}
    (hmessages : ∀ message ∈ messages,
      (lastOf readDstAddr message.control).isSome = shown)
    {slots out rest : List (RecvSlot bufSize)}
    (hslots : ∀ slot ∈ slots, slot.dstAddr.isSome → shown)
    (h : emitAll features messages slots = some (out, rest)) :
    ∀ slot ∈ out, slot.dstAddr.isSome = shown := by
  induction messages generalizing slots out rest with
  | nil =>
      obtain ⟨rfl, -⟩ : [] = out ∧ slots = rest := by simpa [emitAll] using h
      exact List.forall_mem_nil _
  | cons message messages ih =>
      cases slots with
      | nil => simp [emitAll] at h
      | cons slot slots =>
          simp only [emitAll, Option.map_eq_some_iff, Prod.mk.injEq] at h
          rcases h with ⟨⟨tail, rest'⟩, htail, rfl, -⟩
          rw [List.forall_mem_cons] at hmessages hslots
          rcases emit_dstAddr hpktinfo hmessages.1 hslots.1 hslots.2 with
            ⟨hfilled, hleft⟩
          intro filled hmem
          rcases List.mem_append.mp hmem with hmem | hmem
          · exact hfilled filled hmem
          · exact ih hmessages.2 hleft htail filled hmem

namespace Linux

theorem delivered_dstAddr (hpktinfo : features.pktinfo = true)
    {batch batch' : RecvBatchRaw bufSize} {datagrams : List Datagram}
    (hshown : ∀ datagram ∈ datagrams,
      (lastOf readDstAddr datagram.control).isSome = shown) {n : Nat}
    (h : delivered features batch.clear datagrams = .ok (.ok n, batch')) :
    ∀ i < n, ∃ value, batch'.dstAddr i = .ok value ∧
      value.isSome = shown := by
  have hslots : ∀ slot ∈ landed datagrams batch.clear.slots,
      slot.dstAddr.isSome → shown := by
    intro slot hmem
    have hmetadata : metadata slot ∈ List.replicate batch.capacity
        ((none, none) : Option Timestamp × Option SocketAddr) := by
      rw [← map_metadata_clear, ← map_metadata_landed datagrams]
      exact List.mem_map_of_mem hmem
    have hnone : slot.dstAddr = none :=
      congrArg Prod.snd (List.eq_of_mem_replicate hmetadata)
    simp [hnone]
  have hmessages : ∀ message ∈ datagrams.map (asReceived bufSize),
      (lastOf readDstAddr message.control).isSome = shown := by
    rw [List.forall_mem_map]
    exact hshown
  unfold delivered at h
  split at h
  · next out rest hemit =>
      cases h
      have hout := emitAll_dstAddr hpktinfo hmessages hslots hemit
      intro i hi
      refine ⟨out[i].dstAddr, ?_, hout _ (List.getElem_mem hi)⟩
      rw [RecvBatchRaw.dstAddr, RecvBatchRaw.slot_filled out rest _ hi]
      rfl
  · cases h

theorem tryRecvBatch_dstAddr (hpktinfo : features.pktinfo = true)
    (host : Host) {batch batch' : RecvBatchRaw bufSize} {os : Os}
    (hmmsg : os.hasRecvmmsg = true)
    (hshown : ∀ datagram ∈ recvDatagrams batch.clear os,
      (lastOf readDstAddr datagram.control).isSome = shown) {n : Nat}
    (h : (tryRecvBatch features host batch.clear os).1 =
      .ok (.ok n, batch')) :
    ∀ i < n, ∃ value, batch'.dstAddr i = .ok value ∧
      value.isSome = shown := by
  rcases Nat.eq_zero_or_pos batch.capacity with hzero | hcap
  · rw [tryRecvBatch] at h
    simp only [clear_capacity, hzero, if_true] at h
    cases h
    intro i hi
    exact absurd hi (Nat.not_lt_zero i)
  · rw [recvDatagrams_eq_messagesFor] at hshown
    exact delivered_dstAddr hpktinfo hshown
      (tryRecvBatch_clear_ok hcap hmmsg (Prod.ext h rfl))

theorem messages_of_enosys {batch : RecvBatchRaw bufSize} {os : Os}
    (h : os.hasRecvmmsg = false) :
    ∀ message ∈ messages batch os, message.control = [] := by
  rw [messages, h]
  simp

theorem tryRecvBatch_enosys_dstAddr (hpktinfo : features.pktinfo = true)
    (host : Host) {batch batch' : RecvBatchRaw bufSize} {os : Os}
    (hmmsg : os.hasRecvmmsg = false) {n : Nat}
    (h : (tryRecvBatch features host batch.clear os).1 =
      .ok (.ok n, batch')) :
    ∀ i < n, batch'.dstAddr i = .ok none := by
  have hcontrol := @messages_of_enosys _ batch.clear os hmmsg
  have hgro : ∀ message ∈ messages batch.clear os,
      groSize features message.control = 0 := by
    intro message hmem
    rw [hcontrol message hmem]
    exact groSize_of_not_mem features (fun size => List.not_mem_nil)
  have hown : OwnMetadata features (messages batch.clear os)
      (tryRecvBatch features host batch.clear os).1 := by
    rcases tryRecvBatch_messages features host batch.clear os hgro with
      ⟨len, -, hcall⟩ | ⟨error, failed, -, hcall⟩
    · rw [hcall, ownMetadata_filled_iff features len
        (messages_length_le batch.clear os)]
      exact freshMetadata_clear features _ batch
    · rw [hcall] at h
      cases h
  intro i hi
  rcases hown n batch' h i hi with ⟨message, hmessage, -, hdst⟩
  rcases hdst hpktinfo with ⟨value, hvalue, reports⟩
  have hnone := reports.isSome_iff
  rw [hcontrol message (List.mem_of_getElem? hmessage)] at hnone
  cases value with
  | none => exact hvalue
  | some addr => simp at hnone

theorem tryRecvBatch_enosys_pos_iff (features : Features) (host : Host)
    {batch : RecvBatchRaw bufSize} {os : Os}
    (hmmsg : os.hasRecvmmsg = false) :
    (∃ n batch', (tryRecvBatch features host batch os).1 =
        .ok (.ok n, batch') ∧ 0 < n) ↔
      Completes batch os ∧ messages batch os ≠ [] := by
  have hgro : ∀ message ∈ messages batch os,
      groSize features message.control = 0 := by
    intro message hmem
    rw [messages_of_enosys hmmsg message hmem]
    exact groSize_of_not_mem features (fun size => List.not_mem_nil)
  rcases tryRecvBatch_messages features host batch os hgro with
    ⟨len, hdone, hcall⟩ | ⟨error, batch', hnone, hcall⟩
  · rw [hcall]
    simp [hdone, List.length_pos_iff]
  · rw [hcall]
    simpa using hnone

end Linux

end Destinations

end Binger.Platform

namespace Binger.Socket

open Binger.Foundation Binger.Platform Binger.Sockaddr

/-! ## The options -/

inductive Family where
  | ipv4
  | ipv6
  deriving DecidableEq, Repr

inductive PktinfoOption where
  | ipPktinfo
  | ipv6Recvpktinfo
  deriving DecidableEq, Repr

structure PktinfoSocket where
  family : Family
  ipPktinfo : Bool
  ipv6Recvpktinfo : Bool
  deriving DecidableEq, Repr

def enoprotoopt : Nat := 92

namespace PktinfoSocket

/-- `raw_setsockopt`: the kernel's answer, except that an IPv4 socket has no
IPv6 options. -/
def rawSetsockopt (option : PktinfoOption) (enabled : Bool)
    (answer : Except Fault Unit) (socket : PktinfoSocket) :
    IoResult Unit × PktinfoSocket :=
  match option, socket.family, answer with
  | .ipv6Recvpktinfo, .ipv4, _ =>
      (.error (Fault.hard enoprotoopt).error, socket)
  | _, _, .error fault => (.error fault.error, socket)
  | .ipPktinfo, _, .ok () => (.ok (), { socket with ipPktinfo := enabled })
  | .ipv6Recvpktinfo, .ipv6, .ok () =>
      (.ok (), { socket with ipv6Recvpktinfo := enabled })

def enablePktinfo (enabled : Bool) (first second : Except Fault Unit)
    (socket : PktinfoSocket) : IoResult Unit × PktinfoSocket :=
  match rawSetsockopt .ipPktinfo enabled first socket with
  | (.error error, socket) => (.error error, socket)
  | (.ok (), socket) => rawSetsockopt .ipv6Recvpktinfo enabled second socket

/-- The call that sets the first option only. -/
def SetsHalf (socket : PktinfoSocket) (first second : Except Fault Unit) :
    Prop :=
  first = .ok () ∧ (socket.family = .ipv4 ∨ ∃ fault, second = .error fault)

theorem enablePktinfo_cases (enabled : Bool)
    (first second : Except Fault Unit) (socket : PktinfoSocket) :
    (∃ error, enablePktinfo enabled first second socket =
        (.error error, socket) ∧ ¬ socket.SetsHalf first second) ∨
    (∃ error, enablePktinfo enabled first second socket =
        (.error error, { socket with ipPktinfo := enabled }) ∧
      socket.SetsHalf first second) ∨
    enablePktinfo enabled first second socket =
        (.ok (), ⟨socket.family, enabled, enabled⟩) ∧
      socket.family = .ipv6 ∧ ¬ socket.SetsHalf first second := by
  rcases socket with ⟨family, ip, ipv6⟩
  cases first with
  | error fault =>
      left
      refine ⟨fault.error, ?_, by simp [SetsHalf]⟩
      cases family <;> rfl
  | ok _ =>
      right
      cases family with
      | ipv4 =>
          left
          refine ⟨(Fault.hard enoprotoopt).error, ?_, rfl, .inl rfl⟩
          rfl
      | ipv6 =>
          cases second with
          | error fault =>
              left
              exact ⟨fault.error, rfl, rfl, .inr ⟨fault, rfl⟩⟩
          | ok _ =>
              right
              exact ⟨rfl, rfl, by simp [SetsHalf]⟩

/-! ## Datagrams under the options -/

end PktinfoSocket

def isIpPktinfo : Cmsg → Bool
  | .ipPktinfo _ => true
  | _ => false

def isIpv6Pktinfo : Cmsg → Bool
  | .ipv6Pktinfo _ => true
  | _ => false

/-- A datagram as the kernel delivers it.  An IPv6 socket gets `IP_PKTINFO`
next to `IPV6_PKTINFO` for datagrams that came over IPv4. -/
def PktinfoSocket.carries (socket : PktinfoSocket) (datagram : Datagram) :
    Bool :=
  match socket.family with
  | .ipv4 =>
      datagram.control.any isIpPktinfo == socket.ipPktinfo &&
        !datagram.control.any isIpv6Pktinfo
  | .ipv6 =>
      datagram.control.any isIpv6Pktinfo == socket.ipv6Recvpktinfo &&
        (!datagram.control.any isIpPktinfo || socket.ipPktinfo)

theorem lastOf_readDstAddr_isSome (control : List Cmsg) :
    (lastOf readDstAddr control).isSome =
      (control.any isIpPktinfo || control.any isIpv6Pktinfo) := by
  induction control with
  | nil => rfl
  | cons cmsg control ih =>
      rw [lastOf_cons]
      cases hlast : lastOf readDstAddr control with
      | some addr =>
          rw [hlast] at ih
          cases cmsg <;> simp_all [readDstAddr, isIpPktinfo, isIpv6Pktinfo]
      | none =>
          rw [hlast] at ih
          cases cmsg <;> simp_all [readDstAddr, isIpPktinfo, isIpv6Pktinfo]

/-! ## Sessions -/

structure ClearedReceive where
  bufSize : Nat
  batch : RecvBatchRaw bufSize
  gro : Bool
  timestamping : Bool
  host : Host
  os : Os

namespace ClearedReceive

def outcome (receive : ClearedReceive) : RecvOutcome receive.bufSize :=
  (Linux.tryRecvBatch ⟨receive.gro, receive.timestamping, true⟩ receive.host
    receive.batch.clear receive.os).1

def datagrams (receive : ClearedReceive) : List Datagram :=
  Linux.recvDatagrams receive.batch.clear receive.os

def FallsBack (receive : ClearedReceive) : Prop :=
  receive.os.hasRecvmmsg = false ∧
    Linux.Completes receive.batch.clear receive.os ∧
    Linux.messages receive.batch.clear receive.os ≠ []

def Shows (receive : ClearedReceive) (shown : Prop) : Prop :=
  ∀ n batch', receive.outcome = .ok (.ok n, batch') → ∀ i < n,
    ∃ value, batch'.dstAddr i = .ok value ∧ (value.isSome ↔ shown)

end ClearedReceive

inductive PktinfoAction where
  | enable (enabled : Bool) (first second : Except Fault Unit)
  | receive (receive : ClearedReceive)

structure PktinfoSession where
  socket : PktinfoSocket
  lastOk : Option Bool

namespace PktinfoSession

def start (family : Family) : PktinfoSession :=
  ⟨⟨family, false, false⟩, none⟩

def step (session : PktinfoSession) : PktinfoAction → Option PktinfoSession
  | .enable enabled first second =>
      match session.socket.enablePktinfo enabled first second with
      | (.ok (), socket) => some ⟨socket, some enabled⟩
      | (.error _, socket) => some ⟨socket, session.lastOk⟩
  | .receive receive =>
      if receive.datagrams.all session.socket.carries then some session
      else none

/-- A call that fails changes nothing, and the packets show destinations when
the last call that succeeded asked for them. -/
def TellsTruth (session : PktinfoSession) (action : PktinfoAction)
    (next : PktinfoSession) : Prop :=
  match action with
  | .enable enabled first second =>
      ∀ error, (session.socket.enablePktinfo enabled first second).1 =
        .error error → next.socket = session.socket
  | .receive receive => receive.Shows (session.lastOk = some true)

/-- A call that sets half of the options sets nothing new, and packets with
destinations come through `recvmmsg`. -/
def Settled (session : PktinfoSession) (action : PktinfoAction)
    (_ : PktinfoSession) : Prop :=
  match action with
  | .enable enabled first second =>
      session.socket.SetsHalf first second →
        enabled = session.socket.ipPktinfo
  | .receive receive => session.lastOk = some true → ¬ receive.FallsBack

structure Agrees (session : PktinfoSession) : Prop where
  ip : session.socket.ipPktinfo = (session.lastOk == some true)
  ipv6 : session.socket.family = .ipv6 →
    session.socket.ipv6Recvpktinfo = (session.lastOk == some true)

theorem Agrees.step {session next : PktinfoSession} {action : PktinfoAction}
    (agrees : Agrees session) (settled : Settled session action next)
    (h : PktinfoSession.step session action = some next) : Agrees next := by
  cases action with
  | receive receive =>
      rw [PktinfoSession.step] at h
      split at h
      · cases h
        exact agrees
      · cases h
  | enable enabled first second =>
      rw [PktinfoSession.step] at h
      rcases session.socket.enablePktinfo_cases enabled first second with
        ⟨error, hcall, -⟩ | ⟨error, hcall, hhalf⟩ | ⟨hcall, -⟩
      · rw [hcall] at h
        cases h
        exact agrees
      · rw [hcall, settled hhalf] at h
        cases h
        exact agrees
      · rw [hcall] at h
        cases h
        cases enabled <;> exact ⟨rfl, fun _ => rfl⟩

/-! ## Receives -/

theorem Agrees.shown {session : PktinfoSession} (agrees : Agrees session)
    {datagram : Datagram}
    (h : session.socket.carries datagram = true) :
    (lastOf readDstAddr datagram.control).isSome =
      (session.lastOk == some true) := by
  have hip := agrees.ip
  have hipv6 := agrees.ipv6
  rw [lastOf_readDstAddr_isSome]
  generalize (session.lastOk == some true) = shown at hip hipv6 ⊢
  rw [PktinfoSocket.carries] at h
  cases hfamily : session.socket.family with
  | ipv4 =>
      simp only [hfamily, Bool.and_eq_true, beq_iff_eq, Bool.not_eq_true',
        hip] at h
      rw [h.1, h.2, Bool.or_false]
  | ipv6 =>
      simp only [hfamily, Bool.and_eq_true, beq_iff_eq, hipv6 hfamily, hip]
        at h
      rw [h.1]
      revert h
      cases shown <;> simp

theorem Agrees.receive_iff {session : PktinfoSession}
    (agrees : Agrees session) {receive : ClearedReceive}
    (h : receive.datagrams.all session.socket.carries = true) :
    (session.lastOk = some true → ¬ receive.FallsBack) ↔
      receive.Shows (session.lastOk = some true) := by
  rw [List.all_eq_true] at h
  cases hmmsg : receive.os.hasRecvmmsg with
  | true =>
      refine iff_of_true ?_ ?_
      · rintro - ⟨hmissing, -⟩
        rw [hmmsg] at hmissing
        cases hmissing
      · intro n batch' hok i hi
        rcases Linux.tryRecvBatch_dstAddr rfl receive.host hmmsg
          (fun datagram hmem => agrees.shown (h datagram hmem)) hok i hi with
          ⟨value, hvalue, hsome⟩
        refine ⟨value, hvalue, ?_⟩
        rw [hsome, beq_iff_eq]
  | false =>
      have hnone : ∀ n batch', receive.outcome = .ok (.ok n, batch') →
          ∀ i < n, batch'.dstAddr i = .ok none := by
        intro n batch' hok
        exact Linux.tryRecvBatch_enosys_dstAddr rfl receive.host hmmsg hok
      have hpos := @Linux.tryRecvBatch_enosys_pos_iff _
        ⟨receive.gro, receive.timestamping, true⟩ receive.host
        receive.batch.clear receive.os hmmsg
      constructor
      · intro hback n batch' hok i hi
        refine ⟨none, hnone n batch' hok i hi, ?_⟩
        simp only [Option.isSome_none, Bool.false_eq_true, false_iff]
        intro hasked
        exact hback hasked ⟨hmmsg, hpos.mp ⟨n, batch', hok, by omega⟩⟩
      · rintro hshows hasked ⟨-, hdone⟩
        rcases hpos.mpr hdone with ⟨n, batch', hok, hn⟩
        rcases hshows n batch' hok 0 hn with ⟨value, hvalue, hsome⟩
        rw [hnone n batch' hok 0 hn] at hvalue
        cases hvalue
        simp [hasked] at hsome

theorem Agrees.tellsTruth_iff {session next : PktinfoSession}
    {action : PktinfoAction} (agrees : Agrees session)
    (h : PktinfoSession.step session action = some next) :
    Settled session action next ↔ TellsTruth session action next := by
  cases action with
  | receive receive =>
      rw [PktinfoSession.step] at h
      split at h
      · next hall => exact agrees.receive_iff hall
      · cases h
  | enable enabled first second =>
      rw [PktinfoSession.step] at h
      rcases session.socket.enablePktinfo_cases enabled first second with
        ⟨error, hcall, hhalf⟩ | ⟨error, hcall, hhalf⟩ | ⟨hcall, -, hhalf⟩
      · rw [hcall] at h
        cases h
        refine iff_of_true ?_ ?_
        · intro hset
          exact absurd hset hhalf
        · intro _ _
          rfl
      · rw [hcall] at h
        cases h
        constructor
        · intro settled _ _
          rw [settled hhalf]
        · intro htruth _
          have hsame := htruth error (by rw [hcall])
          exact congrArg PktinfoSocket.ipPktinfo hsame
      · refine iff_of_true ?_ ?_
        · intro hset
          exact absurd hset hhalf
        · intro error herror
          rw [hcall] at herror
          cases herror

end PktinfoSession

/-- In a run `enable_pktinfo` does what it reports exactly when no call changes
one option only, and packets do not come through `recvfrom` while destinations
are asked for. -/
theorem enablePktinfo_truthful_iff (family : Family)
    (actions : List PktinfoAction) :
    EveryStep PktinfoSession.step PktinfoSession.Settled (.start family)
        actions ↔
      EveryStep PktinfoSession.step PktinfoSession.TellsTruth (.start family)
        actions := by
  have hinit : (PktinfoSession.start family).Agrees := ⟨rfl, fun _ => rfl⟩
  apply EveryStep.congr_of_inv _ _ hinit
  · intro session action next agrees settled h
    exact agrees.step settled h
  · intro session action next agrees h
    exact agrees.tellsTruth_iff h

def pktinfoReceive : ClearedReceive where
  bufSize := 4
  batch := .withCapacity 1 4
  gro := false
  timestamping := false
  host := ⟨.linux, .little⟩
  os := { Linux.plainOs with
    recvScript := [.ok ⟨[1], Linux.loopbackSource, [.ipPktinfo .loopback]⟩] }

theorem pktinfoReceive_outcome :
    ∃ batch', pktinfoReceive.outcome = .ok (.ok 1, batch') ∧
      batch'.dstAddr 0 = .ok (some (.v4 .loopback 0)) := by
  have hcall := Linux.tryRecvBatch_of_recvmmsg ⟨false, false, true⟩
    ⟨.linux, .little⟩
    (show 0 < (RecvBatchRaw.withCapacity 1 4).clear.capacity by decide)
    (show pktinfoReceive.os.hasRecvmmsg = true from rfl)
  exact ⟨_, congrArg Prod.fst hcall, rfl⟩

/-- The call on an IPv4 socket fails, and the next packet has a destination. -/
theorem failed_call_enables_pktinfo :
    ∃ session, run PktinfoSession.step (.start .ipv4)
        [.enable true (.ok ()) (.ok ()), .receive pktinfoReceive] =
          some session ∧
      session.lastOk = none ∧
      (∃ batch', pktinfoReceive.outcome = .ok (.ok 1, batch') ∧
        batch'.dstAddr 0 = .ok (some (.v4 .loopback 0))) ∧
      ¬ EveryStep PktinfoSession.step PktinfoSession.TellsTruth
        (.start .ipv4)
        [.enable true (.ok ()) (.ok ()), .receive pktinfoReceive] := by
  refine ⟨⟨⟨.ipv4, true, false⟩, none⟩, rfl, rfl, pktinfoReceive_outcome, ?_⟩
  rintro ⟨-, hshows, -⟩
  rcases pktinfoReceive_outcome with ⟨batch', hok, hdst⟩
  rcases hshows 1 batch' hok 0 Nat.one_pos with ⟨value, hvalue, hsome⟩
  rw [hdst] at hvalue
  cases hvalue
  cases hsome.mp rfl

end Binger.Socket
