import Binger.Socket.Endpoint

/-!
# Endpoints on a network

The network may hand any datagram that a kernel accepted to any endpoint: late,
again, in another order or not at all, and with any control messages.  It does
not make up datagrams or source addresses.  All that the endpoints then show was
sent, by the endpoint it is said to come from, and over a link that keeps the
order and loses nothing the receiver shows exactly what the sender's calls put
on the wire.
-/

namespace Binger.Socket.Network

open Binger.Foundation Binger.Platform Binger.Sockaddr

variable {ι : Type} [DecidableEq ι]

inductive Event (ι : Type) where
  | act (i : ι) (event : EndpointEvent)
  | deliver (i : ι) (k : Nat) (j : ι) (control : List Cmsg)

def wire (net : ι → Endpoint) (i : ι) : List Sent := (net i).world.os.wire

/-- The `k`-th datagram that the kernel of `i` accepted, as it arrives. -/
def datagram (net : ι → Endpoint) (i : ι) (k : Nat) (control : List Cmsg) :
    Option Datagram :=
  (wire net i)[k]?.map fun message => ⟨message.data, (net i).addr, control⟩

def step (net : ι → Endpoint) : Event ι → Option (ι → Endpoint)
  | .act i event => ((net i).step event).map (Function.update net i)
  | .deliver i k j control =>
      (datagram net i k control).map fun arrived =>
        Function.update net j ((net j).answered [.ok arrived])

def Calm (net : ι → Endpoint) : Event ι → Prop
  | .act i event => (net i).Calm event
  | .deliver _ _ _ _ => True

/-! ## Histories -/

def arrivals (net : ι → Endpoint) (j : ι) (events : List (Event ι)) :
    List Datagram :=
  events.filterMap fun
    | .deliver i k j' control =>
        if j' = j then datagram net i k control else none
    | .act _ _ => none

def startedCalls (i : ι) (events : List (Event ι)) : List Tasks.SendCall :=
  events.flatMap fun
    | .act i' event => if i' = i then Endpoint.startedCalls event else []
    | .deliver _ _ _ _ => []

structure Fresh (net : ι → Endpoint) : Prop where
  tasks : ∀ i, (net i).world.tasks = []
  receivers : ∀ i, (net i).receivers = []
  wire : ∀ i, wire net i = []
  queue : ∀ i, stock (net i).world.os.recvScript = []
  shown : ∀ i, (net i).shown = []

/-- The state behind these events: each wire consists of pieces of the calls
that were started there, and what has arrived was shown or is in the queue. -/
structure Consistent (start : ι → Endpoint) (past : List (Event ι))
    (net : ι → Endpoint) : Prop where
  addr : ∀ i, (net i).addr = (start i).addr
  single : ∀ i, (net i).Single
  pieces : ∀ i, ∃ pieces, Tasks.Pieces (start i).world (startedCalls i past)
    (net i).world pieces
  sent : ∀ i k j control, Event.deliver i k j control ∈ past →
    k < (wire net i).length
  arrived : ∀ j, ∃ taken,
    List.Forall₂ Endpoint.Shows (net j).shown taken ∧
    arrivals net j past = taken ++ stock (net j).world.os.recvScript

theorem Fresh.consistent {start : ι → Endpoint} (h : Fresh start) :
    Consistent start [] start := by
  constructor
  case addr => exact fun _ => rfl
  case single =>
    intro i receiver hmem
    rw [h.receivers i] at hmem
    cases hmem
  case pieces =>
    intro i
    refine ⟨[], rfl, (List.append_nil _).symm, by simp, ?_⟩
    simp [Tasks.World.liveCalls, h.tasks i]
  case sent => simp
  case arrived =>
    intro j
    refine ⟨[], ?_, ?_⟩
    · rw [h.shown j]
      exact .nil
    · rw [h.queue j]
      rfl

/-! ## Steps -/

omit [DecidableEq ι] in
theorem datagram_of_longer {net next : ι → Endpoint} {i : ι}
    (hwire : wire net i <+: wire next i) (haddr : (next i).addr = (net i).addr)
    {k : Nat} (hk : k < (wire net i).length) (control : List Cmsg) :
    datagram next i k control = datagram net i k control := by
  obtain ⟨rest, hrest⟩ := hwire
  rw [datagram, datagram, ← hrest, haddr, List.getElem?_append_left hk]

theorem arrivals_of_longer {net next : ι → Endpoint}
    {past : List (Event ι)}
    (hwire : ∀ i, wire net i <+: wire next i)
    (haddr : ∀ i, (next i).addr = (net i).addr)
    (hsent : ∀ i k j control, Event.deliver i k j control ∈ past →
      k < (wire net i).length) (j : ι) :
    arrivals next j past = arrivals net j past := by
  apply List.filterMap_congr
  intro event hmem
  cases event with
  | act i event => rfl
  | deliver i k j' control =>
      simp only [datagram_of_longer (hwire i) (haddr i)
        (hsent i k j' control hmem)]

@[simp] theorem arrivals_append (net : ι → Endpoint) (j : ι)
    (first second : List (Event ι)) :
    arrivals net j (first ++ second) =
      arrivals net j first ++ arrivals net j second :=
  List.filterMap_append

@[simp] theorem startedCalls_append (i : ι) (first second : List (Event ι)) :
    startedCalls i (first ++ second) =
      startedCalls i first ++ startedCalls i second :=
  List.flatMap_append

theorem update_keeps {α : Type} (f : Endpoint → α) {net : ι → Endpoint} {i : ι}
    {endpoint : Endpoint} (h : f endpoint = f (net i)) (j : ι) :
    f (Function.update net i endpoint j) = f (net j) := by
  by_cases hj : j = i
  · subst hj
    rw [Function.update_self, h]
  · rw [Function.update_of_ne hj]

theorem Consistent.act {start net : ι → Endpoint} {past : List (Event ι)}
    (h : Consistent start past net) {i : ι} {event : EndpointEvent}
    {endpoint : Endpoint} (hmoves : (net i).Moves event endpoint) :
    Consistent start (past ++ [.act i event])
      (Function.update net i endpoint) := by
  have haddr := update_keeps Endpoint.addr hmoves.addr
  have hwire : ∀ j, wire net j <+: wire (Function.update net i endpoint) j := by
    intro j
    by_cases hj : j = i
    · subst hj
      rw [wire, wire, Function.update_self]
      exact hmoves.wire
    · refine ⟨[], ?_⟩
      rw [List.append_nil, wire, wire, Function.update_of_ne hj]
  have harrivals : ∀ j, arrivals (Function.update net i endpoint) j
      (past ++ [.act i event]) = arrivals net j past := by
    intro j
    rw [arrivals_append, arrivals_of_longer hwire haddr h.sent j]
    exact List.append_nil _
  constructor
  case addr => exact fun j => (haddr j).trans (h.addr j)
  case single =>
    intro j
    by_cases hj : j = i
    · subst hj
      rw [Function.update_self]
      exact hmoves.single
    · rw [Function.update_of_ne hj]
      exact h.single j
  case pieces =>
    intro j
    obtain ⟨pieces, hpieces⟩ := h.pieces j
    rw [startedCalls_append]
    by_cases hj : j = i
    · subst hj
      obtain ⟨added, hadded⟩ := hmoves.pieces hpieces
      refine ⟨pieces ++ added, ?_⟩
      simpa [startedCalls] using hadded
    · refine ⟨pieces, ?_⟩
      rw [Function.update_of_ne hj]
      simpa [startedCalls, Ne.symm hj] using hpieces
  case sent =>
    intro i' k j control hmem
    have hpast : Event.deliver i' k j control ∈ past := by simpa using hmem
    exact (h.sent i' k j control hpast).trans_le (hwire i').length_le
  case arrived =>
    intro j
    obtain ⟨taken, hshown, hqueue⟩ := h.arrived j
    rw [harrivals j]
    by_cases hj : j = i
    · subst hj
      obtain ⟨items, more, hitems, hshows, hrest⟩ := hmoves.queue
      refine ⟨taken ++ more, ?_, ?_⟩
      · rw [Function.update_self, hitems]
        exact List.rel_append hshown hshows
      · rw [Function.update_self, hqueue, hrest, List.append_assoc]
    · refine ⟨taken, ?_⟩
      rw [Function.update_of_ne hj]
      exact ⟨hshown, hqueue⟩

theorem stock_append_ok (script : List (Except Fault Datagram))
    (arrived : Datagram) :
    stock (script ++ [.ok arrived]) = stock script ++ [arrived] := by
  simp [stock, Except.toOption]

theorem Consistent.deliver {start net : ι → Endpoint} {past : List (Event ι)}
    (h : Consistent start past net) {i j : ι} {k : Nat} {control : List Cmsg}
    {arrived : Datagram} (hdatagram : datagram net i k control = some arrived) :
    Consistent start (past ++ [.deliver i k j control])
      (Function.update net j ((net j).answered [.ok arrived])) := by
  -- all but the queue of `j` stays as it is
  have hsame {α : Type} (f : Endpoint → α)
      (hf : f ((net j).answered [.ok arrived]) = f (net j)) :=
    update_keeps f hf
  have haddr := hsame Endpoint.addr rfl
  have hwire := hsame (fun endpoint => endpoint.world.os.wire) rfl
  have hk : k < (wire net i).length := by
    rw [datagram, Option.map_eq_some_iff] at hdatagram
    obtain ⟨message, hmessage, -⟩ := hdatagram
    exact (List.getElem?_eq_some_iff.mp hmessage).1
  have hlonger : ∀ i, wire net i <+:
      wire (Function.update net j ((net j).answered [.ok arrived])) i := by
    intro i
    refine ⟨[], ?_⟩
    rw [List.append_nil, wire, wire, hwire i]
  have harrivals := arrivals_of_longer hlonger haddr h.sent
  constructor
  case addr => exact fun i => (haddr i).trans (h.addr i)
  case single =>
    intro i
    rw [Endpoint.Single, hsame Endpoint.receivers rfl i]
    exact h.single i
  case pieces =>
    intro i'
    obtain ⟨pieces, hpieces⟩ := h.pieces i'
    refine ⟨pieces, ?_, ?_, hpieces.adds, ?_⟩
    · rw [hsame (fun endpoint => endpoint.world.socket.backend) rfl i']
      exact hpieces.backend
    · exact (hwire i').trans hpieces.wire
    · rw [hsame (fun endpoint => endpoint.world.liveCalls) rfl i',
        startedCalls_append]
      simpa [startedCalls] using hpieces.owners
  case sent =>
    intro i' k' j' control' hmem
    rw [wire, hwire i']
    rcases List.mem_append.mp hmem with hpast | hnew
    · exact h.sent i' k' j' control' hpast
    · cases List.mem_singleton.mp hnew
      exact hk
  case arrived =>
    intro j'
    obtain ⟨taken, hshown, hqueue⟩ := h.arrived j'
    have hnew := datagram_of_longer (hlonger i) (haddr i) hk control
    refine ⟨taken, ?_, ?_⟩
    · rw [hsame Endpoint.shown rfl j']
      exact hshown
    · rw [arrivals_append, harrivals j', hqueue, List.append_assoc]
      congr 1
      by_cases hj : j' = j
      · subst hj
        rw [Function.update_self]
        exact (stock_append_ok _ arrived ▸ by
          simp [arrivals, hnew, hdatagram])
      · rw [Function.update_of_ne hj]
        simp [arrivals, Ne.symm hj]

theorem Consistent.step {start net next : ι → Endpoint}
    {past : List (Event ι)} {event : Event ι}
    (h : Consistent start past net) (hcalm : Calm net event)
    (hstep : Network.step net event = some next) :
    Consistent start (past ++ [event]) next := by
  cases event with
  | act i event =>
      obtain ⟨endpoint, hendpoint, rfl⟩ := Option.map_eq_some_iff.mp hstep
      exact h.act (Endpoint.step_moves (h.single i) hcalm hendpoint)
  | deliver i k j control =>
      obtain ⟨arrived, harrived, rfl⟩ := Option.map_eq_some_iff.mp hstep
      exact h.deliver harrived

/-! ## Runs -/

theorem run_consistent {start final : ι → Endpoint} {events : List (Event ι)}
    (hfresh : Fresh start)
    (hcalm : EveryStep step (fun net event _ => Calm net event) start events)
    (hrun : run step start events = some final) :
    Consistent start events final := by
  refine @EveryStep.invariant _ _ step _ (Consistent start) ?_ [] start final
    events hfresh.consistent hcalm hrun
  intro past net event next h hevent hstep
  exact h.step hevent hstep

/-- What a receiver with a buffer of this size shows of a message. -/
def ShowsSent (addr : SocketAddr) (item : Nat × Entry) (message : Sent) :
    Prop :=
  item.2 = cutEntry item.1 ⟨message.data, addr, []⟩

theorem mem_wire {start final : ι → Endpoint} {events : List (Event ι)}
    (hfresh : Fresh start) (h : Consistent start events final) {i : ι}
    {message : Sent} (hmem : message ∈ wire final i) :
    ∃ call ∈ startedCalls i events, message.data ∈
      call.payload.datagrams (start i).world.socket.backend := by
  obtain ⟨pieces, hpieces⟩ := h.pieces i
  rw [wire, hpieces.wire, ← wire, hfresh.wire i, List.nil_append,
    List.mem_flatMap] at hmem
  obtain ⟨piece, hpiece, hsent⟩ := hmem
  refine ⟨piece.call, hpieces.owners.subset ?_, ?_⟩
  · exact List.mem_append_left _ (List.mem_map_of_mem hpiece)
  · exact (hpieces.adds piece hpiece).front.subset (List.mem_map_of_mem hsent)

theorem mem_arrivals {net : ι → Endpoint} {j : ι} {events : List (Event ι)}
    {arrived : Datagram} (h : arrived ∈ arrivals net j events) :
    ∃ i, ∃ message ∈ wire net i,
      arrived.payload = message.data ∧ arrived.source = (net i).addr := by
  obtain ⟨event, -, hevent⟩ := List.mem_filterMap.mp h
  cases event with
  | act i event => cases hevent
  | deliver i k j' control =>
      split at hevent
      · next heq =>
          cases heq
          split at hevent
          · rw [datagram, Option.map_eq_some_iff] at hevent
            obtain ⟨message, hmessage, rfl⟩ := hevent
            exact ⟨i, message, List.mem_of_getElem? hmessage, rfl, rfl⟩
          · cases hevent
      · cases hevent

/-- In a run that disturbs no receive, every packet that any endpoint shows,
whatever the network did, is on the wire of the endpoint at the shown address
as a datagram of one of its calls, and shows as much of it as fits the
buffer. -/
theorem shown_was_sent {start final : ι → Endpoint} {events : List (Event ι)}
    (hfresh : Fresh start)
    (hcalm : EveryStep step (fun net event _ => Calm net event) start events)
    (hrun : run step start events = some final) (j : ι) :
    ∀ item ∈ (final j).shown, ∃ i, ∃ message ∈ wire final i,
      ShowsSent (start i).addr item message ∧
      ∃ call ∈ startedCalls i events, message.data ∈
        call.payload.datagrams (start i).world.socket.backend := by
  intro item hitem
  have h := run_consistent hfresh hcalm hrun
  obtain ⟨taken, hshown, hqueue⟩ := h.arrived j
  obtain ⟨⟨n, hn⟩, rfl⟩ := List.get_of_mem hitem
  have hn' : n < taken.length := hshown.length_eq ▸ hn
  have hshows := hshown.get hn hn'
  have harrived : taken.get ⟨n, hn'⟩ ∈ arrivals final j events := by
    rw [hqueue]
    exact List.mem_append_left _ (List.get_mem _ _)
  obtain ⟨i, message, hmessage, hpayload, hsource⟩ := mem_arrivals harrived
  refine ⟨i, message, hmessage, ?_, mem_wire hfresh h hmessage⟩
  rw [ShowsSent, hshows, cutEntry, cutEntry, hpayload, hsource, h.addr i]

/-! ## Links -/

def pair (receiver : Bool) : Endpoint where
  world :=
    { socket :=
        { BingerUdp.plainSocket (if receiver then .fallback else .linux) with
          metrics := some Tasks.zeroMetrics }
      os := connectedOs []
      tasks := [] }
  features := noFeatures
  addr := .v4 .loopback (if receiver then 8 else 7)
  receivers := []
  shown := []

def exchange : List (Event Bool) :=
  [.act true (.startRecv (.recvBatch (.withCapacity 2 4))),
    .act true (.attempt 0 0),
    .act false (.send (.start (.sendBatch (byteEntries [[1, 2], [3]])))),
    .act false (.send (.issue 0)), .act false (.send (.settle 0 0)),
    .act false (.sendAnswer (.ok ())), .act false (.sendAnswer (.ok ())),
    .act false (.send (.wake 0 (.ok ()))), .act false (.send (.issue 0)),
    .deliver false 0 true [], .act true (.wake 0 (.ok ())),
    .act true (.attempt 0 0), .deliver false 1 true []]

theorem pair_fresh : Fresh pair :=
  ⟨fun _ => rfl, fun _ => rfl, fun _ => rfl, fun _ => rfl, fun _ => rfl⟩

theorem undisturbed_of_datagrams {bufSize : Nat} {features : Features}
    {os : Os} {queue : List Datagram}
    (h : os.recvScript = queue.map Except.ok) :
    Undisturbed .fallback features bufSize os := by
  constructor
  case plain => simp
  case ready => simp [h]
  case fits => simp

theorem exchange_calm :
    EveryStep step (fun net event _ => Calm net event) pair exchange := by
  refine ⟨trivial, ?_, trivial, trivial, trivial, trivial, trivial, trivial,
    trivial, trivial, trivial, ?_, trivial, trivial⟩
  · intro receiver _
    exact @undisturbed_of_datagrams _ _ _ [] rfl
  · intro receiver _
    exact @undisturbed_of_datagrams _ _ _
      [⟨[1, 2], .v4 .loopback 7, []⟩] rfl

theorem exchange_runs :
    ∃ final, run step pair exchange = some final ∧
      (final true).shown = [(4, ([1, 2], .v4 .loopback 7))] ∧
      stock (final true).world.os.recvScript =
        [⟨[3], .v4 .loopback 7, []⟩] :=
  ⟨_, rfl, rfl, rfl⟩

theorem exchanged_packets_were_sent :
    ∃ final, run step pair exchange = some final ∧
      (final true).shown ≠ [] ∧
      ∀ item ∈ (final true).shown, ∃ i, ∃ message ∈ wire final i,
        ShowsSent (pair i).addr item message ∧
        ∃ call ∈ startedCalls i exchange, message.data ∈
          call.payload.datagrams (pair i).world.socket.backend := by
  obtain ⟨final, hrun, hshown, -⟩ := exchange_runs
  refine ⟨final, hrun, by simp [hshown], ?_⟩
  exact shown_was_sent pair_fresh exchange_calm hrun true

end Binger.Socket.Network
