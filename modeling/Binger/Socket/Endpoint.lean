import Binger.Socket.RecvRuns
import Binger.Socket.WireRuns

/-!
# An endpoint

A program with one socket: any number of its calls send and receive at the same
time.  A receiving call is cut at its waits, so that datagrams may arrive in
between.  Whatever the calls do, the datagrams that have arrived are the ones
that were shown, in this order, followed by the ones in the queue.
-/

namespace Binger.Socket

open Binger.Foundation Binger.Platform Binger.Sockaddr

/-! ## Receiving calls in progress -/

inductive RecvMethod where
  | tryRecvBatch
  | recvBatch
  | recvFrom
  deriving DecidableEq

structure RecvTask where
  method : RecvMethod
  bufSize : Nat
  batch : RecvBatchRaw bufSize
  waiting : Bool

def RecvCall.receiver : RecvCall → RecvTask
  | tryRecvBatch batch => ⟨.tryRecvBatch, _, batch, false⟩
  | recvBatch batch => ⟨.recvBatch, _, batch, false⟩
  | recvFrom bufLen => ⟨.recvFrom, bufLen, .withCapacity 1 bufLen, false⟩

def RecvMethod.waits (method : RecvMethod) (result : IoResult Nat) : Bool :=
  match method with
  | .tryRecvBatch => false
  | .recvBatch | .recvFrom => (recvArm result).isNone

def RecvMethod.reads (method : RecvMethod) {bufSize : Nat}
    (batch : RecvBatchRaw bufSize) (result : IoResult Nat) :
    Except Panic (List Entry) :=
  match method, result with
  | _, .error _ => .ok []
  | .recvFrom, .ok _ => do
      let data ← batch.data 0
      let addr ← batch.addr 0
      return [(data.take (min data.length bufSize), addr)]
  | .tryRecvBatch, .ok n | .recvBatch, .ok n => batch.read n

/-! ## The endpoint -/

/-- `shown` has what the calls that returned showed, each packet with the size
of its buffer. -/
structure Endpoint where
  world : Tasks.World
  features : Features
  addr : SocketAddr
  receivers : List RecvTask
  shown : List (Nat × Entry)

/-- What can happen at an endpoint: steps of the sending and the receiving
calls, and answers of the kernel other than datagrams. -/
inductive EndpointEvent where
  | send (event : Tasks.Event)
  | startRecv (call : RecvCall)
  | attempt (r now : Nat)
  | wake (r : Nat) (outcome : IoResult Unit)
  | cancel (r : Nat)
  | sendAnswer (answer : Except Fault Unit)
  | recvFault (fault : Fault)

namespace Endpoint

def withSocket (endpoint : Endpoint) (socket : BingerUdp) (os : Os) :
    Endpoint :=
  { endpoint with world := { endpoint.world with socket := socket, os := os } }

def answered (endpoint : Endpoint)
    (answers : List (Except Fault Datagram)) : Endpoint :=
  endpoint.withSocket endpoint.world.socket
    { endpoint.world.os with
      recvScript := endpoint.world.os.recvScript ++ answers }

def putReceiver (endpoint : Endpoint) (r : Nat) (receiver : Option RecvTask) :
    Endpoint :=
  { endpoint with
    receivers := endpoint.receivers.take r ++ receiver.toList ++
      endpoint.receivers.drop (r + 1) }

/-- One attempt of a receiving call: it shows what it received and is done, or
it waits.  A panic ends the call. -/
def attempt (endpoint : Endpoint) (r now : Nat) (receiver : RecvTask) :
    Endpoint :=
  let socket := endpoint.world.socket
  match socket.tryRecvBatch
    (Platform.tryRecvBatch socket.backend endpoint.features socket.host)
    receiver.batch endpoint.world.os with
  | (.error _, os) => (endpoint.withSocket socket os).putReceiver r none
  | (.ok (result, socket, batch), os) =>
      if receiver.method.waits result then
        (endpoint.withSocket (socket.noteRecvWouldBlock now) os).putReceiver r
          (some ⟨receiver.method, receiver.bufSize, batch, true⟩)
      else
        match receiver.method.reads batch result with
        | .error _ => (endpoint.withSocket socket os).putReceiver r none
        | .ok entries =>
            { (endpoint.withSocket socket os).putReceiver r none with
              shown := endpoint.shown ++
                entries.map fun entry => (receiver.bufSize, entry) }

def step (endpoint : Endpoint) : EndpointEvent → Option Endpoint
  | .send event =>
      (Tasks.step endpoint.world event).map fun world =>
        { endpoint with world := world }
  | .startRecv call =>
      some { endpoint with
        receivers := endpoint.receivers ++ [call.receiver] }
  | .attempt r now =>
      match endpoint.receivers[r]? with
      | some receiver =>
          if receiver.waiting then none
          else some (endpoint.attempt r now receiver)
      | none => none
  | .wake r outcome =>
      match endpoint.receivers[r]? with
      | some receiver =>
          if receiver.waiting then
            match endpoint.world.socket.tokio, outcome with
            | true, .ok () =>
                some (endpoint.putReceiver r
                  (some { receiver with waiting := false }))
            | _, _ => some (endpoint.putReceiver r none)
          else none
      | none => none
  | .cancel r =>
      match endpoint.receivers[r]? with
      | some receiver =>
          if receiver.waiting then some (endpoint.putReceiver r none)
          else none
      | none => none
  | .sendAnswer answer =>
      some (endpoint.withSocket endpoint.world.socket
        { endpoint.world.os with
          sendScript := endpoint.world.os.sendScript ++ [answer] })
  | .recvFault fault => some (endpoint.answered [.error fault])

/-- An attempt of this event meets an undisturbed queue. -/
def Calm (endpoint : Endpoint) : EndpointEvent → Prop
  | .attempt r _ => ∀ receiver, endpoint.receivers[r]? = some receiver →
      Undisturbed endpoint.world.socket.backend endpoint.features
        receiver.bufSize endpoint.world.os
  | .send _ | .startRecv _ | .wake _ _ | .cancel _ | .sendAnswer _
  | .recvFault _ => True

end Endpoint

/-! ## What sending leaves alone -/

theorem trySendBatch_recvScript (backend : Backend) (host : Host)
    (batch : SendBatchRaw) (os : Os) :
    (Platform.trySendBatch backend host batch os).2.recvScript =
      os.recvScript := by
  cases backend with
  | linux =>
      cases h : os.hasSendmmsg with
      | true =>
          rw [Platform.trySendBatch,
            Linux.trySendBatch_of_sendmmsg host batch h]
          rfl
      | false =>
          rw [Platform.trySendBatch, Linux.trySendBatch_of_enosys host batch h,
            Linux.fallbackSend_eq]
          rfl
  | macos =>
      by_cases h : os.isConnected = true ∨ os.hasSendmsgX = false
      · rw [Platform.trySendBatch, Macos.trySendBatch_of_loop host batch h]
        rfl
      · simp only [not_or, Bool.not_eq_true, Bool.not_eq_false] at h
        rw [Platform.trySendBatch,
          Macos.trySendBatch_of_sendmsgX host batch h.1 h.2]
        rfl
  | windows =>
      rw [Platform.trySendBatch, Windows.trySendBatch_eq]
      rfl
  | fallback =>
      have hbatch := perPacketSend_batch host os.isConnected batch os
      rw [Platform.trySendBatch, Fallback.trySendBatch, hbatch]
      rfl

theorem Tasks.step_recvScript {world next : Tasks.World}
    {event : Tasks.Event} (h : Tasks.step world event = some next) :
    next.os.recvScript = world.os.recvScript := by
  cases Tasks.step_eq_some_iff.mp h with
  | start | settle | wake | cancel => rfl
  | @issue t call htask =>
      rw [Tasks.World.put_os]
      cases call.payload with
      | batch entries =>
          exact trySendBatch_recvScript world.socket.backend world.socket.host
            entries world.os
      | gso data segmentSize =>
          rcases hask : ask .wouldBlock world.os.sendScript with
            ⟨fault | ⟨⟨⟩⟩, script⟩ <;>
          simp [Tasks.Payload.issue, Linux.trySendGso, Os.offerSegmented, hask]

namespace Endpoint

/-! ## Steps -/

def Shows (item : Nat × Entry) (datagram : Datagram) : Prop :=
  item.2 = cutEntry item.1 datagram

def Single (endpoint : Endpoint) : Prop :=
  ∀ receiver ∈ endpoint.receivers, receiver.method = .recvFrom →
    receiver.batch.capacity = 1

def startedCalls : EndpointEvent → List Tasks.SendCall
  | .send event => Tasks.startedCalls [event]
  | .startRecv _ | .attempt _ _ | .wake _ _ | .cancel _ | .sendAnswer _
  | .recvFault _ => []

structure Moves (endpoint : Endpoint) (event : EndpointEvent)
    (next : Endpoint) : Prop where
  addr : next.addr = endpoint.addr
  single : next.Single
  queue : ∃ items taken, next.shown = endpoint.shown ++ items ∧
    List.Forall₂ Shows items taken ∧
    stock endpoint.world.os.recvScript =
      taken ++ stock next.world.os.recvScript
  pieces : ∀ {start : Tasks.World} {calls : List Tasks.SendCall}
    {pieces : List Tasks.Piece},
    Tasks.Pieces start calls endpoint.world pieces →
    ∃ added, Tasks.Pieces start (calls ++ startedCalls event) next.world
      (pieces ++ added)

theorem mem_putReceiver {endpoint : Endpoint} {r : Nat}
    {receiver : Option RecvTask} {other : RecvTask}
    (h : other ∈ (endpoint.putReceiver r receiver).receivers) :
    other ∈ endpoint.receivers ∨ some other = receiver := by
  simp only [putReceiver, List.mem_append, Option.mem_toList] at h
  rcases h with (h | h) | h
  · exact .inl (List.mem_of_mem_take h)
  · exact .inr h.symm
  · exact .inl (List.mem_of_mem_drop h)

theorem Single.putReceiver {endpoint : Endpoint} (h : endpoint.Single)
    (r : Nat) {receiver : Option RecvTask}
    (hreceiver : ∀ new, receiver = some new → new.method = .recvFrom →
      new.batch.capacity = 1) :
    (endpoint.putReceiver r receiver).Single := by
  intro other hmem hmethod
  rcases mem_putReceiver hmem with hold | hnew
  · exact h other hold hmethod
  · exact hreceiver other hnew.symm hmethod

theorem pieces_of_kernel {start world next : Tasks.World}
    {calls : List Tasks.SendCall} {pieces : List Tasks.Piece}
    (h : Tasks.Pieces start calls world pieces)
    (hbackend : next.socket.backend = world.socket.backend)
    (hwire : next.os.wire = world.os.wire) (htasks : next.tasks = world.tasks) :
    ∃ added, Tasks.Pieces start (calls ++ []) next (pieces ++ added) := by
  refine ⟨[], hbackend.trans h.backend, ?_, ?_, ?_⟩
  · rw [hwire, List.append_nil, h.wire]
  · rw [List.append_nil]
    exact h.adds
  · rw [List.append_nil, List.append_nil, Tasks.World.liveCalls, htasks]
    exact h.owners

theorem Moves.wire {endpoint next : Endpoint} {event : EndpointEvent}
    (h : Moves endpoint event next) :
    endpoint.world.os.wire <+: next.world.os.wire := by
  have hself : Tasks.Pieces endpoint.world endpoint.world.liveCalls
      endpoint.world [] :=
    ⟨rfl, (List.append_nil _).symm, by simp, List.Subperm.refl _⟩
  obtain ⟨added, hadded⟩ := h.pieces hself
  exact ⟨_, hadded.wire.symm⟩

theorem reads_of_takes {bufSize : Nat} {method : RecvMethod}
    {batch batch' : RecvBatchRaw bufSize} {os os' : Os}
    {taken : List Datagram} {result : IoResult Nat}
    (h : Takes batch os taken result batch' os')
    (hdone : method.waits result = false)
    (hsingle : method = .recvFrom → batch.capacity = 1) :
    method.reads batch' result = .ok (taken.map (cutEntry bufSize)) := by
  cases result with
  | error error =>
      rw [h.failed error rfl]
      cases method <;> rfl
  | ok n =>
      have hcount := h.count n rfl
      cases method with
      | tryRecvBatch | recvBatch =>
          rw [RecvMethod.reads, hcount]
          exact h.shown
      | recvFrom =>
          have hsome : taken ≠ [] := by
            rintro rfl
            rw [hcount] at hdone
            cases hdone
          have hroom := h.room
          rw [hsingle rfl] at hroom
          obtain ⟨datagram, rfl, hdata, haddr, hmin⟩ :=
            BingerUdp.read_single h.shown hsome hroom
          simp only [RecvMethod.reads, hdata, haddr, hmin, bind, Except.bind,
            pure, Except.pure, List.take_length]
          rfl

theorem nothing_taken_of_waits {bufSize : Nat} {method : RecvMethod}
    {batch batch' : RecvBatchRaw bufSize} {os os' : Os}
    {taken : List Datagram} {result : IoResult Nat}
    (h : Takes batch os taken result batch' os')
    (hwaits : method.waits result = true) : taken = [] := by
  apply BingerUdp.nothing_taken_of_wait h
  cases method with
  | tryRecvBatch => cases hwaits
  | recvBatch | recvFrom => exact Option.isNone_iff_eq_none.mp hwaits

theorem forall₂_shows (bufSize : Nat) (taken : List Datagram) :
    List.Forall₂ Shows
      ((taken.map (cutEntry bufSize)).map fun entry => (bufSize, entry))
      taken := by
  rw [List.map_map, List.forall₂_map_left_iff, List.forall₂_same]
  intro datagram _
  rfl

section Attempt

variable {endpoint : Endpoint} {receiver : RecvTask} {result : IoResult Nat}
  {socket' : BingerUdp} {batch' : RecvBatchRaw receiver.bufSize} {os' : Os}

theorem attempt_of_wait (r now : Nat)
    (htry : endpoint.world.socket.tryRecvBatch
      (Platform.tryRecvBatch endpoint.world.socket.backend endpoint.features
        endpoint.world.socket.host) receiver.batch endpoint.world.os =
        (.ok (result, socket', batch'), os'))
    (hwaits : receiver.method.waits result = true) :
    endpoint.attempt r now receiver =
      (endpoint.withSocket (socket'.noteRecvWouldBlock now) os').putReceiver r
        (some ⟨receiver.method, receiver.bufSize, batch', true⟩) := by
  simp only [attempt, htry, hwaits, if_true]

theorem attempt_of_done (r now : Nat) {entries : List Entry}
    (htry : endpoint.world.socket.tryRecvBatch
      (Platform.tryRecvBatch endpoint.world.socket.backend endpoint.features
        endpoint.world.socket.host) receiver.batch endpoint.world.os =
        (.ok (result, socket', batch'), os'))
    (hdone : receiver.method.waits result = false)
    (hreads : receiver.method.reads batch' result = .ok entries) :
    endpoint.attempt r now receiver =
      { (endpoint.withSocket socket' os').putReceiver r none with
        shown := endpoint.shown ++
          entries.map fun entry => (receiver.bufSize, entry) } := by
  simp only [attempt, htry, hdone, hreads, Bool.false_eq_true, if_false]

end Attempt

theorem attempt_moves {endpoint : Endpoint} {r : Nat} {receiver : RecvTask}
    (hsingle : endpoint.Single)
    (hreceiver : endpoint.receivers[r]? = some receiver) (now : Nat)
    (h : Undisturbed endpoint.world.socket.backend endpoint.features
      receiver.bufSize endpoint.world.os) :
    Moves endpoint (.attempt r now) (endpoint.attempt r now receiver) := by
  obtain ⟨result, batch', os', taken, hcall, htakes⟩ :=
    tryRecvBatch_takes endpoint.world.socket.host receiver.batch h
  obtain ⟨socket', htry⟩ :=
    BingerUdp.tryRecvBatch_of_platform endpoint.world.socket hcall
  have hone : receiver.method = .recvFrom → receiver.batch.capacity = 1 :=
    hsingle receiver (List.mem_of_getElem? hreceiver)
  have hbackend : socket'.backend = endpoint.world.socket.backend := by
    rw [BingerUdp.tryRecvBatch, hcall] at htry
    cases result <;> cases htry <;> rfl
  have hwire : os'.wire = endpoint.world.os.wire := by rw [htakes.kernel]
  cases hwaits : receiver.method.waits result with
  | true =>
      obtain rfl := nothing_taken_of_waits htakes hwaits
      have hcapacity :=
        (tryRecvBatch_keeps (congrArg Prod.fst hcall)).capacity_eq
      rw [attempt_of_wait r now htry hwaits]
      refine ⟨rfl, ?_, ⟨[], [], ?_, .nil, htakes.queue⟩, fun hpieces =>
        pieces_of_kernel hpieces hbackend hwire rfl⟩
      · have hsame : (endpoint.withSocket (socket'.noteRecvWouldBlock now)
            os').Single := hsingle
        apply hsame.putReceiver
        rintro new ⟨⟩ hmethod
        exact hcapacity.trans (hone hmethod)
      · exact (List.append_nil _).symm
  | false =>
      have hreads := reads_of_takes htakes hwaits hone
      rw [attempt_of_done r now htry hwaits hreads]
      refine ⟨rfl, ?_, ⟨_, taken, rfl, forall₂_shows _ _, htakes.queue⟩,
        fun hpieces => pieces_of_kernel hpieces hbackend hwire rfl⟩
      have hsame : (endpoint.withSocket socket' os').Single := hsingle
      apply hsame.putReceiver
      simp

theorem Moves.quiet {endpoint next : Endpoint} {event : EndpointEvent}
    (haddr : next.addr = endpoint.addr) (hsingle : next.Single)
    (hshown : next.shown = endpoint.shown)
    (hqueue : stock next.world.os.recvScript =
      stock endpoint.world.os.recvScript)
    (hbackend : next.world.socket.backend = endpoint.world.socket.backend)
    (hwire : next.world.os.wire = endpoint.world.os.wire)
    (htasks : next.world.tasks = endpoint.world.tasks)
    (hcalls : startedCalls event = []) : Moves endpoint event next := by
  refine ⟨haddr, hsingle, ⟨[], [], ?_, .nil, hqueue.symm⟩, ?_⟩
  · rw [hshown, List.append_nil]
  · intro start calls pieces hpieces
    rw [hcalls]
    exact pieces_of_kernel hpieces hbackend hwire htasks

theorem stock_append_fault (script : List (Except Fault Datagram))
    (fault : Fault) : stock (script ++ [.error fault]) = stock script := by
  simp [stock, Except.toOption]

theorem step_moves {endpoint next : Endpoint} {event : EndpointEvent}
    (hsingle : endpoint.Single) (hcalm : endpoint.Calm event)
    (h : endpoint.step event = some next) : Moves endpoint event next := by
  cases event with
  | send event =>
      obtain ⟨world, hworld, rfl⟩ := Option.map_eq_some_iff.mp h
      refine ⟨rfl, hsingle, ⟨[], [], (List.append_nil _).symm, .nil, ?_⟩, ?_⟩
      · exact congrArg stock (Tasks.step_recvScript hworld).symm
      · intro start calls pieces hpieces
        exact Tasks.step_pieces hpieces hworld
  | startRecv call =>
      cases h
      refine .quiet rfl ?_ rfl rfl rfl rfl rfl rfl
      intro receiver hmem hmethod
      rcases List.mem_append.mp hmem with hold | hnew
      · exact hsingle receiver hold hmethod
      · obtain rfl := List.mem_singleton.mp hnew
        cases call with
        | tryRecvBatch | recvBatch => cases hmethod
        | recvFrom bufLen => exact RecvBatchRaw.capacity_withCapacity 1 bufLen
  | attempt r now =>
      rw [step] at h
      split at h
      · next receiver hreceiver =>
          split at h
          · cases h
          · cases h
            exact attempt_moves hsingle hreceiver now (hcalm receiver hreceiver)
      · cases h
  | wake r outcome =>
      rw [step] at h
      split at h
      · next receiver hreceiver =>
          split at h
          · split at h
            · cases h
              refine .quiet rfl (hsingle.putReceiver r ?_) rfl rfl rfl rfl rfl
                rfl
              rintro new ⟨⟩ hmethod
              exact hsingle receiver (List.mem_of_getElem? hreceiver) hmethod
            · cases h
              exact .quiet rfl (hsingle.putReceiver r (by simp)) rfl rfl rfl
                rfl rfl rfl
          · cases h
      · cases h
  | cancel r =>
      rw [step] at h
      split at h
      · split at h
        · cases h
          exact .quiet rfl (hsingle.putReceiver r (by simp)) rfl rfl rfl rfl
            rfl rfl
        · cases h
      · cases h
  | sendAnswer answer =>
      cases h
      exact .quiet rfl hsingle rfl rfl rfl rfl rfl rfl
  | recvFault fault =>
      cases h
      refine .quiet rfl hsingle rfl ?_ rfl rfl rfl rfl
      exact stock_append_fault _ fault

/-! ## The functions of the socket are runs -/

section Alone

variable (base : Endpoint)

def alone (socket : BingerUdp) (os : Os) (task : Option RecvTask) : Endpoint :=
  { base.withSocket socket os with receivers := task.toList }

def returned (socket : BingerUdp) (os : Os) (bufSize : Nat)
    (entries : List Entry) : Endpoint :=
  { base.alone socket os none with
    shown := base.shown ++ entries.map fun entry => (bufSize, entry) }

variable {base}
variable {bufSize : Nat} {method : RecvMethod}
  {batch batch' : RecvBatchRaw bufSize} {socket socket' : BingerUdp}
  {os os' : Os} {result : IoResult Nat}

theorem run_attempt_waits (now : Nat)
    (htry : socket.tryRecvBatch (Platform.tryRecvBatch socket.backend
      base.features socket.host) batch os =
        (.ok (result, socket', batch'), os'))
    (hwaits : method.waits result = true) :
    run step (base.alone socket os (some ⟨method, bufSize, batch, false⟩))
        [.attempt 0 now] =
      some (base.alone (socket'.noteRecvWouldBlock now) os'
        (some ⟨method, bufSize, batch', true⟩)) := by
  have hattempt := @attempt_of_wait
    (base.alone socket os (some ⟨method, bufSize, batch, false⟩))
    ⟨method, bufSize, batch, false⟩ result socket' batch' os' 0 now htry hwaits
  exact congrArg some hattempt

theorem run_attempt_done {entries : List Entry}
    (htry : socket.tryRecvBatch (Platform.tryRecvBatch socket.backend
      base.features socket.host) batch os =
        (.ok (result, socket', batch'), os'))
    (hdone : method.waits result = false)
    (hreads : method.reads batch' result = .ok entries) :
    run step (base.alone socket os (some ⟨method, bufSize, batch, false⟩))
        [.attempt 0 0] =
      some (base.returned socket' os' bufSize entries) := by
  have hattempt := @attempt_of_done
    (base.alone socket os (some ⟨method, bufSize, batch, false⟩))
    ⟨method, bufSize, batch, false⟩ result socket' batch' os' 0 0 entries htry
    hdone hreads
  exact congrArg some hattempt

theorem run_wake (task : RecvTask) (outcome : IoResult Unit) :
    run step (base.alone socket os (some { task with waiting := true }))
        [.wake 0 outcome] =
      some (base.alone socket os
        (match socket.tokio, outcome with
        | true, .ok () => some { task with waiting := false }
        | _, _ => none)) := by
  rcases htokio : socket.tokio with - | - <;>
    rcases outcome with error | ⟨⟨⟩⟩ <;>
    simp [run, step, alone, withSocket, putReceiver, htokio]

theorem tryRecvBatch_fields
    {platform : RecvBatchRaw bufSize → Os → RecvOutcome bufSize × Os}
    (h : socket.tryRecvBatch platform batch os =
      (.ok (result, socket', batch'), os')) :
    socket'.backend = socket.backend ∧ socket'.host = socket.host := by
  rw [BingerUdp.tryRecvBatch] at h
  split at h <;> cases h <;> exact ⟨rfl, rfl⟩

/-- The loop of `recv_batch` and `recv_from`, cut at its waits. -/
theorem recvBatch_is_run {waits : List Wait} {entries : List Entry}
    (hmethod : method ≠ .tryRecvBatch)
    (h : BingerUdp.recvBatch (Platform.tryRecvBatch socket.backend
      base.features socket.host) waits socket batch os =
        (.ok (.ready result, socket', batch'), os'))
    (hreads : method.reads batch' result = .ok entries) :
    ∃ events,
      run step (base.alone socket os (some ⟨method, bufSize, batch, false⟩))
          events = some (base.returned socket' os' bufSize entries) := by
  have hloop : ∀ tried, method.waits tried = (recvArm tried).isNone := by
    intro tried
    cases method with
    | tryRecvBatch => exact absurd rfl hmethod
    | recvBatch | recvFrom => rfl
  -- a wait that fails ends the call without packets
  have hfails : ∀ {socket : BingerUdp} {os : Os} {error : IoError},
      result = .error error →
      base.alone socket os none = base.returned socket os bufSize entries := by
    rintro socket os error rfl
    have hentries : entries = [] := by
      cases method <;> cases hreads <;> rfl
    simp [returned, alone, hentries, withSocket]
  induction waits generalizing socket batch os with
  | nil =>
      obtain ⟨tried, socket₁, batch₁, os₁, htry, hends | hwaits⟩ :=
        BingerUdp.recvBatch_attempt_cases h
      · obtain ⟨harm, hpoll, rfl, rfl, rfl⟩ := hends
        cases hpoll
        exact ⟨_, run_attempt_done htry (by simp [hloop, harm]) hreads⟩
      · rw [BingerUdp.recvBatch] at h
        simp [htry, hwaits] at h
  | cons wait waits ih =>
      obtain ⟨tried, socket₁, batch₁, os₁, htry, hends | hwaits⟩ :=
        BingerUdp.recvBatch_attempt_cases h
      · obtain ⟨harm, hpoll, rfl, rfl, rfl⟩ := hends
        cases hpoll
        exact ⟨_, run_attempt_done htry (by simp [hloop, harm]) hreads⟩
      · have hattempt := run_attempt_waits wait.now htry
          (show method.waits tried = true by simp [hloop, hwaits])
        have hwake := @run_wake base (socket₁.noteRecvWouldBlock wait.now) os₁
          ⟨method, bufSize, batch₁, true⟩ wait.outcome
        have hboth := run_append_eq_some.mpr ⟨_, hattempt, hwake⟩
        rw [BingerUdp.recvBatch] at h
        simp only [htry, hwaits] at h
        split at h
        · next htokio =>
            split at h
            · next houtcome =>
                obtain ⟨hbackend, hhost⟩ := tryRecvBatch_fields htry
                rw [← hbackend, ← hhost] at h
                obtain ⟨events, hevents⟩ :=
                  @ih batch₁ (socket₁.noteRecvWouldBlock wait.now) os₁ h
                refine ⟨_ ++ events, run_append_eq_some.mpr ⟨_, hboth, ?_⟩⟩
                rw [htokio, houtcome]
                exact hevents
            · next error houtcome =>
                cases h
                refine ⟨_, hboth.trans ?_⟩
                rw [htokio, houtcome]
                exact congrArg some (hfails rfl)
        · next htokio =>
            cases h
            refine ⟨_, hboth.trans ?_⟩
            rw [Bool.not_eq_true] at htokio
            rw [htokio]
            exact congrArg some (hfails rfl)

end Alone

end Endpoint

end Binger.Socket
