import Binger.Socket.Network

/-!
# Metrics and controllers only observe

A socket counts what it does and, with adaptive batching, keeps two controllers.
No call ever reads them: `recommended_batch_size` is for the caller alone.  So a
network without any of them, in which all clocks stand still, takes the same
steps, makes the same calls wait and return, and sends and shows the same
datagrams.
-/

namespace Binger.Socket

open Binger.Foundation Binger.Platform

def BingerUdp.bare (socket : BingerUdp) : BingerUdp :=
  { socket with metrics := none, adaptiveSend := none, adaptiveRecv := none }

namespace BingerUdp

theorem bare_tryRecvBatch {bufSize : Nat}
    (platform : RecvBatchRaw bufSize → Os → RecvOutcome bufSize × Os)
    (socket : BingerUdp) (batch : RecvBatchRaw bufSize) (os : Os) :
    socket.bare.tryRecvBatch platform batch os =
      ((socket.tryRecvBatch platform batch os).1.map
        (fun out => (out.1, out.2.1.bare, out.2.2)),
        (socket.tryRecvBatch platform batch os).2) := by
  rw [tryRecvBatch, tryRecvBatch]
  rcases platform batch os with ⟨panic | ⟨error | received, batch'⟩, os'⟩ <;>
    rfl

@[simp] theorem bare_noteRecvWouldBlock (now : Nat) (socket : BingerUdp) :
    (socket.noteRecvWouldBlock now).bare = socket.bare := rfl

end BingerUdp

/-! ## Sending calls -/

namespace Tasks

def World.bare (world : World) : World :=
  { world with socket := world.socket.bare }

def Event.bare : Event → Event
  | .settle t _ => .settle t 0
  | .start call => .start call
  | .issue t => .issue t
  | .wake t outcome => .wake t outcome
  | .cancel t => .cancel t

theorem bare_settledSocket (call : SendCall) (result : IoResult Nat)
    (now : Nat) (socket : BingerUdp) :
    (settledSocket call result now socket).bare = socket.bare := by
  have hcount : (call.payload.count result socket).bare = socket.bare := by
    cases call.payload <;> cases result <;> rfl
  rw [settledSocket]
  split
  · rw [← hcount]
    cases call.payload <;> rfl
  · exact hcount

theorem settledSocket_bare (call : SendCall) (result : IoResult Nat)
    (now : Nat) (socket : BingerUdp) :
    settledSocket call result now socket.bare = socket.bare := by
  have hcount : call.payload.count result socket.bare = socket.bare := by
    cases call.payload <;> cases result <;> rfl
  rw [settledSocket, hcount]
  split
  · cases call.payload <;> rfl
  · rfl

theorem step_bare (world : World) (event : Event) :
    step world.bare event.bare = (step world event).map World.bare := by
  cases event with
  | start call =>
      have hbackend : world.bare.socket.backend = world.socket.backend := rfl
      simp only [step, Event.bare, hbackend]
      split <;> rfl
  | issue t =>
      simp only [step, Event.bare]
      cases htask : world.tasks[t]? with
      | none => simp [World.bare, htask]
      | some task =>
          rcases task with ⟨call, - | result | -⟩ <;>
            simp only [World.bare, htask, Option.map_none, Option.map_some]
          cases call.payload <;> rfl
  | settle t now =>
      simp only [step, Event.bare]
      cases htask : world.tasks[t]? with
      | none => simp [World.bare, htask]
      | some task =>
          rcases task with ⟨call, - | result | -⟩ <;>
            simp only [World.bare, htask, Option.map_none, Option.map_some]
          rw [settledSocket_bare,
            ← bare_settledSocket call result now world.socket]
          rfl
  | wake t outcome =>
      simp only [step, Event.bare]
      cases htask : world.tasks[t]? with
      | none => simp [World.bare, htask]
      | some task =>
          rcases task with ⟨call, - | result | -⟩ <;>
            simp only [World.bare, htask, Option.map_none, Option.map_some]
          rfl
  | cancel t =>
      simp only [step, Event.bare]
      cases htask : world.tasks[t]? with
      | none => simp [World.bare, htask]
      | some task =>
          rcases task with ⟨call, - | result | -⟩ <;>
            simp only [World.bare, htask, Option.map_none, Option.map_some]
          rfl

end Tasks

/-! ## Endpoints and networks -/

namespace Endpoint

def bare (endpoint : Endpoint) : Endpoint :=
  { endpoint with world := endpoint.world.bare }

def bareEvent : EndpointEvent → EndpointEvent
  | .send event => .send event.bare
  | .attempt r _ => .attempt r 0
  | .startRecv call => .startRecv call
  | .wake r outcome => .wake r outcome
  | .cancel r => .cancel r
  | .sendAnswer answer => .sendAnswer answer
  | .recvFault fault => .recvFault fault

theorem attempt_bare (endpoint : Endpoint) (r now : Nat)
    (receiver : RecvTask) :
    endpoint.bare.attempt r 0 receiver =
      (endpoint.attempt r now receiver).bare := by
  have htry : endpoint.bare.world.socket.tryRecvBatch
      (Platform.tryRecvBatch endpoint.bare.world.socket.backend
        endpoint.bare.features endpoint.bare.world.socket.host) receiver.batch
      endpoint.bare.world.os = _ :=
    BingerUdp.bare_tryRecvBatch
      (Platform.tryRecvBatch endpoint.world.socket.backend endpoint.features
        endpoint.world.socket.host) endpoint.world.socket receiver.batch
      endpoint.world.os
  simp only [attempt, htry]
  rcases endpoint.world.socket.tryRecvBatch
    (Platform.tryRecvBatch endpoint.world.socket.backend endpoint.features
      endpoint.world.socket.host) receiver.batch endpoint.world.os with
    ⟨panic | ⟨result, socket, batch⟩, os⟩
  · rfl
  · simp only [Except.map]
    split
    · rfl
    · split <;> rfl

theorem step_bare (endpoint : Endpoint) (event : EndpointEvent) :
    endpoint.bare.step (bareEvent event) =
      (endpoint.step event).map bare := by
  cases event with
  | send event =>
      have hworld := Tasks.step_bare endpoint.world event
      simp only [step, bareEvent, bare, hworld, Option.map_map]
      rfl
  | startRecv call => rfl
  | attempt r now =>
      have hreceivers : endpoint.bare.receivers = endpoint.receivers := rfl
      simp only [step, bareEvent, hreceivers]
      cases endpoint.receivers[r]? with
      | none => rfl
      | some receiver =>
          simp only
          split
          · rfl
          · rw [attempt_bare endpoint r now receiver]
            rfl
  | wake r outcome =>
      have hreceivers : endpoint.bare.receivers = endpoint.receivers := rfl
      have htokio : endpoint.bare.world.socket.tokio =
          endpoint.world.socket.tokio := rfl
      simp only [step, bareEvent, hreceivers, htokio]
      cases endpoint.receivers[r]? with
      | none => rfl
      | some receiver =>
          simp only
          split
          · split <;> rfl
          · rfl
  | cancel r =>
      have hreceivers : endpoint.bare.receivers = endpoint.receivers := rfl
      simp only [step, bareEvent, hreceivers]
      cases endpoint.receivers[r]? with
      | none => rfl
      | some receiver =>
          simp only
          split <;> rfl
  | sendAnswer answer => rfl
  | recvFault fault => rfl

end Endpoint

namespace Network

variable {ι : Type} [DecidableEq ι]

def bare (net : ι → Endpoint) (i : ι) : Endpoint := (net i).bare

def Event.bare : Event ι → Event ι
  | .act i event => .act i (Endpoint.bareEvent event)
  | .deliver i k j control => .deliver i k j control

theorem bare_update (net : ι → Endpoint) (i : ι) (endpoint : Endpoint) :
    bare (Function.update net i endpoint) =
      Function.update (bare net) i endpoint.bare :=
  Function.comp_update Endpoint.bare net i endpoint

theorem step_bare (net : ι → Endpoint) (event : Event ι) :
    step (bare net) event.bare = (step net event).map bare := by
  cases event with
  | act i event =>
      have hendpoint := Endpoint.step_bare (net i) event
      simp only [step, Event.bare, bare, hendpoint, Option.map_map]
      congr 1
      funext endpoint
      exact (bare_update net i endpoint).symm
  | deliver i k j control =>
      have hdatagram : datagram (bare net) i k control =
        datagram net i k control := rfl
      simp only [step, Event.bare, hdatagram, Option.map_map]
      congr 1
      funext arrived
      rw [Function.comp_apply, bare_update]
      rfl

/-- Metrics, controllers and clocks have no influence on any run: taking them
away at all endpoints leaves every step of every call as it is. -/
theorem run_bare (net : ι → Endpoint) (events : List (Event ι)) :
    run step (bare net) (events.map Event.bare) =
      (run step net events).map bare :=
  run_map step_bare net events

end Network

end Binger.Socket
