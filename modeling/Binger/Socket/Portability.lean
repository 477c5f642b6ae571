import Binger.Platform.Portable
import Binger.Socket.Observers

/-!
# Programs do not depend on the backend

The crate picks one of four backends when it is built.  For a program the choice
should only be one of speed.  A network with any mixture of backends and
features is compared with the one in which every endpoint runs the generic
backend, step by step: in every run whose attempts are portable, the same calls
wait and return with the same results, the same datagrams are on the wires, and
the same packets are shown.

Metrics and controllers are left out of the comparison.  They do tell the
backends apart, since an empty receive counts as a success of a loop and as an
error of a batched call.
-/

namespace Binger.Socket

open Binger.Foundation Binger.Platform

def BingerUdp.generic (socket : BingerUdp) : BingerUdp :=
  { socket.bare with backend := .fallback }

/-! ## Sending calls -/

namespace Tasks

def World.generic (world : World) : World :=
  { world with socket := world.socket.generic }

/-- Only Linux has the segmentation calls. -/
def Portable (world : World) : Event → Prop
  | .start call => call.available .fallback
  | .issue t => ∀ task, world.tasks[t]? = some task →
      ∃ batch, task.call.payload = .batch batch ∧
        PortableSend world.socket.backend batch world.os
  | .settle _ _ | .wake _ _ | .cancel _ => True

theorem settledSocket_generic (call : SendCall) (result : IoResult Nat)
    (now : Nat) (socket : BingerUdp) :
    settledSocket call result now socket.generic = socket.generic :=
  settledSocket_bare call result now socket.generic

theorem generic_settledSocket (call : SendCall) (result : IoResult Nat)
    (now : Nat) (socket : BingerUdp) :
    (settledSocket call result now socket).generic = socket.generic := by
  rw [BingerUdp.generic, bare_settledSocket]
  rfl

theorem step_generic {world next : World} {event : Event}
    (h : Portable world event) (hstep : step world event = some next) :
    step world.generic event.bare = some next.generic := by
  rw [step_eq_some_iff]
  cases step_eq_some_iff.mp hstep with
  | start => exact .start h
  | @issue t call htask =>
      obtain ⟨batch, hpayload, hsend⟩ := h ⟨call, .ready⟩ htask
      have hissue : call.payload.issue world.generic.socket world.generic.os =
          call.payload.issue world.socket world.os := by
        rw [hpayload]
        exact (trySendBatch_portable world.socket.host hsend).symm
      have hmoves := @Moves.issue world.generic t call htask
      rw [hissue] at hmoves
      exact hmoves
  | @settle t now call result htask =>
      have hsocket : settledSocket call result 0 world.generic.socket =
          (settledSocket call result now world.socket).generic := by
        rw [generic_settledSocket]
        exact settledSocket_generic call result 0 world.socket
      have hmoves := @Moves.settle world.generic t 0 call result htask
      rw [hsocket] at hmoves
      exact hmoves
  | wake htask => exact .wake htask
  | cancel htask => exact .cancel htask

end Tasks

/-! ## Receiving calls -/

theorem RecvMethod.reads_first {bufSize n : Nat} (method : RecvMethod)
    {batch : RecvBatchRaw bufSize} {entry : Entry} {entries : List Entry}
    (h : batch.read (n + 1) = .ok (entry :: entries)) :
    method.reads batch (.ok (n + 1)) =
      .ok (match method with
        | .recvFrom => [(entry.1.take (min entry.1.length bufSize), entry.2)]
        | .tryRecvBatch | .recvBatch => entry :: entries) := by
  cases method with
  | tryRecvBatch | recvBatch => exact h
  | recvFrom =>
      obtain ⟨hdata, haddr⟩ := BingerUdp.read_first h
      simp only [reads, hdata, haddr, bind, Except.bind, pure, Except.pure]

namespace Endpoint

def generic (endpoint : Endpoint) : Endpoint :=
  { endpoint with world := endpoint.world.generic }

def Portable (endpoint : Endpoint) : EndpointEvent → Prop
  | .send event => Tasks.Portable endpoint.world event
  | .attempt r _ => ∀ receiver, endpoint.receivers[r]? = some receiver →
      PortableRecv endpoint.world.socket.backend endpoint.features
        receiver.batch endpoint.world.os
  | .startRecv _ | .wake _ _ | .cancel _ | .sendAnswer _ | .recvFault _ => True

def afterOutcome (endpoint : Endpoint) (r : Nat) (receiver : RecvTask) :
    RecvOutcome receiver.bufSize × Os → Endpoint
  | (.error _, os) =>
      (endpoint.withSocket endpoint.world.socket os).putReceiver r none
  | (.ok (result, batch), os) =>
      if receiver.method.waits result then
        (endpoint.withSocket endpoint.world.socket os).putReceiver r
          (some ⟨receiver.method, receiver.bufSize, batch, true⟩)
      else
        match receiver.method.reads batch result with
        | .error _ =>
            (endpoint.withSocket endpoint.world.socket os).putReceiver r none
        | .ok entries =>
            { (endpoint.withSocket endpoint.world.socket os).putReceiver r
                none with
              shown := endpoint.shown ++
                entries.map fun entry => (receiver.bufSize, entry) }

theorem attempt_of_bare (endpoint : Endpoint) (r now : Nat)
    (receiver : RecvTask) :
    endpoint.bare.attempt r now receiver =
      endpoint.bare.afterOutcome r receiver
        (Platform.tryRecvBatch endpoint.world.socket.backend endpoint.features
          endpoint.world.socket.host receiver.batch endpoint.world.os) := by
  have hplatform : Platform.tryRecvBatch endpoint.bare.world.socket.backend
      endpoint.bare.features endpoint.bare.world.socket.host receiver.batch
      endpoint.bare.world.os =
    Platform.tryRecvBatch endpoint.world.socket.backend endpoint.features
      endpoint.world.socket.host receiver.batch endpoint.world.os := rfl
  simp only [attempt, BingerUdp.tryRecvBatch, hplatform]
  rcases Platform.tryRecvBatch endpoint.world.socket.backend endpoint.features
    endpoint.world.socket.host receiver.batch endpoint.world.os with
    ⟨panic | ⟨error | received, batch⟩, os⟩ <;>
  rfl

theorem generic_afterOutcome (endpoint : Endpoint) (r : Nat)
    (receiver : RecvTask) (outcome : RecvOutcome receiver.bufSize × Os) :
    (endpoint.bare.afterOutcome r receiver outcome).generic =
      endpoint.generic.afterOutcome r receiver outcome := by
  rcases outcome with ⟨panic | ⟨result, batch⟩, os⟩
  · rfl
  · simp only [afterOutcome]
    split
    · rfl
    · cases receiver.method.reads batch result <;> rfl

theorem afterOutcome_of_showsAlike (endpoint : Endpoint) (r : Nat)
    (receiver : RecvTask) {first second : RecvOutcome receiver.bufSize × Os}
    (h : ShowsAlike receiver.batch first second) :
    endpoint.afterOutcome r receiver first =
      endpoint.afterOutcome r receiver second := by
  cases h with
  | same => rfl
  | idle os =>
      -- both go around the loop, or both show nothing
      obtain ⟨method, bufSize, batch, waiting⟩ := receiver
      cases method <;> rfl
  | took os hfirst hsecond =>
      have hdone (n : Nat) : receiver.method.waits (.ok (n + 1)) = false := by
        cases receiver.method <;> rfl
      simp only [afterOutcome, hdone, Bool.false_eq_true, if_false,
        receiver.method.reads_first hfirst,
        receiver.method.reads_first hsecond]

theorem attempt_generic {endpoint : Endpoint} (r now : Nat)
    {receiver : RecvTask}
    (h : PortableRecv endpoint.world.socket.backend endpoint.features
      receiver.batch endpoint.world.os) :
    endpoint.generic.attempt r 0 receiver =
      (endpoint.attempt r now receiver).generic := by
  have halike := tryRecvBatch_portable endpoint.world.socket.host h
  calc endpoint.generic.attempt r 0 receiver
    _ = endpoint.generic.afterOutcome r receiver
          (Platform.tryRecvBatch .fallback endpoint.features
            endpoint.world.socket.host receiver.batch endpoint.world.os) :=
        attempt_of_bare endpoint.generic r 0 receiver
    _ = endpoint.generic.afterOutcome r receiver
          (Platform.tryRecvBatch endpoint.world.socket.backend
            endpoint.features endpoint.world.socket.host receiver.batch
            endpoint.world.os) :=
        (endpoint.generic.afterOutcome_of_showsAlike r receiver halike).symm
    _ = (endpoint.bare.attempt r 0 receiver).generic := by
        rw [attempt_of_bare, generic_afterOutcome]
    _ = (endpoint.attempt r now receiver).generic := by
        rw [attempt_bare endpoint r now receiver]
        rfl

theorem step_generic {endpoint next : Endpoint} {event : EndpointEvent}
    (h : endpoint.Portable event) (hstep : endpoint.step event = some next) :
    endpoint.generic.step (bareEvent event) = some next.generic := by
  have hreceivers : endpoint.generic.receivers = endpoint.receivers := rfl
  have htokio : endpoint.generic.world.socket.tokio =
    endpoint.world.socket.tokio := rfl
  cases event with
  | send event =>
      simp only [step, Option.map_eq_some_iff] at hstep
      obtain ⟨world, hworld, rfl⟩ := hstep
      exact Option.map_eq_some_iff.mpr
        ⟨_, Tasks.step_generic h hworld, rfl⟩
  | startRecv call =>
      cases hstep
      rfl
  | attempt r now =>
      simp only [step, bareEvent, hreceivers] at hstep ⊢
      cases hreceiver : endpoint.receivers[r]? with
      | none => simp [hreceiver] at hstep
      | some receiver =>
          simp only [hreceiver] at hstep ⊢
          split at hstep
          · cases hstep
          · next hready =>
              cases hstep
              rw [if_neg hready, attempt_generic r now (h receiver hreceiver)]
  | wake r outcome =>
      simp only [step, bareEvent, hreceivers, htokio] at hstep ⊢
      cases hreceiver : endpoint.receivers[r]? with
      | none => simp [hreceiver] at hstep
      | some receiver =>
          simp only [hreceiver] at hstep ⊢
          split at hstep
          · next hwaiting =>
              rw [if_pos hwaiting]
              split at hstep <;> cases hstep <;> rfl
          · cases hstep
  | cancel r =>
      simp only [step, bareEvent, hreceivers] at hstep ⊢
      cases hreceiver : endpoint.receivers[r]? with
      | none => simp [hreceiver] at hstep
      | some receiver =>
          simp only [hreceiver] at hstep ⊢
          split at hstep
          · next hwaiting =>
              cases hstep
              rw [if_pos hwaiting]
              rfl
          · cases hstep
  | sendAnswer answer =>
      cases hstep
      rfl
  | recvFault fault =>
      cases hstep
      rfl

end Endpoint

/-! ## Networks -/

namespace Network

variable {ι : Type} [DecidableEq ι]

def generic (net : ι → Endpoint) (i : ι) : Endpoint := (net i).generic

def Portable (net : ι → Endpoint) : Event ι → Prop
  | .act i event => (net i).Portable event
  | .deliver _ _ _ _ => True

theorem generic_update (net : ι → Endpoint) (i : ι) (endpoint : Endpoint) :
    generic (Function.update net i endpoint) =
      Function.update (generic net) i endpoint.generic :=
  Function.comp_update Endpoint.generic net i endpoint

theorem step_generic {net next : ι → Endpoint} {event : Event ι}
    (h : Portable net event) (hstep : step net event = some next) :
    step (generic net) event.bare = some (generic next) := by
  cases event with
  | act i event =>
      obtain ⟨endpoint, hendpoint, rfl⟩ := Option.map_eq_some_iff.mp hstep
      rw [generic_update]
      exact Option.map_eq_some_iff.mpr
        ⟨_, Endpoint.step_generic h hendpoint, rfl⟩
  | deliver i k j control =>
      obtain ⟨arrived, harrived, rfl⟩ := Option.map_eq_some_iff.mp hstep
      rw [generic_update]
      exact Option.map_eq_some_iff.mpr ⟨arrived, harrived, rfl⟩

end Network

end Binger.Socket
