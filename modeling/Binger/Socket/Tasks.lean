import Binger.Foundation.Runs
import Binger.Socket.Gso

/-!
# Tasks that send through one socket

A call makes its system calls, then updates the counters, and then returns or
waits for another try; calls of other tasks go on between any two of these
steps.  `perform_is_run` links the system to the functions of the socket.
-/

namespace Binger.Socket.Tasks

open Binger.Foundation Binger.Platform Binger.Sockaddr

/-! ## Calls -/

inductive SendCall where
  | sendBatch (batch : SendBatchRaw)
  | trySendBatch (batch : SendBatchRaw)
  | sendTo (buf : Slice) (addr : SocketAddr)
  | trySendTo (buf : Slice) (addr : SocketAddr)
  | sendGso (data : List UInt8) (segmentSize : UInt16)
  | trySendGso (data : List UInt8) (segmentSize : UInt16)

inductive Payload where
  | batch (batch : SendBatchRaw)
  | gso (data : List UInt8) (segmentSize : UInt16)

def SendCall.payload : SendCall → Payload
  | sendBatch batch | trySendBatch batch => .batch batch
  | sendTo buf addr | trySendTo buf addr =>
      .batch (BingerUdp.singleBatch buf addr)
  | sendGso data segmentSize | trySendGso data segmentSize =>
      .gso data segmentSize

/-- `send_gso` is only compiled for Linux. -/
def SendCall.available (backend : Backend) : SendCall → Bool
  | sendGso _ _ | trySendGso _ _ => backend = .linux
  | sendBatch _ | trySendBatch _ | sendTo _ _ | trySendTo _ _ => true

def SendCall.retries : SendCall → Bool
  | sendBatch _ | sendTo _ _ | sendGso _ _ => true
  | trySendBatch _ | trySendTo _ _ | trySendGso _ _ => false

namespace Payload

def issue (payload : Payload) (socket : BingerUdp) (os : Os) :
    IoResult Nat × Os :=
  match payload with
  | .batch entries =>
      Platform.trySendBatch socket.backend socket.host entries os
  | .gso data segmentSize => Linux.trySendGso data segmentSize os

def count (payload : Payload) (result : IoResult Nat) (socket : BingerUdp) :
    BingerUdp :=
  match payload, result with
  | .batch _, .ok sent =>
      { socket with
        adaptiveSend := socket.adaptiveSend.map AdaptiveState.recordEvent
        metrics := socket.metrics.map (BingerUdp.countSent sent) }
  | .batch _, .error error =>
      { socket with
        metrics := socket.metrics.map (BingerUdp.countSendError error) }
  | .gso _ _, _ => socket

def noteWait (payload : Payload) (now : Nat) (socket : BingerUdp) :
    BingerUdp :=
  match payload with
  | .batch _ => socket.noteSendWouldBlock now
  | .gso _ _ => socket

end Payload

/-! ## The system -/

inductive Phase where
  | ready
  | issued (result : IoResult Nat)
  | waiting

structure Task where
  call : SendCall
  phase : Phase

structure World where
  socket : BingerUdp
  os : Os
  tasks : List Task

inductive Event where
  | start (call : SendCall)
  | issue (task : Nat)
  | settle (task now : Nat)
  | wake (task : Nat) (outcome : IoResult Unit)
  | cancel (task : Nat)

/-- The task behind a settled attempt: it waits, or it is done. -/
def settled (call : SendCall) (result : IoResult Nat) : Option Task :=
  if call.retries = true ∧ sendArm result = none then some ⟨call, .waiting⟩
  else none

def settledSocket (call : SendCall) (result : IoResult Nat) (now : Nat)
    (socket : BingerUdp) : BingerUdp :=
  let socket := call.payload.count result socket
  if (settled call result).isSome then call.payload.noteWait now socket
  else socket

def woken (socket : BingerUdp) (call : SendCall) (outcome : IoResult Unit) :
    Option Task :=
  match socket.tokio, outcome with
  | true, .ok () => some ⟨call, .ready⟩
  | _, _ => none

def World.put (world : World) (t : Nat) (task : Option Task) : World :=
  { world with
    tasks := world.tasks.take t ++ task.toList ++ world.tasks.drop (t + 1) }

def step (world : World) : Event → Option World
  | .start call =>
      if call.available world.socket.backend then
        some { world with tasks := world.tasks ++ [⟨call, .ready⟩] }
      else none
  | .issue t =>
      match world.tasks[t]? with
      | some ⟨call, .ready⟩ =>
          let (result, os) := call.payload.issue world.socket world.os
          some ({ world with os := os }.put t (some ⟨call, .issued result⟩))
      | _ => none
  | .settle t now =>
      match world.tasks[t]? with
      | some ⟨call, .issued result⟩ =>
          let socket := settledSocket call result now world.socket
          some ({ world with socket := socket }.put t (settled call result))
      | _ => none
  | .wake t outcome =>
      match world.tasks[t]? with
      | some ⟨call, .waiting⟩ =>
          some (world.put t (woken world.socket call outcome))
      | _ => none
  | .cancel t =>
      match world.tasks[t]? with
      | some ⟨_, .waiting⟩ => some (world.put t none)
      | _ => none

inductive Moves (world : World) : Event → World → Prop
  | start {call : SendCall} (h : call.available world.socket.backend) :
      Moves world (.start call)
        { world with tasks := world.tasks ++ [⟨call, .ready⟩] }
  | issue {t : Nat} {call : SendCall}
      (h : world.tasks[t]? = some ⟨call, .ready⟩) :
      Moves world (.issue t)
        ({ world with os := (call.payload.issue world.socket world.os).2 }.put
          t (some ⟨call, .issued (call.payload.issue world.socket
            world.os).1⟩))
  | settle {t now : Nat} {call : SendCall} {result : IoResult Nat}
      (h : world.tasks[t]? = some ⟨call, .issued result⟩) :
      Moves world (.settle t now)
        ({ world with
            socket := settledSocket call result now world.socket }.put t
          (settled call result))
  | wake {t : Nat} {outcome : IoResult Unit} {call : SendCall}
      (h : world.tasks[t]? = some ⟨call, .waiting⟩) :
      Moves world (.wake t outcome)
        (world.put t (woken world.socket call outcome))
  | cancel {t : Nat} {call : SendCall}
      (h : world.tasks[t]? = some ⟨call, .waiting⟩) :
      Moves world (.cancel t) (world.put t none)

theorem step_eq_some_iff {world next : World} {event : Event} :
    step world event = some next ↔ Moves world event next := by
  constructor
  · intro h
    cases event with
    | start call =>
        rw [step] at h
        split at h
        · next havailable =>
            cases h
            exact .start havailable
        · cases h
    | issue t =>
        rw [step] at h
        split at h
        · next call htask =>
            cases h
            exact .issue htask
        · cases h
    | settle t now =>
        rw [step] at h
        split at h
        · next call result htask =>
            cases h
            exact .settle htask
        · cases h
    | wake t outcome =>
        rw [step] at h
        split at h
        · next call htask =>
            cases h
            exact .wake htask
        · cases h
    | cancel t =>
        rw [step] at h
        split at h
        · next call htask =>
            cases h
            exact .cancel htask
        · cases h
  · intro h
    cases h with
    | start h => simp [step, h]
    | issue h | settle h | wake h | cancel h => simp [step, h]

/-! ## How calls end -/

inductive Ending where
  | returned (result : IoResult Nat)
  | waitFailed (error : IoError)
  | abandoned

/-- What a call returns for the result of its last attempt: `send_to` has the
length of its buffer in place of the count. -/
def SendCall.answer (call : SendCall) (result : IoResult Nat) :
    IoResult Nat :=
  match call with
  | sendTo buf _ | trySendTo buf _ => result.map fun _ => buf.bytes.length
  | sendBatch _ | trySendBatch _ | sendGso _ _ | trySendGso _ _ => result

def Ending.answer (call : SendCall) : Ending → Option (IoResult Nat)
  | .returned result => some (call.answer result)
  | .waitFailed error => some (.error error)
  | .abandoned => none

def ended (world : World) : Event → Option (SendCall × Ending)
  | .start _ | .issue _ => none
  | .settle t _ =>
      match world.tasks[t]? with
      | some ⟨call, .issued result⟩ =>
          if (settled call result).isSome then none
          else some (call, .returned result)
      | _ => none
  | .wake t outcome =>
      match world.tasks[t]?, world.socket.tokio, outcome with
      | some ⟨call, .waiting⟩, false, _ =>
          some (call, .waitFailed tokioDisabled)
      | some ⟨call, .waiting⟩, true, .error error =>
          some (call, .waitFailed error)
      | _, _, _ => none
  | .cancel t =>
      match world.tasks[t]? with
      | some ⟨call, .waiting⟩ => some (call, .abandoned)
      | _ => none

@[simp] theorem SendCall.answer_error (call : SendCall) (error : IoError) :
    call.answer (.error error) = .error error := by
  cases call <;> rfl

/-! ## The functions of the socket are runs -/

theorem trySendBatch_eq (socket : BingerUdp) (batch : SendBatchRaw) (os : Os) :
    socket.trySendBatch batch os =
      (((Payload.batch batch).issue socket os).1,
        (Payload.batch batch).count ((Payload.batch batch).issue socket os).1
          socket,
        ((Payload.batch batch).issue socket os).2) := by
  rw [BingerUdp.trySendBatch, Payload.issue]
  rcases Platform.trySendBatch socket.backend socket.host batch os with
    ⟨error | sent, os'⟩ <;> rfl

theorem trySendGso_eq (socket : BingerUdp) (data : List UInt8)
    (segmentSize : UInt16) (os : Os) :
    socket.trySendGso data segmentSize os =
      (((Payload.gso data segmentSize).issue socket os).1,
        (Payload.gso data segmentSize).count
          ((Payload.gso data segmentSize).issue socket os).1 socket,
        ((Payload.gso data segmentSize).issue socket os).2) := rfl

def Payload.loop (payload : Payload) :
    List Wait → BingerUdp → Os → Poll (IoResult Nat) × BingerUdp × Os
  | waits, socket, os =>
      let (result, os) := payload.issue socket os
      let socket := payload.count result socket
      match sendArm result, waits with
      | some result, _ => (.ready result, socket, os)
      | none, [] => (.pending, socket, os)
      | none, wait :: waits =>
          let socket := payload.noteWait wait.now socket
          if socket.tokio then
            match wait.outcome with
            | .ok () => payload.loop waits socket os
            | .error error => (.ready (.error error), socket, os)
          else (.ready (.error tokioDisabled), socket, os)

section Loop

variable {payload : Payload} {socket : BingerUdp} {os : Os}

theorem Payload.loop_of_done (waits : List Wait) {result : IoResult Nat}
    (h : sendArm (payload.issue socket os).1 = some result) :
    payload.loop waits socket os =
      (.ready result, payload.count (payload.issue socket os).1 socket,
        (payload.issue socket os).2) := by
  cases waits <;> simp [loop, h]

theorem Payload.loop_nil_of_wait
    (h : sendArm (payload.issue socket os).1 = none) :
    payload.loop [] socket os =
      (.pending, payload.count (payload.issue socket os).1 socket,
        (payload.issue socket os).2) := by
  simp [loop, h]

theorem Payload.loop_cons_of_wait (wait : Wait) (waits : List Wait)
    (h : sendArm (payload.issue socket os).1 = none) :
    payload.loop (wait :: waits) socket os =
      let socket' := payload.noteWait wait.now
        (payload.count (payload.issue socket os).1 socket)
      let os' := (payload.issue socket os).2
      if socket'.tokio then
        match wait.outcome with
        | .ok () => payload.loop waits socket' os'
        | .error error => (.ready (.error error), socket', os')
      else (.ready (.error tokioDisabled), socket', os') := by
  rw [loop]
  simp only [h]

end Loop

theorem sendBatch_eq_loop (batch : SendBatchRaw) (waits : List Wait)
    (socket : BingerUdp) (os : Os) :
    BingerUdp.sendBatch batch waits socket os =
      (Payload.batch batch).loop waits socket os := by
  induction waits generalizing socket os with
  | nil =>
      rw [BingerUdp.sendBatch, trySendBatch_eq]
      cases harm : sendArm ((Payload.batch batch).issue socket os).1 with
      | none => simp only [harm, Payload.loop_nil_of_wait harm]
      | some result => simp only [harm, Payload.loop_of_done _ harm]
  | cons wait waits ih =>
      rw [BingerUdp.sendBatch, trySendBatch_eq]
      cases harm : sendArm ((Payload.batch batch).issue socket os).1 with
      | none =>
          simp only [harm, ih, Payload.loop_cons_of_wait wait waits harm]
          rfl
      | some result => simp only [harm, Payload.loop_of_done _ harm]

theorem sendGso_eq_loop (data : List UInt8) (segmentSize : UInt16)
    (waits : List Wait) (socket : BingerUdp) (os : Os) :
    BingerUdp.sendGso data segmentSize waits socket os =
      (Payload.gso data segmentSize).loop waits socket os := by
  induction waits generalizing socket os with
  | nil =>
      rw [BingerUdp.sendGso, trySendGso_eq]
      cases harm : sendArm
          ((Payload.gso data segmentSize).issue socket os).1 with
      | none => simp only [harm, Payload.loop_nil_of_wait harm]
      | some result => simp only [harm, Payload.loop_of_done _ harm]
  | cons wait waits ih =>
      rw [BingerUdp.sendGso, trySendGso_eq]
      cases harm : sendArm
          ((Payload.gso data segmentSize).issue socket os).1 with
      | none =>
          simp only [harm, ih, Payload.loop_cons_of_wait wait waits harm]
          rfl
      | some result => simp only [harm, Payload.loop_of_done _ harm]

theorem run_attempt (call : SendCall) (now : Nat) (socket : BingerUdp)
    (os : Os) :
    run step ⟨socket, os, [⟨call, .ready⟩]⟩ [.issue 0, .settle 0 now] =
      some ⟨settledSocket call (call.payload.issue socket os).1 now socket,
        (call.payload.issue socket os).2,
        (settled call (call.payload.issue socket os).1).toList⟩ := by
  simp [run, step, World.put]

structure EndsWith (call : SendCall) (socket : BingerUdp) (os : Os)
    (events : List Event) (result : IoResult Nat) (socket' : BingerUdp)
    (os' : Os) : Prop where
  final : run step ⟨socket, os, [⟨call, .ready⟩]⟩ events =
    some ⟨socket', os', []⟩
  ending : ∃ ending, ending.answer call = some result ∧
    emitted step ended ⟨socket, os, [⟨call, .ready⟩]⟩ events =
      [(call, ending)]

theorem endsWith_of_done {call : SendCall} {socket socket' : BingerUdp}
    {os os' : Os} (h : settled call (call.payload.issue socket os).1 = none)
    (hsocket : call.payload.count (call.payload.issue socket os).1 socket =
      socket')
    (hos : (call.payload.issue socket os).2 = os') :
    EndsWith call socket os [.issue 0, .settle 0 0]
      (call.answer (call.payload.issue socket os).1) socket' os' := by
  constructor
  case final =>
    rw [run_attempt, settledSocket, h, hsocket, hos]
    rfl
  case ending =>
    exact ⟨.returned _, rfl, by simp [emitted, step, ended, World.put, h]⟩

section Wait

variable {call : SendCall} {socket : BingerUdp} {os : Os}

theorem settled_of_wait (hretries : call.retries = true)
    (h : sendArm (call.payload.issue socket os).1 = none) :
    settled call (call.payload.issue socket os).1 =
      some ⟨call, .waiting⟩ := by
  simp [settled, h, hretries]

theorem run_of_wait (hretries : call.retries = true)
    (h : sendArm (call.payload.issue socket os).1 = none) (wait : Wait) :
    run step ⟨socket, os, [⟨call, .ready⟩]⟩
        [.issue 0, .settle 0 wait.now, .wake 0 wait.outcome] =
      let socket' := call.payload.noteWait wait.now
        (call.payload.count (call.payload.issue socket os).1 socket)
      some ⟨socket', (call.payload.issue socket os).2,
        (woken socket' call wait.outcome).toList⟩ := by
  simp [run, step, World.put, settledSocket, settled_of_wait hretries h]

theorem emitted_of_wait (hretries : call.retries = true)
    (h : sendArm (call.payload.issue socket os).1 = none) (wait : Wait) :
    emitted step ended ⟨socket, os, [⟨call, .ready⟩]⟩
        [.issue 0, .settle 0 wait.now, .wake 0 wait.outcome] =
      let socket' := call.payload.noteWait wait.now
        (call.payload.count (call.payload.issue socket os).1 socket)
      (ended ⟨socket', (call.payload.issue socket os).2, [⟨call, .waiting⟩]⟩
        (.wake 0 wait.outcome)).toList := by
  simp [emitted, step, World.put, settledSocket, ended,
    settled_of_wait hretries h]

end Wait

theorem EndsWith.append {call : SendCall} {socket socket₁ socket' : BingerUdp}
    {os os₁ os' : Os} {first events : List Event} {result : IoResult Nat}
    (hrun : run step ⟨socket, os, [⟨call, .ready⟩]⟩ first =
      some ⟨socket₁, os₁, [⟨call, .ready⟩]⟩)
    (hnone : emitted step ended ⟨socket, os, [⟨call, .ready⟩]⟩ first =
      [])
    (h : EndsWith call socket₁ os₁ events result socket' os') :
    EndsWith call socket os (first ++ events) result socket' os' := by
  constructor
  case final => exact run_append_eq_some.mpr ⟨_, hrun, h.final⟩
  case ending =>
    obtain ⟨ending, hanswer, hended⟩ := h.ending
    refine ⟨ending, hanswer, ?_⟩
    rw [emitted_append hrun, hnone, hended, List.nil_append]

theorem loop_is_run {call : SendCall} (hretries : call.retries = true)
    {waits : List Wait} {socket socket' : BingerUdp} {os os' : Os}
    {result : IoResult Nat}
    (h : call.payload.loop waits socket os = (.ready result, socket', os')) :
    ∃ events, EndsWith call socket os events (call.answer result) socket'
      os' := by
  have hdone : ∀ {waits socket os result'},
      sendArm (call.payload.issue socket os).1 = some result' →
      call.payload.loop waits socket os = (.ready result, socket', os') →
      EndsWith call socket os [.issue 0, .settle 0 0] (call.answer result)
        socket' os' := by
    intro waits socket os result' harm h
    rw [Payload.loop_of_done _ harm, Prod.mk.injEq, Prod.mk.injEq] at h
    have hends := endsWith_of_done (by simp [settled, harm]) h.2.1 h.2.2
    rw [sendArm_eq_some harm] at hends
    rwa [Poll.ready.inj h.1] at hends
  induction waits generalizing socket os with
  | nil =>
      cases harm : sendArm (call.payload.issue socket os).1 with
      | none => simp [Payload.loop_nil_of_wait harm] at h
      | some result' => exact ⟨_, hdone harm h⟩
  | cons wait waits ih =>
      cases harm : sendArm (call.payload.issue socket os).1 with
      | none =>
          have hwait := run_of_wait hretries harm wait
          have hended := emitted_of_wait hretries harm wait
          rw [Payload.loop_cons_of_wait wait waits harm] at h
          simp only at h hwait hended
          split at h
          · next htokio =>
              split at h
              · next houtcome =>
                  obtain ⟨events, hevents⟩ := ih h
                  rw [houtcome] at hwait hended
                  simp only [woken, htokio, Option.toList_some] at hwait
                  exact ⟨_, hevents.append hwait
                    (by simpa [ended, htokio] using hended)⟩
              · next error houtcome =>
                  simp only [Prod.mk.injEq, Poll.ready.injEq] at h
                  obtain ⟨rfl, rfl, rfl⟩ := h
                  refine ⟨_, by simpa [woken, houtcome] using hwait,
                    .waitFailed error, by simp [Ending.answer], ?_⟩
                  simpa [ended, htokio, houtcome] using hended
          · next htokio =>
              simp only [Prod.mk.injEq, Poll.ready.injEq] at h
              obtain ⟨rfl, rfl, rfl⟩ := h
              refine ⟨_, by simpa [woken, htokio] using hwait,
                .waitFailed tokioDisabled, by simp [Ending.answer], ?_⟩
              simpa [ended, htokio] using hended
      | some result' => exact ⟨_, hdone harm h⟩

def SendCall.perform (call : SendCall) (waits : List Wait)
    (socket : BingerUdp) (os : Os) : Poll (IoResult Nat) × BingerUdp × Os :=
  match call with
  | sendBatch batch => BingerUdp.sendBatch batch waits socket os
  | sendTo buf addr => BingerUdp.sendTo buf addr waits socket os
  | sendGso data segmentSize =>
      BingerUdp.sendGso data segmentSize waits socket os
  | trySendBatch batch =>
      let (result, socket, os) := socket.trySendBatch batch os
      (.ready result, socket, os)
  | trySendTo buf addr =>
      let (result, socket, os) := socket.trySendTo buf addr os
      (.ready result, socket, os)
  | trySendGso data segmentSize =>
      let (result, socket, os) := socket.trySendGso data segmentSize os
      (.ready result, socket, os)

theorem trySendTo_eq (socket : BingerUdp) (buf : Slice) (addr : SocketAddr)
    (os : Os) :
    socket.trySendTo buf addr os =
      ((SendCall.trySendTo buf addr).answer
          ((SendCall.trySendTo buf addr).payload.issue socket os).1,
        (SendCall.trySendTo buf addr).payload.count
          ((SendCall.trySendTo buf addr).payload.issue socket os).1 socket,
        ((SendCall.trySendTo buf addr).payload.issue socket os).2) := by
  rw [BingerUdp.trySendTo, trySendBatch_eq, SendCall.payload]
  cases ((Payload.batch (BingerUdp.singleBatch buf addr)).issue socket os).1
    <;> rfl

theorem sendTo_ready {buf : Slice} {addr : SocketAddr} {waits : List Wait}
    {socket socket' : BingerUdp} {os os' : Os} {result : IoResult Nat}
    (h : BingerUdp.sendTo buf addr waits socket os =
      (.ready result, socket', os')) :
    ∃ result', (SendCall.sendTo buf addr).payload.loop waits socket os =
        (.ready result', socket', os') ∧
      (SendCall.sendTo buf addr).answer result' = result := by
  rw [BingerUdp.sendTo, sendBatch_eq_loop] at h
  simp only [SendCall.payload, SendCall.answer]
  split at h
  · next sent socket₁ os₁ hloop =>
      simp only [Prod.mk.injEq, Poll.ready.injEq] at h
      obtain ⟨rfl, rfl, rfl⟩ := h
      exact ⟨.ok sent, hloop, rfl⟩
  · next poll socket₁ os₁ hother hloop =>
      simp only [Prod.mk.injEq] at h
      obtain ⟨rfl, rfl, rfl⟩ := h
      cases result with
      | ok sent => exact absurd rfl (hother sent)
      | error error => exact ⟨.error error, hloop, rfl⟩

/-- A call that returned is a run of the system in which it is the only task,
and the run ends the call with what it returned. -/
theorem perform_is_run (call : SendCall) {waits : List Wait}
    {socket socket' : BingerUdp} {os os' : Os} {result : IoResult Nat}
    (h : call.perform waits socket os = (.ready result, socket', os')) :
    ∃ events, EndsWith call socket os events result socket' os' := by
  cases call with
  | sendBatch batch =>
      rw [SendCall.perform, sendBatch_eq_loop] at h
      exact loop_is_run (show (SendCall.sendBatch batch).retries = true from
        rfl) h
  | sendTo buf addr =>
      obtain ⟨result', hloop, rfl⟩ := sendTo_ready h
      exact loop_is_run (show (SendCall.sendTo buf addr).retries = true from
        rfl) hloop
  | sendGso data segmentSize =>
      rw [SendCall.perform, sendGso_eq_loop] at h
      exact loop_is_run (show (SendCall.sendGso data segmentSize).retries =
        true from rfl) h
  | trySendBatch batch =>
      simp only [SendCall.perform, trySendBatch_eq, Prod.mk.injEq,
        Poll.ready.injEq] at h
      obtain ⟨rfl, hsocket, hos⟩ := h
      exact ⟨_, endsWith_of_done (by simp [settled, SendCall.retries]) hsocket
        hos⟩
  | trySendTo buf addr =>
      have hanswer := trySendTo_eq socket buf addr os
      simp only [SendCall.perform, hanswer, Prod.mk.injEq,
        Poll.ready.injEq] at h
      obtain ⟨rfl, hsocket, hos⟩ := h
      exact ⟨_, endsWith_of_done (by simp [settled, SendCall.retries]) hsocket
        hos⟩
  | trySendGso data segmentSize =>
      simp only [SendCall.perform, trySendGso_eq, Prod.mk.injEq,
        Poll.ready.injEq] at h
      obtain ⟨rfl, hsocket, hos⟩ := h
      exact ⟨_, endsWith_of_done (by simp [settled, SendCall.retries]) hsocket
        hos⟩

end Binger.Socket.Tasks
