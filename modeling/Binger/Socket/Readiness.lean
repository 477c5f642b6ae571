import Mathlib.Data.Option.Basic
import Binger.Foundation.Runs
import Binger.Socket.Send
import Binger.Socket.Recv

/-!
# Retry loops and the readiness of the runtime

The retry loops of `send_batch`, `recv_batch` and `send_gso` share one socket.
Between two attempts a loop waits for `tokio`, which keeps one readiness bit
for each direction: an event of the reactor sets it, and a wait returns at once
while it is set.  The bit is cleared by the `try_io` family of the `tokio`
socket only.  The socket makes its system calls on the raw descriptor and keeps
the `tokio` socket to itself, so no step of the system below clears a bit.
-/

namespace Binger.Socket

open Binger.Foundation Binger.Platform

inductive Direction where
  | readable
  | writable
  deriving DecidableEq, Repr

inductive Call where
  | sendBatch (batch : SendBatchRaw)
  | recvBatch (bufSize : Nat) (batch : RecvBatchRaw bufSize)
  | sendGso (data : List UInt8) (segmentSize : UInt16)

def Call.direction : Call → Direction
  | .sendBatch _ => .writable
  | .recvBatch _ _ => .readable
  | .sendGso _ _ => .writable

inductive Phase where
  | attempting
  | waiting
  | finished
  deriving DecidableEq, Repr

structure Task where
  call : Call
  phase : Phase

structure World where
  socket : BingerUdp
  os : Os
  ready : Direction → Bool
  tasks : List Task

inductive Action where
  | event (direction : Direction)
  | attempt (task now : Nat)
  | resume (task : Nat)
  | abandon (task : Nat)
  deriving DecidableEq, Repr

/-- The phase behind an attempt.  A build without `tokio` fails in the wait. -/
def nextPhase (tokio : Bool) : Option (IoResult Nat) → Phase
  | some _ => .finished
  | none => if tokio then .waiting else .finished

section Steps

variable (platform : (bufSize : Nat) → RecvBatchRaw bufSize → Os →
  RecvOutcome bufSize × Os)

def Call.attempt (now : Nat) (socket : BingerUdp) (os : Os) :
    Call → Task × BingerUdp × Os
  | .sendBatch batch =>
      match socket.trySendBatch batch os with
      | (result, socket, os) =>
          (⟨.sendBatch batch, nextPhase socket.tokio (sendArm result)⟩,
            match sendArm result with
            | some _ => socket
            | none => socket.noteSendWouldBlock now, os)
  | .recvBatch bufSize batch =>
      match socket.tryRecvBatch (platform bufSize) batch os with
      | (.error _, os) => (⟨.recvBatch bufSize batch, .finished⟩, socket, os)
      | (.ok (result, socket, batch), os) =>
          (⟨.recvBatch bufSize batch,
              nextPhase socket.tokio (recvArm result)⟩,
            match recvArm result with
            | some _ => socket
            | none => socket.noteRecvWouldBlock now, os)
  | .sendGso data segmentSize =>
      match Linux.trySendGso data segmentSize os with
      | (result, os) =>
          (⟨.sendGso data segmentSize,
            nextPhase socket.tokio (sendArm result)⟩, socket, os)

/-- One step of the system: an event of the reactor, an attempt, a wait that
returns because its bit is set, or a wait that fails or is dropped. -/
def step (world : World) : Action → Option World
  | .event direction =>
      some { world with
        ready := Function.update world.ready direction true }
  | .attempt t now => do
      let task ← world.tasks[t]?
      guard (task.phase = .attempting)
      let (task, socket, os) :=
        task.call.attempt platform now world.socket world.os
      return { world with
        socket := socket
        os := os
        tasks := world.tasks.set t task }
  | .resume t => do
      let task ← world.tasks[t]?
      guard (task.phase = .waiting ∧ world.ready task.call.direction = true)
      return { world with
        tasks := world.tasks.set t { task with phase := .attempting } }
  | .abandon t => do
      let task ← world.tasks[t]?
      guard (task.phase = .waiting)
      return { world with
        tasks := world.tasks.set t { task with phase := .finished } }

theorem Call.attempt_direction (now : Nat) (socket : BingerUdp) (os : Os)
    (call : Call) :
    (call.attempt platform now socket os).1.call.direction =
      call.direction := by
  cases call with
  | sendBatch batch => rfl
  | sendGso data segmentSize => rfl
  | recvBatch bufSize batch =>
      rw [Call.attempt]
      split <;> rfl

variable {platform}

theorem step_cases {world next : World} {action : Action}
    (h : step platform world action = some next) :
    (∃ direction, action = .event direction ∧
      next = { world with
        ready := Function.update world.ready direction true }) ∨
    ∃ t task task', world.tasks[t]? = some task ∧
      next.tasks = world.tasks.set t task' ∧ next.ready = world.ready ∧
      task'.call.direction = task.call.direction ∧
      ((∃ now, action = .attempt t now ∧ task.phase = .attempting) ∨
        (action = .resume t ∧ task.phase = .waiting ∧
          world.ready task.call.direction = true ∧
          task'.phase = .attempting) ∨
        (action = .abandon t ∧ task.phase = .waiting ∧
          task'.phase = .finished)) := by
  cases action with
  | event direction =>
      left
      exact ⟨direction, rfl, by simpa [step] using h.symm⟩
  | attempt t now =>
      right
      simp only [step, Option.bind_eq_bind, Option.bind_eq_some_iff,
        Option.guard_eq_some', Option.pure_def, Option.some.injEq] at h
      obtain ⟨task, htask, -, hphase, rfl⟩ := h
      exact ⟨t, task, _, htask, rfl, rfl,
        Call.attempt_direction platform now _ _ _, .inl ⟨now, rfl, hphase⟩⟩
  | resume t =>
      right
      simp only [step, Option.bind_eq_bind, Option.bind_eq_some_iff,
        Option.guard_eq_some', Option.pure_def, Option.some.injEq] at h
      obtain ⟨task, htask, -, ⟨hphase, hready⟩, rfl⟩ := h
      exact ⟨t, task, _, htask, rfl, rfl, rfl,
        .inr (.inl ⟨rfl, hphase, hready, rfl⟩)⟩
  | abandon t =>
      right
      simp only [step, Option.bind_eq_bind, Option.bind_eq_some_iff,
        Option.guard_eq_some', Option.pure_def, Option.some.injEq] at h
      obtain ⟨task, htask, -, hphase, rfl⟩ := h
      exact ⟨t, task, _, htask, rfl, rfl, rfl,
        .inr (.inr ⟨rfl, hphase, rfl⟩)⟩

end Steps

/-! ## No retry without an event -/

def World.phase (world : World) (t : Nat) : Option Phase :=
  world.tasks[t]?.map Task.phase

def World.direction (world : World) (t : Nat) : Option Direction :=
  world.tasks[t]?.map fun task => task.call.direction

section Waiting

variable {platform : (bufSize : Nat) → RecvBatchRaw bufSize → Os →
  RecvOutcome bufSize × Os}

def Asleep (t : Nat) (direction : Direction) (past : List Action)
    (world : World) : Prop :=
  .event direction ∈ past ∨
    (world.ready direction = false ∧
      world.direction t = some direction ∧
      world.phase t ≠ some .attempting)

theorem step_asleep {t : Nat} {direction : Direction} {past : List Action}
    {world next : World} {action : Action}
    (hasleep : Asleep t direction past world)
    (hother : ∀ now, action ≠ .attempt t now)
    (h : step platform world action = some next) :
    Asleep t direction (past ++ [action]) next := by
  rcases hasleep with hevent | ⟨hbit, hdirection, hphase⟩
  · exact .inl (List.mem_append_left _ hevent)
  obtain ⟨d, rfl, rfl⟩ |
    ⟨t', task, task', htask, htasks, hready, hsame, haction⟩ := step_cases h
  · by_cases hd : d = direction
    · exact .inl (by simp [hd])
    · exact .inr ⟨(Function.update_of_ne (Ne.symm hd) _ _).trans hbit,
        hdirection, hphase⟩
  · right
    rw [hready]
    refine ⟨hbit, ?_⟩
    have hlt : t' < world.tasks.length :=
      (List.getElem?_eq_some_iff.mp htask).1
    by_cases ht : t' = t
    · subst ht
      have hcall : task.call.direction = direction := by
        simpa [World.direction, htask] using hdirection
      refine ⟨by simp [World.direction, htasks, hlt, hsame, hcall], ?_⟩
      rcases haction with ⟨now, rfl, -⟩ | ⟨rfl, -, hset, -⟩ | ⟨rfl, -, hdone⟩
      · exact absurd rfl (hother now)
      · rw [hcall, hbit] at hset
        exact absurd hset (by decide)
      · simp [World.phase, htasks, hlt, hdone]
    · rw [World.direction, World.phase, htasks, List.getElem?_set_ne ht]
      exact ⟨hdirection, hphase⟩

theorem step_attempt {world next : World} {t now : Nat}
    (h : step platform world (.attempt t now) = some next) :
    next.ready = world.ready ∧ world.phase t = some .attempting ∧
      next.direction t = world.direction t := by
  obtain ⟨_, haction, -⟩ | ⟨t', task, task', htask, htasks, hready, hsame,
    ⟨now', haction, hphase⟩ | ⟨haction, -⟩ | ⟨haction, -⟩⟩ := step_cases h
  · simp at haction
  · obtain ⟨rfl, rfl⟩ : t = t' ∧ now = now' := by simpa using haction
    obtain ⟨hlt, hget⟩ := List.getElem?_eq_some_iff.mp htask
    simp [hready, World.phase, World.direction, hphase, htasks, hlt, hsame,
      hget]
  · simp at haction
  · simp at haction

theorem event_of_next_attempt {world next final : World}
    {t now now' : Nat} {direction : Direction} {middle : List Action}
    (hstep : step platform world (.attempt t now) = some next)
    (hwaiting : next.phase t = some .waiting)
    (hdirection : next.direction t = some direction)
    (hclear : world.ready direction = false)
    (hrun : run (step platform) next (middle ++ [.attempt t now']) =
      some final)
    (hother : ∀ now, .attempt t now ∉ middle) :
    .event direction ∈ middle := by
  obtain ⟨last, hmiddle, hlast⟩ := run_append_eq_some.mp hrun
  obtain ⟨after, hafter, -⟩ := run_cons_eq_some.mp hlast
  have hasleep : Asleep t direction [] next := by
    right
    rw [(step_attempt hstep).1]
    exact ⟨hclear, hdirection, by simp [hwaiting]⟩
  have hfinal := run_invariant
    (fun past state action next hinv hallowed => step_asleep hinv hallowed)
    (fun action hmem now haction => hother now (haction ▸ hmem)) hasleep
    hmiddle
  rw [List.nil_append] at hfinal
  rcases hfinal with hevent | ⟨-, -, hphase⟩
  · exact hevent
  · exact absurd (step_attempt hafter).2.1 hphase

theorem step_resume {world : World} {t : Nat} {task : Task}
    (htask : world.tasks[t]? = some task) (hphase : task.phase = .waiting)
    (hready : world.ready task.call.direction = true) :
    step platform world (.resume t) = some { world with
      tasks := world.tasks.set t { task with phase := .attempting } } := by
  simp only [step, htask, Option.bind_eq_bind, Option.bind_some]
  simp [guard, hphase, hready]

theorem step_attempt_isSome {world : World} {t : Nat}
    (h : world.phase t = some .attempting) (now : Nat) :
    (step platform world (.attempt t now)).isSome := by
  obtain ⟨task, htask, hphase⟩ := Option.map_eq_some_iff.mp h
  simp only [step, htask, Option.bind_eq_bind, Option.bind_some]
  simp [guard, hphase]

theorem retry_at_once {world next : World} {t now : Nat}
    {direction : Direction}
    (hstep : step platform world (.attempt t now) = some next)
    (hwaiting : next.phase t = some .waiting)
    (hdirection : next.direction t = some direction)
    (hset : world.ready direction = true) (now' : Nat) :
    (run (step platform) next [.resume t, .attempt t now']).isSome := by
  obtain ⟨task, htask, hphase⟩ := Option.map_eq_some_iff.mp hwaiting
  have hcall : task.call.direction = direction := by
    simpa [World.direction, htask] using hdirection
  have hready : next.ready task.call.direction = true := by
    rw [(step_attempt hstep).1, hcall, hset]
  have hlt : t < next.tasks.length := (List.getElem?_eq_some_iff.mp htask).1
  have hresumed : (World.mk next.socket next.os next.ready (next.tasks.set t
      { task with phase := .attempting })).phase t = some .attempting := by
    simp [World.phase, hlt]
  obtain ⟨final, hfinal⟩ := Option.isSome_iff_exists.mp
    (@step_attempt_isSome platform _ _ hresumed now')
  rw [run, step_resume htask hphase hready]
  simp [run, hfinal]

variable (platform)

/-- Every attempt of a task that found the socket not ready is followed by an
event of its direction before the next one. -/
def WaitsForEvents (world : World) (actions : List Action) : Prop :=
  ∀ before t now middle now' after,
    actions =
      before ++ .attempt t now :: (middle ++ .attempt t now' :: after) →
    (∀ now, .attempt t now ∉ middle) →
    ∀ state next direction,
      run (step platform) world before = some state →
      step platform state (.attempt t now) = some next →
      next.phase t = some .waiting → next.direction t = some direction →
      .event direction ∈ middle

/-- An attempt that finds the socket not ready is made while the readiness bit
of its direction is clear. -/
def ClearBit (world : World) (action : Action) (next : World) : Prop :=
  ∀ t now direction, action = .attempt t now →
    next.phase t = some .waiting → next.direction t = some direction →
    world.ready direction = false

/-- No run whose attempts meet `ClearBit` retries without an event; and an
attempt that was not ready is followed by an event in every continuation
exactly when it met `ClearBit`. -/
theorem waits_for_events_of_clear_bit :
    (∀ world actions final,
      run (step platform) world actions = some final →
      EveryStep (step platform) ClearBit world actions →
      WaitsForEvents platform world actions) ∧
    (∀ world t now next direction,
      step platform world (.attempt t now) = some next →
      next.phase t = some .waiting → next.direction t = some direction →
      ((∀ middle now' final,
          run (step platform) next (middle ++ [.attempt t now']) =
            some final →
          (∀ now, .attempt t now ∉ middle) → .event direction ∈ middle) ↔
        world.ready direction = false)) := by
  constructor
  · rintro world actions final hrun hclear before t now middle now' after rfl
      hother state next direction hbefore hstep hwaiting hdirection
    have hbit := hclear.holds_at hbefore hstep t now direction rfl hwaiting
      hdirection
    obtain ⟨state', hbefore', hrest⟩ := run_append_eq_some.mp hrun
    obtain rfl : state = state' := by simpa [hbefore] using hbefore'
    obtain ⟨next', hstep', hrest⟩ := run_cons_eq_some.mp hrest
    obtain rfl : next = next' := by simpa [hstep] using hstep'
    rw [← List.singleton_append, ← List.append_assoc] at hrest
    obtain ⟨last, hlast, -⟩ := run_append_eq_some.mp hrest
    exact event_of_next_attempt hstep hwaiting hdirection hbit hlast hother
  · intro world t now next direction hstep hwaiting hdirection
    constructor
    · intro hevents
      by_contra hset
      rw [Bool.not_eq_false] at hset
      obtain ⟨final, hfinal⟩ := Option.isSome_iff_exists.mp
        (retry_at_once hstep hwaiting hdirection hset now)
      have hmem := hevents [.resume t] now final hfinal (by simp)
      simp at hmem
    · intro hclear middle now' final hrun hother
      exact event_of_next_attempt hstep hwaiting hdirection hclear hrun hother

end Waiting

def twoReceives (script : List (Except Fault Datagram)) : World where
  socket := .plainSocket .fallback
  os := { Linux.plainOs with recvScript := script }
  ready := fun _ => false
  tasks := List.replicate 2
    ⟨.recvBatch 4 (.withCapacity 1 4), .attempting⟩

def fallbackPlatform (bufSize : Nat) :
    RecvBatchRaw bufSize → Os → RecvOutcome bufSize × Os :=
  Fallback.tryRecvBatch ⟨.linux, .little⟩

theorem twoReceives_wait :
    WaitsForEvents fallbackPlatform
      (twoReceives [.ok ⟨[1], Linux.loopbackSource, []⟩,
        .error .wouldBlock, .ok ⟨[2], Linux.loopbackSource, []⟩])
      [.attempt 0 0, .attempt 1 0, .event .readable, .resume 1,
        .attempt 1 0] := by
  refine (waits_for_events_of_clear_bit fallbackPlatform).1 _ _ _ rfl ?_
  refine ⟨?_, ?_, ?_, ?_, ?_, trivial⟩
  · rintro _ _ direction ⟨rfl, rfl⟩ hwaiting
    exact absurd hwaiting (by decide)
  · rintro _ _ direction ⟨rfl, rfl⟩ -
    exact fun _ => rfl
  · rintro _ _ _ ⟨⟩
  · rintro _ _ _ ⟨⟩
  · rintro _ _ direction ⟨rfl, rfl⟩ hwaiting
    exact absurd hwaiting (by decide)

/-- The event of the first datagram makes the second receive spin. -/
theorem twoReceives_spin :
    ¬ WaitsForEvents fallbackPlatform
      (twoReceives [.ok ⟨[1], Linux.loopbackSource, []⟩])
      [.event .readable, .attempt 0 0, .attempt 1 0, .resume 1,
        .attempt 1 0] := by
  intro h
  have hmem := h [.event .readable, .attempt 0 0] 1 0 [.resume 1] 0 [] rfl
    (by simp) _ _ .readable rfl rfl rfl rfl
  simp at hmem

end Binger.Socket
