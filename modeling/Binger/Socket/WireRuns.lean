import Binger.Socket.Accounting

/-!
# The wire under concurrent senders

Any number of calls send through one socket, wait, are woken and are given up.
A call that returns owns one piece of the wire, however often it was tried: the
datagrams that its last attempt got accepted, in the order of the call.  An
attempt that is followed by a wait puts nothing on the wire, so a call that is
given up owns nothing.
-/

namespace Binger.Socket.Tasks

open Binger.Foundation Binger.Platform

/-! ## What an attempt adds to the wire -/

def Payload.datagrams (payload : Payload) (backend : Backend) :
    List (List UInt8) :=
  match payload with
  | .batch entries => (items backend entries).map Prod.snd
  | .gso data segmentSize => Os.gsoDatagrams segmentSize.toNat data

/-- What the value of an `Ok` says about the datagrams that were accepted. -/
def Payload.Reports (payload : Payload) (sent : List Sent) (n : Nat) : Prop :=
  match payload with
  | .batch _ => sent.length = n
  | .gso data segmentSize =>
      n = data.length ∧
        sent.map Sent.data = Os.gsoDatagrams segmentSize.toNat data

structure Payload.Adds (payload : Payload) (backend : Backend)
    (result : IoResult Nat) (sent : List Sent) : Prop where
  front : sent.map Sent.data <+: payload.datagrams backend
  reports : ∀ n, result = .ok n → payload.Reports sent n
  waits : sendArm result = none → sent = []

theorem Payload.issue_adds (payload : Payload) (socket : BingerUdp)
    (os : Os) :
    ∃ sent, (payload.issue socket os).2.wire = os.wire ++ sent ∧
      payload.Adds socket.backend (payload.issue socket os).1 sent := by
  cases payload with
  | batch entries =>
      have performs := trySendBatch_performs socket.backend socket.host
        entries os
      obtain ⟨sent, hwire, hfront, hlength⟩ := trySendBatch_sent
        socket.backend socket.host entries os
      refine ⟨sent, hwire, hfront, ?_, ?_⟩
      · intro n hn
        rw [issue, performs.result] at hn
        rw [Reports, hlength, attempt_ok _ _ _ hn]
      · intro harm
        rw [issue, performs.result] at harm
        rw [attempt_accepted_of_wait harm] at hlength
        exact List.eq_nil_of_length_eq_zero hlength
  | gso data segmentSize =>
      rcases hask : ask .wouldBlock os.sendScript with ⟨fault | ⟨⟨⟩⟩, script⟩
      all_goals simp only [issue, Linux.trySendGso, Os.offerSegmented, hask]
      · exact ⟨[], (List.append_nil _).symm, List.nil_prefix, by simp,
          fun _ => rfl⟩
      · refine ⟨_, rfl, ?_, ?_, by simp [sendArm]⟩
        · simp [datagrams, Function.comp_def]
        · rintro n ⟨⟩
          simp [Reports, Function.comp_def]

/-! ## Pieces of the wire -/

/-- A call that ended, with the result of its last attempt and the datagrams
that this attempt added. -/
structure Piece where
  call : SendCall
  result : IoResult Nat
  sent : List Sent

/-- The call of a task that may yet be tried: an attempt under way that will be
followed by a wait does not end its call. -/
def Task.liveCall (task : Task) : Option SendCall :=
  match task.phase with
  | .ready | .waiting => some task.call
  | .issued result => (settled task.call result).map Task.call

@[simp] theorem Task.liveCall_ready (call : SendCall) :
    Task.liveCall ⟨call, .ready⟩ = some call := rfl

@[simp] theorem Task.liveCall_waiting (call : SendCall) :
    Task.liveCall ⟨call, .waiting⟩ = some call := rfl

@[simp] theorem Task.liveCall_issued (call : SendCall)
    (result : IoResult Nat) :
    Task.liveCall ⟨call, .issued result⟩ =
      (settled call result).map Task.call := rfl

def World.liveCalls (world : World) : List SendCall :=
  world.tasks.filterMap Task.liveCall

/-- The result of a task whose attempt is its last one, before its call returns
it. -/
def Task.answered (task : Task) : Option (SendCall × IoResult Nat) :=
  match task.phase with
  | .ready | .waiting => none
  | .issued result =>
      if (settled task.call result).isSome then none
      else some (task.call, result)

def World.answered (world : World) : List (SendCall × IoResult Nat) :=
  world.tasks.filterMap Task.answered

def returnedCall : SendCall × Ending → Option (SendCall × IoResult Nat)
  | (call, .returned result) => some (call, result)
  | (_, .waitFailed _) | (_, .abandoned) => none

def givenUp : SendCall × Ending → Option SendCall
  | (_, .returned _) => none
  | (call, .waitFailed _) | (call, .abandoned) => some call

def startedCalls (events : List Event) : List SendCall :=
  events.filterMap fun
    | .start call => some call
    | .issue _ | .settle _ _ | .wake _ _ | .cancel _ => none

/-- The wire from `start` on, cut into the pieces of the calls that ended. -/
structure Pieces (start : World) (calls : List SendCall) (world : World)
    (pieces : List Piece) : Prop where
  backend : world.socket.backend = start.socket.backend
  wire : world.os.wire = start.os.wire ++ pieces.flatMap Piece.sent
  adds : ∀ piece ∈ pieces, piece.call.payload.Adds start.socket.backend
    piece.result piece.sent
  owners : (pieces.map Piece.call ++ world.liveCalls).Subperm calls

/-- The pieces are those of the calls that returned or are about to, each with
the result of its call.  Every other call was given up in a wait or may yet be
tried, and owns nothing. -/
structure Owned (start : World) (calls : List SendCall)
    (endings : List (SendCall × Ending)) (world : World)
    (pieces : List Piece) : Prop
    extends Pieces start calls world pieces where
  results : (pieces.map fun piece => (piece.call, piece.result)).Perm
    (endings.filterMap returnedCall ++ world.answered)
  shares : (pieces.map Piece.call ++ endings.filterMap givenUp ++
    world.liveCalls).Perm calls

/-! ## Steps -/

theorem settledSocket_backend (call : SendCall) (result : IoResult Nat)
    (now : Nat) (socket : BingerUdp) :
    (settledSocket call result now socket).backend = socket.backend := by
  have hcount : (call.payload.count result socket).backend =
      socket.backend := by
    cases call.payload <;> cases result <;> rfl
  rw [settledSocket]
  split
  · rw [← hcount]
    cases call.payload <;> rfl
  · exact hcount

theorem tasks_split {world : World} {t : Nat} {task : Task}
    (h : world.tasks[t]? = some task) :
    world.tasks = world.tasks.take t ++ task :: world.tasks.drop (t + 1) := by
  obtain ⟨hlt, rfl⟩ := List.getElem?_eq_some_iff.mp h
  rw [← List.drop_eq_getElem_cons hlt, List.take_append_drop]

theorem settled_eq_some {call : SendCall} {result : IoResult Nat} {task : Task}
    (h : settled call result = some task) :
    task = ⟨call, .waiting⟩ ∧ sendArm result = none := by
  rw [settled] at h
  split at h
  · next hretry =>
      cases h
      exact ⟨rfl, hretry.2⟩
  · cases h

theorem filterMap_tasks_perm {β : Type} {world : World} {t : Nat} {task : Task}
    (h : world.tasks[t]? = some task) (f : Task → Option β) :
    ∃ others, (world.tasks.filterMap f).Perm ((f task).toList ++ others) ∧
      ∀ task', ((world.put t task').tasks.filterMap f).Perm
        ((task'.bind f).toList ++ others) := by
  refine ⟨(world.tasks.take t ++ world.tasks.drop (t + 1)).filterMap f, ?_,
    ?_⟩
  · have hsplit := congrArg (List.filterMap f) (tasks_split h)
    have htask : [task].filterMap f = (f task).toList := by
      cases hf : f task <;> simp [hf]
    rw [hsplit, ← List.singleton_append, List.filterMap_append,
      List.filterMap_append, List.filterMap_append, htask]
    exact List.perm_append_comm_assoc _ _ _
  · intro task'
    have htask : task'.toList.filterMap f = (task'.bind f).toList := by
      cases task' with
      | none => rfl
      | some task' => cases hf : f task' <;> simp [hf]
    simp only [World.put, List.filterMap_append, htask, List.append_assoc]
    exact List.perm_append_comm_assoc _ _ _

/-- What a step adds: the piece of a call whose last attempt it is, and a share
for each call that it starts or ends. -/
structure StepAdds (world : World) (event : Event) (next : World)
    (added : List Piece) : Prop where
  backend : next.socket.backend = world.socket.backend
  wire : next.os.wire = world.os.wire ++ added.flatMap Piece.sent
  adds : ∀ piece ∈ added, piece.call.payload.Adds world.socket.backend
    piece.result piece.sent
  results : ((added.map fun piece => (piece.call, piece.result)) ++
      world.answered).Perm
    ((ended world event).toList.filterMap returnedCall ++ next.answered)
  shares : (added.map Piece.call ++
      (ended world event).toList.filterMap givenUp ++ next.liveCalls).Perm
    (world.liveCalls ++ startedCalls [event])

theorem StepAdds.of_put {world next : World} {event : Event} {t : Nat}
    {task : Task} {task' : Option Task} {added : List Piece}
    (htask : world.tasks[t]? = some task)
    (htasks : next.tasks = (world.put t task').tasks)
    (hstarted : startedCalls [event] = [])
    (backend : next.socket.backend = world.socket.backend)
    (wire : next.os.wire = world.os.wire ++ added.flatMap Piece.sent)
    (adds : ∀ piece ∈ added, piece.call.payload.Adds world.socket.backend
      piece.result piece.sent)
    (results : (added.map fun piece => (piece.call, piece.result)) ++
        task.answered.toList =
      (ended world event).toList.filterMap returnedCall ++
        (task'.bind Task.answered).toList)
    (shares : added.map Piece.call ++
        (ended world event).toList.filterMap givenUp ++
          (task'.bind Task.liveCall).toList = task.liveCall.toList) :
    StepAdds world event next added := by
  refine ⟨backend, wire, adds, ?_, ?_⟩
  · obtain ⟨others, hbefore, hafter⟩ :=
      filterMap_tasks_perm htask Task.answered
    rw [World.answered, World.answered, htasks]
    have htotal := hbefore.append_left
      (added.map fun piece => (piece.call, piece.result))
    rw [← List.append_assoc _ _ others, results, List.append_assoc] at htotal
    exact htotal.trans ((hafter task').symm.append_left _)
  · obtain ⟨others, hbefore, hafter⟩ :=
      filterMap_tasks_perm htask Task.liveCall
    rw [World.liveCalls, World.liveCalls, htasks, hstarted, List.append_nil]
    have htotal := (hafter task').append_left (added.map Piece.call ++
      (ended world event).toList.filterMap givenUp)
    rw [← List.append_assoc _ _ others, shares] at htotal
    exact htotal.trans hbefore.symm

theorem StepAdds.of_start (world : World) (call : SendCall) :
    StepAdds world (.start call)
      { world with tasks := world.tasks ++ [⟨call, .ready⟩] } [] := by
  refine ⟨rfl, (List.append_nil _).symm, by simp, ?_, ?_⟩
  · have hready : [(⟨call, .ready⟩ : Task)].filterMap Task.answered = [] := rfl
    simp [World.answered, ended, hready]
  · simp [World.liveCalls, ended, startedCalls]

theorem StepAdds.of_issue {world : World} {t : Nat} {call : SendCall}
    (htask : world.tasks[t]? = some ⟨call, .ready⟩) :
    ∃ added, StepAdds world (.issue t)
      ({ world with os := (call.payload.issue world.socket world.os).2 }.put t
        (some ⟨call, .issued (call.payload.issue world.socket world.os).1⟩))
      added := by
  obtain ⟨sent, hwire, hadds⟩ :=
    call.payload.issue_adds world.socket world.os
  cases hsettled :
      settled call (call.payload.issue world.socket world.os).1 with
  | some task =>
      -- the attempt will be followed by a wait
      obtain ⟨rfl, harm⟩ := settled_eq_some hsettled
      have hnone := hadds.waits harm
      refine ⟨[], .of_put htask rfl rfl rfl ?_ (by simp) ?_ ?_⟩
      · rw [World.put_os, hwire, hnone]
        rfl
      · simp [Task.answered, ended, hsettled]
      · simp [ended, hsettled]
  | none =>
      refine ⟨[⟨call, (call.payload.issue world.socket world.os).1, sent⟩],
        .of_put htask rfl rfl rfl ?_ ?_ ?_ ?_⟩
      · rw [World.put_os, hwire]
        simp
      · rw [List.forall_mem_singleton]
        exact hadds
      · simp [Task.answered, ended, hsettled]
      · simp [ended, hsettled]

theorem step_adds {world next : World} {event : Event}
    (hstep : step world event = some next) :
    ∃ added, StepAdds world event next added := by
  cases step_eq_some_iff.mp hstep with
  | @start call havailable => exact ⟨[], .of_start world call⟩
  | @issue t call htask => exact StepAdds.of_issue htask
  | @settle t now call result htask =>
      have hbackend := settledSocket_backend call result now world.socket
      refine ⟨[], .of_put htask rfl rfl hbackend (List.append_nil _).symm
        (by simp) ?_ ?_⟩
      · cases hsettled : settled call result with
        | none => simp [Task.answered, ended, htask, hsettled, returnedCall]
        | some task =>
            obtain ⟨rfl, -⟩ := settled_eq_some hsettled
            simp [Task.answered, ended, htask, hsettled]
      · cases hsettled : settled call result with
        | none => simp [ended, htask, hsettled, givenUp]
        | some task =>
            obtain ⟨rfl, -⟩ := settled_eq_some hsettled
            simp [ended, htask, hsettled]
  | @wake t outcome call htask =>
      refine ⟨[], .of_put htask rfl rfl rfl (List.append_nil _).symm
        (by simp) ?_ ?_⟩
      · cases htokio : world.socket.tokio <;> cases outcome <;>
          simp [Task.answered, ended, htask, htokio, woken, returnedCall]
      · cases htokio : world.socket.tokio <;> cases outcome <;>
          simp [ended, htask, htokio, woken, givenUp]
  | @cancel t call htask =>
      refine ⟨[], .of_put htask rfl rfl rfl (List.append_nil _).symm
        (by simp) ?_ ?_⟩
      · simp [Task.answered, ended, htask, returnedCall]
      · simp [ended, htask, givenUp]

section Step

variable {start world next : World} {calls : List SendCall}
  {endings : List (SendCall × Ending)} {pieces added : List Piece}
  {event : Event}

theorem Pieces.step (h : Pieces start calls world pieces)
    (hadds : StepAdds world event next added) :
    Pieces start (calls ++ startedCalls [event]) next (pieces ++ added) := by
  refine ⟨hadds.backend.trans h.backend, ?_, ?_, ?_⟩
  · rw [hadds.wire, h.wire, List.flatMap_append, List.append_assoc]
  · rw [List.forall_mem_append, ← h.backend]
    exact ⟨h.backend ▸ h.adds, hadds.adds⟩
  · have hsub : (added.map Piece.call ++ next.liveCalls).Subperm
        (world.liveCalls ++ startedCalls [event]) :=
      (((List.sublist_append_left _ _).append_right _).subperm).trans
        hadds.shares.subperm
    rw [List.map_append, List.append_assoc]
    refine ((List.subperm_append_left _).mpr hsub).trans ?_
    rw [← List.append_assoc]
    exact (List.subperm_append_right _).mpr h.owners

theorem Owned.step (h : Owned start calls endings world pieces)
    (hadds : StepAdds world event next added) :
    Owned start (calls ++ startedCalls [event])
      (endings ++ (ended world event).toList) next (pieces ++ added) := by
  refine ⟨h.toPieces.step hadds, ?_, ?_⟩
  · rw [List.map_append, List.filterMap_append, List.append_assoc]
    have hfirst := h.results.append_right
      (added.map fun piece => (piece.call, piece.result))
    rw [List.append_assoc] at hfirst
    exact hfirst.trans
      ((List.perm_append_comm.trans hadds.results).append_left _)
  · have hboth := hadds.shares.append_left
      (pieces.map Piece.call ++ endings.filterMap givenUp)
    rw [← List.append_assoc _ world.liveCalls] at hboth
    refine List.Perm.trans ?_ (hboth.trans (h.shares.append_right _))
    simp only [List.map_append, List.filterMap_append, List.append_assoc]
    exact (List.perm_append_comm_assoc _ _ _).append_left _

end Step

theorem step_pieces {start world next : World} {calls : List SendCall}
    {pieces : List Piece} {event : Event}
    (h : Pieces start calls world pieces)
    (hstep : step world event = some next) :
    ∃ added, Pieces start (calls ++ startedCalls [event]) next
      (pieces ++ added) := by
  obtain ⟨added, hadds⟩ := step_adds hstep
  exact ⟨added, h.step hadds⟩

/-! ## Runs -/

end Binger.Socket.Tasks
