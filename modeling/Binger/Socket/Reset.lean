import Binger.Socket.Metrics

/-!
# Resetting the metrics

`reset` stores ten zeroes one by one, and calls go on in between.  A call that
has incremented the batches when they are cleared still increments the system
calls, and one that falls between the two stores loses only one of its two
increments.  Either way the skew stays for the rest of the run.
-/

namespace Binger.Socket.Metrics

open Binger.Foundation Binger.Foundation.Atomics

structure Coherent (cells : Counter → Nat) : Prop where
  sent_eq : cells .batchesSent = cells .sendSyscalls
  received_eq : cells .batchesReceived = cells .recvSyscalls
  sendWouldBlock_le : cells .sendWouldBlock ≤ cells .sendErrors
  recvWouldBlock_le : cells .recvWouldBlock ≤ cells .recvErrors

theorem repaid_updates (direction side : Direction) (result : IoResult Nat) :
    Repaid direction.batches direction.syscalls (updates side result) := by
  cases direction <;> cases side <;> cases result with
  | ok count =>
      simp [updates, Repaid, owed, Direction.batches, Direction.syscalls,
        Direction.packets]
  | error error =>
      by_cases hkind : error.kind = .wouldBlock <;>
        simp [updates, Repaid, Direction.batches, Direction.errors,
          Direction.wouldBlock, hkind]

theorem repaid_program (direction : Direction) (op : Operation) :
    Repaid direction.batches direction.syscalls (program op) := by
  cases op with
  | trySendBatch result => exact repaid_updates direction .send result
  | tryRecvBatch result => exact repaid_updates direction .recv result
  | snapshot => simp [program, snapshotLoads, Repaid]
  | reset => simp [program, resetStores, Repaid]

theorem Direction.forall_iff {P : Direction → Prop} :
    (∀ direction, P direction) ↔ P .send ∧ P .recv := by
  constructor
  · intro h
    exact ⟨h .send, h .recv⟩
  · rintro ⟨hsend, hrecv⟩ direction
    cases direction with
    | send => exact hsend
    | recv => exact hrecv

instance {P : Direction → Prop} [DecidablePred P] :
    Decidable (∀ direction, P direction) :=
  decidable_of_iff _ Direction.forall_iff.symm

section Runs

variable {ι : Type} [Fintype ι] [DecidableEq ι]

/-- No store of `reset` to the first counter of a pair falls between the two
increments of a call, and no call increments the system calls between the
stores of a `reset` to the batches and to the system calls. -/
structure ResetApart (machine : Machine ι Operation Counter)
    (act : Act ι Operation) : Prop where
  unowed : ∀ direction a b, Pair direction a b → ClearsUnowed a b machine act
  adds_whole : ∀ direction : Direction,
    AddsWhole direction.batches direction.syscalls machine act

omit [Fintype ι] [DecidableEq ι] in
theorem resetApart_iff {machine : Machine ι Operation Counter}
    {act : Act ι Operation} : ResetApart machine act ↔
      ∀ direction : Direction,
        ClearsUnowed direction.errors direction.wouldBlock machine act ∧
        ClearsUnowed direction.batches direction.syscalls machine act ∧
        AddsWhole direction.batches direction.syscalls machine act := by
  constructor
  · intro apart direction
    exact ⟨apart.unowed direction _ _ .errors,
      apart.unowed direction _ _ .batches, apart.adds_whole direction⟩
  · intro h
    constructor
    case unowed =>
      intro direction a b pair
      cases pair with
      | errors => exact (h direction).1
      | batches => exact (h direction).2.1
    case adds_whole =>
      intro direction
      exact (h direction).2.2

instance (machine : Machine ι Operation Counter) (act : Act ι Operation) :
    Decidable (ResetApart machine act) :=
  decidable_of_iff _ resetApart_iff.symm

structure Paired (machine : Machine ι Operation Counter) : Prop where
  errors : ∀ direction : Direction,
    NotAhead direction.errors direction.wouldBlock machine
  batches : ∀ direction : Direction,
    Level direction.batches direction.syscalls machine

theorem Paired.step {machine next : Machine ι Operation Counter}
    {act : Act ι Operation} (paired : Paired machine)
    (hwrap : NoWrap wordSize machine act) (hapart : ResetApart machine act)
    (hstep : step machine act = some next) : Paired next := by
  have hallowed : ∀ direction a b, Pair direction a b →
      PairStep wordSize program a b machine act :=
    fun direction a b pair => ⟨fun _ op _ => pair.pairProgram op, hwrap,
      hapart.unowed direction a b pair⟩
  constructor
  case errors =>
    intro direction
    exact (paired.errors direction).step (Pair.errors).ne
      (hallowed direction _ _ .errors) hstep
  case batches =>
    intro direction
    exact (paired.batches direction).step (Pair.batches).ne
      (hallowed direction _ _ .batches)
      (fun _ op _ => repaid_program direction op)
      (hapart.adds_whole direction) hstep

omit [DecidableEq ι] in
theorem Paired.coherent {machine : Machine ι Operation Counter}
    (paired : Paired machine) (hquiet : machine.Quiet) :
    Coherent machine.cells := by
  have heq : ∀ direction : Direction, machine.cells direction.batches =
      machine.cells direction.syscalls := by
    intro direction
    have h := (paired.batches direction).of_whole
      (not_anyHalfway_of_quiet hquiet)
    rwa [ahead_of_quiet hquiet rfl] at h
  have hle : ∀ direction : Direction, machine.cells direction.wouldBlock ≤
      machine.cells direction.errors := by
    intro direction
    have h := (paired.errors direction).add_owed_le
      (not_anyHalfway_of_quiet hquiet)
    rwa [ahead_of_quiet hquiet rfl] at h
  exact ⟨heq .send, heq .recv, hle .send, hle .recv⟩

/-- Whenever no operation is in progress the counters are coherent, in every
run whose resets stay clear of the calls in this sense. -/
theorem reset_coherent {actions : List (Act ι Operation)}
    {final : Machine ι Operation Counter}
    (hrun : run step fresh actions = some final)
    (hwrap : EveryStep step (fun machine act _ => NoWrap wordSize machine act)
      fresh actions)
    (hapart : EveryStep step (fun machine act _ => ResetApart machine act)
      fresh actions)
    (hquiet : final.Quiet) : Coherent final.cells := by
  have paired : Paired final := by
    refine EveryStep.preserves ?_
      ⟨fun _ => notAhead_idle, fun _ => level_idle⟩ (hwrap.and hapart) hrun
    intro machine act next paired hboth hstep
    exact paired.step hboth.1 hboth.2 hstep
  exact paired.coherent hquiet

end Runs

def resetBetween : List (Act Bool Operation) :=
  .start false (.trySendBatch (.ok 3)) :: List.replicate 3 (.advance false) ++
    .start true .reset :: .start false (.tryRecvBatch (.error (.os .eagain))) ::
      List.replicate 10 (.advance true) ++ List.replicate 2 (.advance false)

theorem resetBetween_coherent :
    ∃ final, run step fresh resetBetween = some final ∧ final.Quiet ∧
      Coherent final.cells := by
  have hwrap : EveryStep step
      (fun machine act _ => NoWrap wordSize machine act) fresh
      resetBetween := by
    decide +kernel
  have hapart : EveryStep step
      (fun machine act _ => ResetApart machine act) fresh resetBetween := by
    decide +kernel
  have hquiet : ∀ final, run step fresh resetBetween = some final →
      final.Quiet := by
    intro final h
    cases h
    exact Bool.forall_bool.mpr ⟨rfl, rfl⟩
  refine ⟨_, rfl, hquiet _ rfl, ?_⟩
  exact @reset_coherent Bool _ _ resetBetween _ rfl hwrap hapart
    (hquiet _ rfl)

def resetInside : List (Act Bool Operation) :=
  .start false (.trySendBatch (.ok 1)) :: List.replicate 2 (.advance false) ++
    .start true .reset :: List.replicate 10 (.advance true) ++ [.advance false]

/-- Afterwards the counters stand at no batch and one system call. -/
theorem resetInside_incoherent :
    ∃ final, run step fresh resetInside = some final ∧
      EveryStep step (fun machine act _ => NoWrap wordSize machine act) fresh
        resetInside ∧
      final.Quiet ∧ ¬ Coherent final.cells := by
  refine ⟨_, rfl, by decide +kernel, Bool.forall_bool.mpr ⟨rfl, rfl⟩, ?_⟩
  intro coherent
  exact absurd coherent.sent_eq (by decide)

end Binger.Socket.Metrics
