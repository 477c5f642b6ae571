import Mathlib.Data.Rat.Defs
import Mathlib.Tactic.NormNum
import Binger.Foundation.AtomicReads
import Binger.Socket.Metrics

/-!
# Snapshots of the metrics

`snapshot` loads ten counters one by one and then two of them again for the
efficiency.  The errors are loaded before the `WouldBlock` events and the
batches before the system calls, in the order in which they are incremented, so
a call that falls between two loads can show up in the second one only.  A
snapshot is consistent as long as no increment moves a counter out of the
relation to what has already been loaded.
-/

namespace Binger.Socket.Metrics

open Binger.Foundation Binger.Foundation.Atomics

/-- `syscall_efficiency_ratio` on two loaded values.  The quotient of the two
converted numbers is kept exact; the division of the source rounds it once
more. -/
def syscallEfficiencyRatio (packetsSent sendSyscalls : Nat) : ℚ :=
  let pkt := roundToF64 packetsSent
  let sc := roundToF64 sendSyscalls
  if 0 < sc then (pkt : ℚ) / sc else 0

structure MetricsSnapshot where
  packetsSent : Nat
  packetsReceived : Nat
  batchesSent : Nat
  batchesReceived : Nat
  sendSyscalls : Nat
  recvSyscalls : Nat
  sendErrors : Nat
  recvErrors : Nat
  sendWouldBlock : Nat
  recvWouldBlock : Nat
  syscallEfficiency : ℚ

def snapshotOf : List Nat → Option MetricsSnapshot
  | [packetsSent, packetsReceived, batchesSent, batchesReceived, sendSyscalls,
      recvSyscalls, sendErrors, recvErrors, sendWouldBlock, recvWouldBlock,
      packetsSent', sendSyscalls'] =>
      some ⟨packetsSent, packetsReceived, batchesSent, batchesReceived,
        sendSyscalls, recvSyscalls, sendErrors, recvErrors, sendWouldBlock,
        recvWouldBlock, syscallEfficiencyRatio packetsSent' sendSyscalls'⟩
  | _ => none

structure Consistent (snap : MetricsSnapshot) : Prop where
  sendWouldBlock_le : snap.sendWouldBlock ≤ snap.sendErrors
  recvWouldBlock_le : snap.recvWouldBlock ≤ snap.recvErrors
  sendSyscalls_le : snap.sendSyscalls ≤ snap.batchesSent
  efficiency_eq : snap.syscallEfficiency =
    syscallEfficiencyRatio snap.packetsSent snap.sendSyscalls

/-! ## The pairs of loads -/

def covered (first second : Nat) (counter : Counter) : Watch Counter :=
  ⟨first, second, counter, fun value value' => value' ≤ value⟩

def repeated (first second : Nat) (counter : Counter) : Watch Counter :=
  ⟨first, second, counter, fun value value' => value' = value⟩

/-- The positions are those of `snapshotLoads`. -/
def watches : List (Watch Counter) :=
  [covered 6 8 .sendWouldBlock, covered 7 9 .recvWouldBlock,
    covered 2 4 .sendSyscalls, repeated 0 10 .packetsSent,
    repeated 4 11 .sendSyscalls]

section Runs

variable {ι : Type} [Fintype ι] [DecidableEq ι]

omit [DecidableEq ι] in
theorem Live.watchable {machine : Machine ι Operation Counter}
    (live : Live machine) :
    Watchable snapshotLoads watches machine.cells := by
  have hsend := live.le (.errors : Pair .send _ _)
  have hrecv := live.le (.errors : Pair .recv _ _)
  have hbatches := live.le (.batches : Pair .send _ _)
  constructor
  · simp [watches, covered, repeated]
  · simp [watches, covered, repeated, snapshotLoads]
  · intro watch hmem cell hcell
    simp only [watches, List.mem_cons, List.not_mem_nil, or_false] at hmem
    rcases hmem with rfl | rfl | rfl | rfl | rfl <;>
      simp only [covered, repeated, snapshotLoads, List.getElem?_cons_zero,
        List.getElem?_cons_succ, Option.some.injEq] at hcell <;>
      subst hcell
    · exact hsend
    · exact hrecv
    · exact hbatches
    · rfl
    · rfl

structure Watched (machine : Machine ι Operation Counter) : Prop where
  live : Live machine
  readings : ∀ t, (machine.threads t).op = some .snapshot →
    Reading snapshotLoads watches machine.cells (machine.threads t)

theorem Watched.step {machine next : Machine ι Operation Counter}
    {act : Act ι Operation} (watched : Watched machine) (hreset : NoReset act)
    (hwrap : NoWrap wordSize machine act)
    (hundisturbed : Undisturbed .snapshot watches machine act)
    (hstep : step machine act = some next) : Watched next :=
  ⟨watched.live.step hreset hwrap hstep,
    readings_step (show program .snapshot = snapshotLoads.map .load from rfl)
      watched.live.watchable watched.live.clearless hwrap hundisturbed hstep
      watched.readings⟩

omit [DecidableEq ι] in
theorem watched_fresh : Watched (fresh : Machine ι Operation Counter) := by
  refine ⟨live_fresh, ?_⟩
  intro t hop
  cases hop

end Runs

theorem exists_snapshotOf {loaded : List Nat} (h : loaded.length = 12) :
    ∃ snap, snapshotOf loaded = some snap ∧
      loaded[0]? = some snap.packetsSent ∧
      loaded[2]? = some snap.batchesSent ∧
      loaded[4]? = some snap.sendSyscalls ∧
      loaded[6]? = some snap.sendErrors ∧
      loaded[7]? = some snap.recvErrors ∧
      loaded[8]? = some snap.sendWouldBlock ∧
      loaded[9]? = some snap.recvWouldBlock ∧
      ∃ packetsSent sendSyscalls, loaded[10]? = some packetsSent ∧
        loaded[11]? = some sendSyscalls ∧
        snap.syscallEfficiency =
          syscallEfficiencyRatio packetsSent sendSyscalls := by
  rcases loaded with _ | ⟨l0, _ | ⟨l1, _ | ⟨l2, _ | ⟨l3, _ | ⟨l4, _ | ⟨l5, _ |
    ⟨l6, _ | ⟨l7, _ | ⟨l8, _ | ⟨l9, _ | ⟨l10, _ |
      ⟨l11, rest⟩⟩⟩⟩⟩⟩⟩⟩⟩⟩⟩⟩ <;>
    simp at h
  subst h
  exact ⟨_, rfl, rfl, rfl, rfl, rfl, rfl, rfl, rfl, _, _, rfl, rfl, rfl⟩

theorem Reading.consistent {cells : Counter → Nat}
    {thread : Thread Operation Counter}
    (reading : Reading snapshotLoads watches cells thread)
    (hdone : thread.todo = []) :
    ∃ snap, snapshotOf thread.loaded = some snap ∧ Consistent snap := by
  have hlength : thread.loaded.length = 12 := by
    have hle : thread.loaded.length ≤ 12 := reading.length_le
    have htodo := congrArg List.length reading.todo_eq
    rw [hdone, List.length_map, List.length_drop] at htodo
    have htwelve : snapshotLoads.length = 12 := rfl
    rw [htwelve, List.length_nil] at htodo
    omega
  rcases exists_snapshotOf hlength with ⟨snap, hsnap, h0, h2, h4, h6, h7, h8,
    h9, packetsSent, sendSyscalls, h10, h11, hratio⟩
  have held := reading.held
  simp only [watches, List.forall_mem_cons, List.not_mem_nil,
    false_implies, implies_true, and_true] at held
  rcases held with ⟨hsend, hrecv, hbatches, hpackets, hsyscalls⟩
  have hsend := hsend _ h6
  have hrecv := hrecv _ h7
  have hbatches := hbatches _ h2
  have hpackets := hpackets _ h0
  have hsyscalls := hsyscalls _ h4
  simp only [covered, repeated, h8, h9, h4, h10, h11, Option.getD_some]
    at hsend hrecv hbatches hpackets hsyscalls
  refine ⟨snap, hsnap, hsend, hrecv, hbatches, ?_⟩
  rw [hratio, hpackets, hsyscalls]

section Runs

variable {ι : Type} [Fintype ι] [DecidableEq ι]

/-- Every snapshot that a run returns is consistent when no increment moves a
counter that a snapshot in progress is about to load for the second value of a
pair out of the relation to the first one. -/
theorem snapshots_consistent {actions : List (Act ι Operation)}
    {final : Machine ι Operation Counter}
    (hrun : run step fresh actions = some final)
    (hreset : ∀ act ∈ actions, NoReset act)
    (hwrap : EveryStep step (fun machine act _ => NoWrap wordSize machine act)
      fresh actions)
    (hundisturbed : EveryStep step
      (fun machine act _ => Undisturbed .snapshot watches machine act) fresh
      actions) :
    ∀ t, (final.threads t).op = some .snapshot →
      (final.threads t).todo = [] →
      ∃ snap, snapshotOf (final.threads t).loaded = some snap ∧
        Consistent snap := by
  intro t hop hdone
  have hall := (hwrap.and hundisturbed).and
    (EveryStep.of_mem hreset fresh)
  have watched : Watched final := by
    refine EveryStep.preserves ?_ watched_fresh hall hrun
    intro machine act next watched hsteps hstep
    exact watched.step hsteps.2 hsteps.1.1 hsteps.1.2 hstep
  exact Reading.consistent (watched.readings t hop) hdone

end Runs

def quietSnapshot : List (Act Bool Operation) :=
  .start false (.trySendBatch (.ok 3)) :: List.replicate 3 (.advance false) ++
    .start true .snapshot :: List.replicate 12 (.advance true)

theorem quietSnapshot_consistent :
    ∃ final, run step fresh quietSnapshot = some final ∧
      ∃ snap, snapshotOf (final.threads true).loaded = some snap ∧
        Consistent snap := by
  have hwrap : EveryStep step
      (fun machine act _ => NoWrap wordSize machine act) fresh
      quietSnapshot := by
    decide +kernel
  have hundisturbed : EveryStep step
      (fun machine act _ => Undisturbed .snapshot watches machine act) fresh
      quietSnapshot := by
    refine ⟨?_, ?_, ?_, ?_, ?_, ?_, ?_, ?_, ?_, ?_, ?_, ?_, ?_, ?_, ?_, ?_, ?_,
      trivial⟩ <;>
      intro t cell amount todo hact htodo <;> cases hact <;>
      cases htodo <;>
      exact Bool.forall_bool.mpr
        ⟨fun h => absurd h (by decide), fun h => absurd h (by decide)⟩
  refine ⟨_, rfl, ?_⟩
  exact @snapshots_consistent Bool _ _ quietSnapshot _ rfl
    (by simp [quietSnapshot, NoReset]) hwrap hundisturbed true rfl rfl

def overtakenSnapshot : List (Act Bool Operation) :=
  .start true .snapshot :: List.replicate 7 (.advance true) ++
    .start false (.trySendBatch (.error (.os .eagain))) ::
      List.replicate 2 (.advance false) ++
    .start false (.trySendBatch (.ok 2)) :: List.replicate 3 (.advance false) ++
    List.replicate 5 (.advance true)

/-- It shows one `WouldBlock` and no error, and two packets for each of no
system calls. -/
theorem overtakenSnapshot_inconsistent :
    ∃ final snap, run step fresh overtakenSnapshot = some final ∧
      (∀ act ∈ overtakenSnapshot, NoReset act) ∧
      EveryStep step (fun machine act _ => NoWrap wordSize machine act) fresh
        overtakenSnapshot ∧
      (final.threads true).op = some .snapshot ∧
      (final.threads true).todo = [] ∧
      snapshotOf (final.threads true).loaded = some snap ∧
      ¬ snap.sendWouldBlock ≤ snap.sendErrors ∧
      snap.syscallEfficiency ≠
        syscallEfficiencyRatio snap.packetsSent snap.sendSyscalls := by
  refine ⟨_, _, rfl, by simp [overtakenSnapshot, NoReset], by decide +kernel,
    rfl, rfl, rfl, by decide, ?_⟩
  show syscallEfficiencyRatio 2 1 ≠ syscallEfficiencyRatio 0 0
  norm_num [syscallEfficiencyRatio, roundToF64]

end Binger.Socket.Metrics
