import Binger.Platform.FailedCalls
import Binger.Socket.Tasks

/-!
# Packet accounting

`packets_sent` grows by what an attempt returns.  It misses the datagrams of an
attempt that sent some packets and then failed, and all datagrams of `send_gso`,
which updates no counter.
-/

namespace Binger.Socket.Tasks

open Binger.Foundation Binger.Platform

/-! ## What an attempt books and what it loses -/

/-- What `packets_sent` will grow by for an attempt. -/
def Payload.booked (payload : Payload) (result : IoResult Nat) : Nat :=
  match payload, result with
  | .batch _, .ok sent => sent
  | .batch _, .error _ => 0
  | .gso _ _, _ => 0

/-- The datagrams of an attempt that no counter will show. -/
def Payload.lost (payload : Payload) (backend : Backend) (os : Os) : Nat :=
  match payload with
  | .batch entries =>
      let done := attempt (sendPath backend os) entries.len os.sendScript
      match done.result with
      | .ok _ => 0
      | .error _ => done.accepted
  | .gso data segmentSize =>
      match (ask .wouldBlock os.sendScript).1 with
      | .ok () => (Os.gsoDatagrams segmentSize.toNat data).length
      | .error _ => 0

def Payload.Counted (payload : Payload) (backend : Backend) (os : Os) : Prop :=
  match payload with
  | .batch entries => sendPath backend os = .perPacket →
      StopsCleanly entries.len os.sendScript os.sendScript
  | .gso _ _ => (ask .wouldBlock os.sendScript).1 ≠ .ok ()

theorem attempt_loses_iff (path : SendPath) (len : Nat)
    (script : List (Except Fault Unit)) :
    (∀ error, (attempt path len script).result = .error error →
        (attempt path len script).accepted = 0) ↔
      (path = .perPacket → StopsCleanly len script script) := by
  cases path with
  | perPacket =>
      simp only [attempt, List.length_eq_zero_iff, true_implies]
      exact stopsCleanly_send_iff.symm
  | wsa =>
      simp only [reduceCtorEq, false_implies, iff_true]
      intro error herror
      simp [attempt, wsaResult_eq_error herror]
  | batched | batchedRetry =>
      simp only [reduceCtorEq, false_implies, iff_true]
      intro error herror
      simp [attempt, batchedAttempt, (batchedResult_eq_error herror).1]

theorem gsoDatagrams_length (segmentSize : Nat) (data : List UInt8) :
    (Os.gsoDatagrams segmentSize data).length =
      if segmentSize = 0 ∨ data.length = 0 then 1
      else (data.length + segmentSize - 1) / segmentSize := by
  rw [Os.gsoDatagrams]
  split
  · next h =>
      split
      · rfl
      · next hpos =>
          rw [not_or] at hpos
          exact (segmentCount_eq_one (Nat.pos_of_ne_zero hpos.2)
            (h.resolve_left hpos.1)).symm
  · next h =>
      rw [not_or, Nat.not_le] at h
      rw [if_neg (by omega), segments_length, segmentCount]

theorem gsoDatagrams_length_pos (segmentSize : Nat) (data : List UInt8) :
    0 < (Os.gsoDatagrams segmentSize data).length := by
  rw [gsoDatagrams_length]
  split
  · exact Nat.one_pos
  · next h =>
      apply Nat.div_pos <;> omega

theorem Payload.lost_eq_zero_iff (payload : Payload) (backend : Backend)
    (os : Os) : payload.lost backend os = 0 ↔ payload.Counted backend os := by
  cases payload with
  | batch entries =>
      rw [Counted, ← attempt_loses_iff, lost]
      split
      · next h => simp [h]
      · next h => simp [h]
  | gso data segmentSize =>
      rw [Counted, lost]
      split
      · next h =>
          have hpos := gsoDatagrams_length_pos segmentSize.toNat data
          simp only [h, ne_eq, not_true_eq_false, iff_false]
          omega
      · next h => simp [h]

theorem Payload.issue_accepted (payload : Payload) (socket : BingerUdp)
    (os : Os) :
    ∃ accepted,
      (payload.issue socket os).2.wire = os.wire ++ accepted ∧
      accepted.length = payload.booked (payload.issue socket os).1 +
        payload.lost socket.backend os := by
  cases payload with
  | batch entries =>
      have performs := trySendBatch_performs socket.backend socket.host
        entries os
      have hle := attempt_accepted_le (sendPath socket.backend os) entries.len
        os.sendScript
      obtain ⟨accepted, hwire, hitems⟩ := performs.wire
      have hlength := congrArg List.length hitems
      rw [List.length_map, List.length_take, items_length,
        Nat.min_eq_left hle] at hlength
      refine ⟨accepted, hwire, ?_⟩
      rw [hlength, issue, performs.result, lost]
      cases hresult : (attempt (sendPath socket.backend os) entries.len
          os.sendScript).result with
      | ok sent => simp [booked, attempt_ok _ _ _ hresult]
      | error error => simp [booked]
  | gso data segmentSize =>
      rcases hask : ask .wouldBlock os.sendScript with ⟨fault | ⟨⟨⟩⟩, script⟩
      all_goals
        simp only [issue, Linux.trySendGso, Os.offerSegmented, lost, hask]
      · exact ⟨[], (List.append_nil _).symm, rfl⟩
      · refine ⟨_, rfl, ?_⟩
        simp [booked]

theorem settledSocket_packetsSent (call : SendCall) (result : IoResult Nat)
    (now : Nat) (socket : BingerUdp) :
    (settledSocket call result now socket).metrics.map
        BingerMetrics.packetsSent =
      socket.metrics.map fun metrics =>
        metrics.packetsSent + call.payload.booked result := by
  have hwait : (settledSocket call result now socket).metrics =
      (call.payload.count result socket).metrics := by
    rw [settledSocket]
    split
    · cases call.payload <;> rfl
    · rfl
  have herror : ∀ error metrics,
      (BingerUdp.countSendError error metrics).packetsSent =
        metrics.packetsSent := by
    intro error metrics
    rw [BingerUdp.countSendError]
    split <;> rfl
  rw [hwait]
  cases call.payload with
  | batch entries =>
      cases result with
      | ok sent =>
          simp [Payload.count, Payload.booked, Function.comp_def,
            BingerUdp.countSent]
      | error error =>
          simp [Payload.count, Payload.booked, Function.comp_def, herror]
  | gso data segmentSize => simp [Payload.count, Payload.booked]

/-! ## The books of the system -/

def Task.booked (task : Task) : Nat :=
  match task.phase with
  | .issued result => task.call.payload.booked result
  | .ready | .waiting => 0

namespace World

def packetsSent (world : World) : Option Nat :=
  world.socket.metrics.map BingerMetrics.packetsSent

def credit (world : World) : Nat :=
  world.packetsSent.getD 0 + (world.tasks.map Task.booked).sum

def lost (world : World) : Event → Nat
  | .issue t =>
      match world.tasks[t]? with
      | some task => task.call.payload.lost world.socket.backend world.os
      | none => 0
  | .start _ | .settle _ _ | .wake _ _ | .cancel _ => 0

def Counted (world : World) : Event → Prop
  | .issue t => ∀ task, world.tasks[t]? = some task →
      task.call.payload.Counted world.socket.backend world.os
  | .start _ | .settle _ _ | .wake _ _ | .cancel _ => True

theorem lost_eq_zero_iff (world : World) (event : Event) :
    world.lost event = 0 ↔ world.Counted event := by
  cases event with
  | issue t =>
      rw [lost, Counted]
      split
      · next task htask => simp [htask, Payload.lost_eq_zero_iff]
      · next htask => simp [htask]
  | start | settle | wake | cancel => simp [lost, Counted]

theorem credit_put {world : World} {t : Nat} {task : Task}
    (h : world.tasks[t]? = some task) (task' : Option Task) :
    (world.put t task').credit + task.booked =
      world.credit + (task'.toList.map Task.booked).sum := by
  have hsplit : world.tasks =
      world.tasks.take t ++ task :: world.tasks.drop (t + 1) := by
    obtain ⟨hlt, rfl⟩ := List.getElem?_eq_some_iff.mp h
    rw [← List.drop_eq_getElem_cons hlt, List.take_append_drop]
  have hsum := congrArg (fun tasks => (tasks.map Task.booked).sum) hsplit
  simp only [credit, packetsSent, put, List.map_append, List.map_cons,
    List.sum_append, List.sum_cons] at hsum ⊢
  omega

@[simp] theorem put_socket (world : World) (t : Nat) (task : Option Task) :
    (world.put t task).socket = world.socket := rfl

@[simp] theorem put_os (world : World) (t : Nat) (task : Option Task) :
    (world.put t task).os = world.os := rfl

end World

@[simp] theorem booked_settled (call : SendCall) (result : IoResult Nat) :
    ((settled call result).toList.map Task.booked).sum = 0 := by
  rw [settled]
  split <;> rfl

@[simp] theorem booked_woken (socket : BingerUdp) (call : SendCall)
    (outcome : IoResult Unit) :
    ((woken socket call outcome).toList.map Task.booked).sum = 0 := by
  unfold woken
  split <;> rfl

theorem credit_issue {world : World} {t : Nat} {call : SendCall}
    (htask : world.tasks[t]? = some ⟨call, .ready⟩) (result : IoResult Nat)
    (os : Os) :
    ({ world with os := os }.put t (some ⟨call, .issued result⟩)).credit =
      world.credit + call.payload.booked result := by
  have hcredit := @World.credit_put { world with os := os } t ⟨call, .ready⟩
    htask (some ⟨call, .issued result⟩)
  have hsame : World.credit { world with os := os } = world.credit := rfl
  simpa [hsame, Task.booked] using hcredit

theorem credit_settle {world : World} {t : Nat} {call : SendCall}
    {result : IoResult Nat} (h : world.socket.metrics.isSome)
    (htask : world.tasks[t]? = some ⟨call, .issued result⟩) (now : Nat) :
    ({ world with
        socket := settledSocket call result now world.socket }.put t
      (settled call result)).credit = world.credit := by
  have hcredit := @World.credit_put
    { world with socket := settledSocket call result now world.socket } t
    ⟨call, .issued result⟩ htask (settled call result)
  have hsettled : World.credit { world with
        socket := settledSocket call result now world.socket } =
      world.credit + call.payload.booked result := by
    rcases Option.isSome_iff_exists.mp h with ⟨metrics, hmetrics⟩
    simp only [World.credit, World.packetsSent, settledSocket_packetsSent,
      hmetrics, Option.map_some, Option.getD_some]
    omega
  rw [hsettled, booked_settled] at hcredit
  exact Nat.add_right_cancel hcredit

structure KeepsBooks (start world : World) : Prop where
  metrics : world.socket.metrics.isSome
  wire : start.os.wire <+: world.os.wire

theorem step_balance {start world next : World} {event : Event}
    (keeps : KeepsBooks start world) (h : step world event = some next) :
    KeepsBooks start next ∧
      next.credit + world.lost event + world.os.wire.length =
        world.credit + next.os.wire.length := by
  cases step_eq_some_iff.mp h with
  | start havailable =>
      refine ⟨⟨keeps.metrics, keeps.wire⟩, ?_⟩
      simp [World.credit, World.packetsSent, World.lost, Task.booked]
  | @issue t call htask =>
      rcases call.payload.issue_accepted world.socket world.os with
        ⟨accepted, hwire, hlength⟩
      constructor
      · refine ⟨keeps.metrics, keeps.wire.trans ?_⟩
        rw [World.put_os, hwire]
        exact List.prefix_append _ _
      · rw [credit_issue htask, World.put_os, hwire, List.length_append,
          hlength]
        simp only [World.lost, htask]
        omega
  | @settle t now call result htask =>
      constructor
      · refine ⟨?_, keeps.wire⟩
        rw [World.put_socket,
          ← @Option.isSome_map _ _ BingerMetrics.packetsSent,
          settledSocket_packetsSent, Option.isSome_map]
        exact keeps.metrics
      · rw [credit_settle keeps.metrics htask, World.put_os]
        rfl
  | @wake t outcome call htask =>
      have hcredit := World.credit_put htask
        (woken world.socket call outcome)
      refine ⟨⟨keeps.metrics, keeps.wire⟩, ?_⟩
      simpa [World.lost, Task.booked] using hcredit
  | @cancel t call htask =>
      have hcredit := World.credit_put htask none
      refine ⟨⟨keeps.metrics, keeps.wire⟩, ?_⟩
      simpa [World.lost, Task.booked] using hcredit

def CountsAccepted (start final : World) : Prop :=
  ∃ sent accepted, start.packetsSent = some sent ∧
    final.os.wire = start.os.wire ++ accepted ∧
    final.packetsSent = some (sent + accepted.length)

theorem countsAccepted_iff {start final : World} {sent sent' lost : Nat}
    (hstart : start.packetsSent = some sent)
    (hfinal : final.packetsSent = some sent')
    (hwire : start.os.wire <+: final.os.wire)
    (h : sent' + lost + start.os.wire.length =
      sent + final.os.wire.length) :
    CountsAccepted start final ↔ lost = 0 := by
  obtain ⟨accepted, hwire⟩ := hwire
  rw [← hwire, List.length_append] at h
  constructor
  · rintro ⟨sent₀, accepted', hstart', hwire', hfinal'⟩
    rw [← hwire, List.append_cancel_left_eq] at hwire'
    rw [hstart, Option.some.injEq] at hstart'
    rw [hfinal, Option.some.injEq, ← hwire'] at hfinal'
    omega
  · intro hnone
    refine ⟨sent, accepted, hstart, hwire.symm, ?_⟩
    rw [hfinal, Option.some.injEq]
    omega

theorem World.exists_packetsSent {world : World}
    (h : world.socket.metrics.isSome) :
    ∃ sent, world.packetsSent = some sent := by
  obtain ⟨metrics, hmetrics⟩ := Option.isSome_iff_exists.mp h
  exact ⟨metrics.packetsSent, by rw [packetsSent, hmetrics, Option.map_some]⟩

/-- Between two moments without a call in progress, `packets_sent` grows by the
number of accepted datagrams exactly when every attempt is counted. -/
theorem run_countsAccepted_iff {start final : World} {events : List Event}
    (hmetrics : start.socket.metrics.isSome) (hidle : start.tasks = [])
    (hrun : run step start events = some final) (hdone : final.tasks = []) :
    CountsAccepted start final ↔
      EveryStep step (fun world event _ => world.Counted event) start
        events := by
  have hstart : KeepsBooks start start := ⟨hmetrics, List.prefix_refl _⟩
  obtain ⟨keeps, hbalance⟩ := run_balance
    (fun world event next (keeps : KeepsBooks start world) hstep =>
      step_balance keeps hstep) hstart hrun
  obtain ⟨sent, hsent⟩ := World.exists_packetsSent hmetrics
  obtain ⟨sent', hsent'⟩ := World.exists_packetsSent keeps.metrics
  have hbooks : sent' + total step World.lost start events +
      start.os.wire.length = sent + final.os.wire.length := by
    simpa [World.credit, hidle, hdone, hsent, hsent'] using hbalance
  rw [countsAccepted_iff hsent hsent' keeps.wire hbooks, total_eq_zero_iff]
  apply EveryStep.congr
  intro world event next _
  exact world.lost_eq_zero_iff event

def zeroMetrics : BingerMetrics := ⟨0, 0, 0, 0, 0, 0, 0, 0, 0, 0⟩

def quietWorld (backend : Backend) (metrics : BingerMetrics)
    (script : List (Except Fault Unit)) (wire : List (Nat × List UInt8)) :
    World where
  socket := { BingerUdp.plainSocket backend with metrics := some metrics }
  os := { connectedOs script with
    wire := wire.map fun (entry, data) =>
      ⟨entry, data, some (.v4 .loopback 7)⟩ }
  tasks := []

def oneAttempt (call : SendCall) : List Event :=
  [.start call, .issue 0, .settle 0 0]

def countedMetrics : BingerMetrics :=
  { zeroMetrics with packetsSent := 1, batchesSent := 1, sendSyscalls := 1 }

theorem one_batch_is_counted :
    run step (quietWorld .fallback zeroMetrics [.ok ()] [])
        (oneAttempt (.trySendBatch (byteEntries [[1]]))) =
      some (quietWorld .fallback countedMetrics [] [(0, [1])]) ∧
    CountsAccepted (quietWorld .fallback zeroMetrics [.ok ()] [])
      (quietWorld .fallback countedMetrics [] [(0, [1])]) := by
  have hrun : run step (quietWorld .fallback zeroMetrics [.ok ()] [])
      (oneAttempt (.trySendBatch (byteEntries [[1]]))) =
    some (quietWorld .fallback countedMetrics [] [(0, [1])]) := rfl
  refine ⟨hrun, (run_countsAccepted_iff rfl rfl hrun rfl).mpr ?_⟩
  refine ⟨trivial, ?_, trivial, trivial⟩
  intro task htask
  obtain rfl := Option.some.inj htask
  intro _
  right
  simp [quietWorld, connectedOs, byteEntries, refusal, SendBatchRaw.ofEntries]

theorem not_countsAccepted {backend : Backend} {metrics : BingerMetrics}
    {script script' : List (Except Fault Unit)}
    {wire : List (Nat × List UInt8)}
    (h : metrics.packetsSent ≠ wire.length) :
    ¬ CountsAccepted (quietWorld backend zeroMetrics script [])
      (quietWorld backend metrics script' wire) := by
  rintro ⟨sent, accepted, hstart, hwire, hfinal⟩
  obtain rfl : 0 = sent := Option.some.inj hstart
  have hlength := congrArg List.length hwire
  have hsent : metrics.packetsSent = 0 + accepted.length :=
    Option.some.inj hfinal
  simp only [quietWorld, List.map_nil, List.nil_append,
    List.length_map] at hlength
  omega

/-- A segmented send of three datagrams, and a batch whose second packet fails
behind a first one that was sent. -/
theorem accepted_datagrams_are_not_counted :
    (run step (quietWorld .linux zeroMetrics [.ok ()] [])
        (oneAttempt (.trySendGso [1, 2, 3, 4, 5] 2)) =
        some (quietWorld .linux zeroMetrics []
          [(0, [1, 2]), (0, [3, 4]), (0, [5])]) ∧
      ¬ CountsAccepted (quietWorld .linux zeroMetrics [.ok ()] [])
        (quietWorld .linux zeroMetrics []
          [(0, [1, 2]), (0, [3, 4]), (0, [5])])) ∧
    run step
        (quietWorld .fallback zeroMetrics [.ok (), .error (.hard 90)] [])
        (oneAttempt (.trySendBatch (byteEntries [[1], [2]]))) =
        some (quietWorld .fallback { zeroMetrics with sendErrors := 1 } []
          [(0, [1])]) ∧
      ¬ CountsAccepted
        (quietWorld .fallback zeroMetrics [.ok (), .error (.hard 90)] [])
        (quietWorld .fallback { zeroMetrics with sendErrors := 1 } []
          [(0, [1])]) :=
  ⟨⟨rfl, not_countsAccepted (by decide)⟩, rfl,
    not_countsAccepted (by decide)⟩

end Binger.Socket.Tasks
