import Binger.Foundation.AtomicPairs
import Binger.Socket.Send
import Binger.Socket.Recv

/-!
# The metrics counters

The counters are atomic words that all threads of a socket share.  A call of
`try_send_batch` or `try_recv_batch` updates them by up to three separate
increments after the platform call has returned, and the increments of
different calls interleave.  Without `reset` no update is lost, and at every
instant the errors cover the `WouldBlock` events and the batches cover the
system calls.
-/

namespace Binger.Socket.Metrics

open Binger.Foundation Binger.Foundation.Atomics

inductive Direction where
  | send
  | recv
  deriving DecidableEq, Repr

inductive Counter where
  | packetsSent
  | packetsReceived
  | batchesSent
  | batchesReceived
  | sendSyscalls
  | recvSyscalls
  | sendErrors
  | recvErrors
  | sendWouldBlock
  | recvWouldBlock
  deriving DecidableEq, Repr

namespace Direction

def packets : Direction → Counter
  | send => .packetsSent
  | recv => .packetsReceived

def batches : Direction → Counter
  | send => .batchesSent
  | recv => .batchesReceived

def syscalls : Direction → Counter
  | send => .sendSyscalls
  | recv => .recvSyscalls

def errors : Direction → Counter
  | send => .sendErrors
  | recv => .recvErrors

def wouldBlock : Direction → Counter
  | send => .sendWouldBlock
  | recv => .recvWouldBlock

end Direction

def Counter.direction : Counter → Direction
  | packetsSent | batchesSent | sendSyscalls | sendErrors | sendWouldBlock =>
      .send
  | packetsReceived | batchesReceived | recvSyscalls | recvErrors
  | recvWouldBlock => .recv

/-! ## The programs -/

/-- The increments behind a platform call, in the order of the source. -/
def updates (direction : Direction) (result : IoResult Nat) :
    List (Instr Counter) :=
  match result with
  | .error error =>
      .add direction.errors 1 ::
        if error.kind = .wouldBlock then [.add direction.wouldBlock 1] else []
  | .ok count =>
      [.add direction.packets count, .add direction.batches 1,
        .add direction.syscalls 1]

/-- What a thread can do with the metrics.  A call is given by what its
platform call returned. -/
inductive Operation where
  | trySendBatch (result : IoResult Nat)
  | tryRecvBatch (result : IoResult Nat)
  | snapshot
  | reset
  deriving DecidableEq

/-- The loads of `snapshot`.  The last two are those of
`syscall_efficiency_ratio`. -/
def snapshotLoads : List Counter :=
  [.packetsSent, .packetsReceived, .batchesSent, .batchesReceived,
    .sendSyscalls, .recvSyscalls, .sendErrors, .recvErrors, .sendWouldBlock,
    .recvWouldBlock, .packetsSent, .sendSyscalls]

def resetStores : List Counter :=
  [.packetsSent, .packetsReceived, .batchesSent, .batchesReceived,
    .sendSyscalls, .recvSyscalls, .sendErrors, .recvErrors, .sendWouldBlock,
    .recvWouldBlock]

def program : Operation → List (Instr Counter)
  | .trySendBatch result => updates .send result
  | .tryRecvBatch result => updates .recv result
  | .snapshot => snapshotLoads.map .load
  | .reset => resetStores.map .clear

def wordSize : Nat := 2 ^ 64

section Machine

variable {ι : Type} [DecidableEq ι]

def step : Machine ι Operation Counter → Act ι Operation →
    Option (Machine ι Operation Counter) :=
  Atomics.step wordSize program

def fresh : Machine ι Operation Counter := Machine.idle fun _ => 0

end Machine

/-! ## The link to the socket -/

def cellsOf (metrics : BingerMetrics) : Counter → Nat
  | .packetsSent => metrics.packetsSent
  | .packetsReceived => metrics.packetsReceived
  | .batchesSent => metrics.batchesSent
  | .batchesReceived => metrics.batchesReceived
  | .sendSyscalls => metrics.sendSyscalls
  | .recvSyscalls => metrics.recvSyscalls
  | .sendErrors => metrics.sendErrors
  | .recvErrors => metrics.recvErrors
  | .sendWouldBlock => metrics.sendWouldBlock
  | .recvWouldBlock => metrics.recvWouldBlock

def counted (direction : Direction) (result : IoResult Nat)
    (metrics : BingerMetrics) : BingerMetrics :=
  match direction, result with
  | .send, .error error => BingerUdp.countSendError error metrics
  | .send, .ok sent => BingerUdp.countSent sent metrics
  | .recv, .error error => BingerUdp.countRecvError error metrics
  | .recv, .ok received => BingerUdp.countReceived received metrics

theorem addedBy_updates_counted (direction : Direction) (result : IoResult Nat)
    (metrics : BingerMetrics) (counter : Counter) :
    cellsOf metrics counter + addedBy counter (updates direction result) =
      cellsOf (counted direction result metrics) counter := by
  cases direction <;> cases result with
  | ok count =>
      cases counter <;>
        simp [updates, addedBy, counted, cellsOf, BingerUdp.countSent,
          BingerUdp.countReceived, Direction.packets, Direction.batches,
          Direction.syscalls]
  | error error =>
      by_cases hkind : error.kind = .wouldBlock <;>
        cases counter <;>
        simp [updates, addedBy, counted, cellsOf, BingerUdp.countSendError,
          BingerUdp.countRecvError, Direction.errors, Direction.wouldBlock,
          hkind]

theorem trySendBatch_counted {socket socket' : BingerUdp}
    {batch : SendBatchRaw} {os os' : Os} {result : IoResult Nat}
    (h : socket.trySendBatch batch os = (result, socket', os')) :
    socket'.metrics = socket.metrics.map (counted .send result) := by
  unfold BingerUdp.trySendBatch at h
  split at h <;> cases h <;> rfl

theorem tryRecvBatch_counted {bufSize : Nat}
    {platform : RecvBatchRaw bufSize → Os → Platform.RecvOutcome bufSize × Os}
    {socket socket' : BingerUdp} {batch batch' : RecvBatchRaw bufSize}
    {os os' : Os} {result : IoResult Nat}
    (h : socket.tryRecvBatch platform batch os =
      (.ok (result, socket', batch'), os')) :
    socket'.metrics = socket.metrics.map (counted .recv result) := by
  unfold BingerUdp.tryRecvBatch at h
  split at h <;> cases h <;> rfl

/-! ## What the calls of a run returned -/

def Operation.result? (direction : Direction) :
    Operation → Option (IoResult Nat)
  | .trySendBatch result => if direction = .send then some result else none
  | .tryRecvBatch result => if direction = .recv then some result else none
  | .snapshot | .reset => none

section Results

variable {ι : Type}

def results (direction : Direction) (actions : List (Act ι Operation)) :
    List (IoResult Nat) :=
  (started actions).filterMap (Operation.result? direction)

def okCounts (results : List (IoResult Nat)) : List Nat :=
  results.filterMap Except.toOption

def failures (results : List (IoResult Nat)) : List IoError :=
  results.filterMap fun result =>
    match result with
    | .ok _ => none
    | .error error => some error

def blocked (results : List (IoResult Nat)) : List IoError :=
  (failures results).filter fun error => error.kind = .wouldBlock

structure Tallied (direction : Direction) (results : List (IoResult Nat))
    (cells : Counter → Nat) : Prop where
  packets : cells direction.packets = (okCounts results).sum % wordSize
  batches : cells direction.batches = (okCounts results).length % wordSize
  syscalls : cells direction.syscalls = (okCounts results).length % wordSize
  errors : cells direction.errors = (failures results).length % wordSize
  wouldBlock :
    cells direction.wouldBlock = (blocked results).length % wordSize

theorem addedBy_updates_of_ne {direction : Direction} {counter : Counter}
    (h : counter.direction ≠ direction) (result : IoResult Nat) :
    addedBy counter (updates direction result) = 0 := by
  cases direction <;> cases counter <;> cases result <;>
    simp [Counter.direction] at h <;>
    simp [updates, addedBy, Direction.packets, Direction.batches,
      Direction.syscalls, Direction.errors] <;>
    split <;> simp [addedBy, Direction.wouldBlock]

theorem addedBy_program (counter : Counter) (op : Operation) :
    addedBy counter (program op) =
      ((op.result? counter.direction).map fun result =>
        addedBy counter (updates counter.direction result)).getD 0 := by
  cases op with
  | trySendBatch result =>
      by_cases h : counter.direction = .send
      · simp [program, Operation.result?, h]
      · simp [program, Operation.result?, h, addedBy_updates_of_ne h]
  | tryRecvBatch result =>
      by_cases h : counter.direction = .recv
      · simp [program, Operation.result?, h]
      · simp [program, Operation.result?, h, addedBy_updates_of_ne h]
  | snapshot => rfl
  | reset => rfl

theorem startedSum_eq (counter : Counter) (actions : List (Act ι Operation)) :
    startedSum program counter actions =
      ((results counter.direction actions).map fun result =>
        addedBy counter (updates counter.direction result)).sum := by
  rw [startedSum, results]
  induction started actions with
  | nil => rfl
  | cons op ops ih =>
      rw [List.map_cons, List.sum_cons, ih, addedBy_program,
        List.filterMap_cons]
      cases op.result? counter.direction <;> simp

theorem addedBy_updates_ok (direction : Direction) (count : Nat) :
    addedBy direction.packets (updates direction (.ok count)) = count ∧
    addedBy direction.batches (updates direction (.ok count)) = 1 ∧
    addedBy direction.syscalls (updates direction (.ok count)) = 1 ∧
    addedBy direction.errors (updates direction (.ok count)) = 0 ∧
    addedBy direction.wouldBlock (updates direction (.ok count)) = 0 := by
  cases direction <;> exact ⟨rfl, rfl, rfl, rfl, rfl⟩

theorem addedBy_updates_error (direction : Direction) (error : IoError) :
    addedBy direction.packets (updates direction (.error error)) = 0 ∧
    addedBy direction.batches (updates direction (.error error)) = 0 ∧
    addedBy direction.syscalls (updates direction (.error error)) = 0 ∧
    addedBy direction.errors (updates direction (.error error)) = 1 ∧
    addedBy direction.wouldBlock (updates direction (.error error)) =
      if error.kind = .wouldBlock then 1 else 0 := by
  by_cases hkind : error.kind = .wouldBlock <;> cases direction <;>
    simp [updates, addedBy, hkind, Direction.packets, Direction.batches,
      Direction.syscalls, Direction.errors, Direction.wouldBlock]

theorem sum_results {amount : IoResult Nat → Nat} {onOk : Nat → Nat}
    {onError : IoError → Nat} (hok : ∀ count, amount (.ok count) = onOk count)
    (herror : ∀ error, amount (.error error) = onError error)
    (results : List (IoResult Nat)) :
    (results.map amount).sum =
      ((okCounts results).map onOk).sum +
        ((failures results).map onError).sum := by
  induction results with
  | nil => rfl
  | cons result results ih =>
      rw [List.map_cons, List.sum_cons, ih]
      cases result with
      | ok count =>
          simp [okCounts, failures, Except.toOption, hok, Nat.add_assoc]
      | error error =>
          simp [okCounts, failures, Except.toOption, List.filterMap_cons,
            herror, Nat.add_left_comm]

theorem blocked_length (results : List (IoResult Nat)) :
    ((failures results).map fun error =>
      if error.kind = .wouldBlock then 1 else 0).sum =
        (blocked results).length := by
  rw [blocked]
  induction failures results with
  | nil => rfl
  | cons error errors ih =>
      by_cases hkind : error.kind = .wouldBlock <;>
        simp [hkind, ih, Nat.add_comm]

theorem startedSum_tallied (direction : Direction)
    {actions : List (Act ι Operation)} {cells : Counter → Nat}
    (h : ∀ counter, cells counter =
      startedSum program counter actions % wordSize) :
    Tallied direction (results direction actions) cells := by
  have hok := addedBy_updates_ok direction
  have herror := addedBy_updates_error direction
  have hsum : ∀ counter, counter.direction = direction → cells counter =
      ((results direction actions).map fun result =>
        addedBy counter (updates direction result)).sum % wordSize := by
    rintro counter rfl
    rw [h, startedSum_eq]
  constructor
  case packets =>
    rw [hsum _ (by cases direction <;> rfl),
      sum_results (fun count => (hok count).1) (fun error => (herror error).1)]
    simp
  case batches =>
    rw [hsum _ (by cases direction <;> rfl),
      sum_results (fun count => (hok count).2.1)
        (fun error => (herror error).2.1)]
    simp
  case syscalls =>
    rw [hsum _ (by cases direction <;> rfl),
      sum_results (fun count => (hok count).2.2.1)
        (fun error => (herror error).2.2.1)]
    simp
  case errors =>
    rw [hsum _ (by cases direction <;> rfl),
      sum_results (fun count => (hok count).2.2.2.1)
        (fun error => (herror error).2.2.2.1)]
    simp
  case wouldBlock =>
    rw [hsum _ (by cases direction <;> rfl),
      sum_results (fun count => (hok count).2.2.2.2)
        (fun error => (herror error).2.2.2.2), blocked_length]
    simp

end Results

/-! ## The pairs of counters -/

theorem clearless_updates (direction : Direction) (result : IoResult Nat)
    (counter : Counter) : .clear counter ∉ updates direction result := by
  cases result with
  | ok count => simp [updates]
  | error error =>
      by_cases hkind : error.kind = .wouldBlock <;> simp [updates, hkind]

theorem clearless_of_ne_reset {op : Operation} (h : op ≠ .reset)
    (counter : Counter) : .clear counter ∉ program op := by
  cases op with
  | trySendBatch result => exact clearless_updates .send result counter
  | tryRecvBatch result => exact clearless_updates .recv result counter
  | snapshot => simp [program]
  | reset => exact absurd rfl h

theorem pairProgram_of_clearless {a b : Counter} {todo : List (Instr Counter)}
    (hclear : ∀ counter, .clear counter ∉ todo) (howed : owed a b todo = 0) :
    PairProgram a b todo :=
  ⟨howed, clearsInOrder_of_clearless a b hclear, fun h => hclear b h.1⟩

inductive Pair (direction : Direction) : Counter → Counter → Prop where
  | errors : Pair direction direction.errors direction.wouldBlock
  | batches : Pair direction direction.batches direction.syscalls

theorem Pair.ne {direction : Direction} {a b : Counter}
    (h : Pair direction a b) : a ≠ b := by
  cases h <;> cases direction <;> decide

theorem Pair.owed_updates {direction : Direction} {a b : Counter}
    (h : Pair direction a b) (side : Direction) (result : IoResult Nat) :
    owed a b (updates side result) = 0 := by
  cases h <;> cases direction <;> cases side <;> cases result with
  | ok count =>
      simp [updates, owed, Direction.errors, Direction.wouldBlock,
        Direction.batches, Direction.syscalls, Direction.packets]
  | error error =>
      by_cases hkind : error.kind = .wouldBlock <;>
        simp [updates, owed, Direction.errors, Direction.wouldBlock,
          Direction.batches, Direction.syscalls, hkind]

theorem Pair.program_reset {direction : Direction} {a b : Counter}
    (h : Pair direction a b) : PairProgram a b (program .reset) := by
  cases h <;> cases direction <;>
    exact ⟨rfl, by simp [program, resetStores, ClearsInOrder,
      Direction.errors, Direction.wouldBlock, Direction.batches,
      Direction.syscalls], by simp [program, resetStores, Halfway,
      Direction.errors, Direction.wouldBlock, Direction.batches,
      Direction.syscalls]⟩

theorem Pair.pairProgram {direction : Direction} {a b : Counter}
    (h : Pair direction a b) (op : Operation) :
    PairProgram a b (program op) := by
  cases op with
  | trySendBatch result =>
      exact pairProgram_of_clearless (clearless_updates .send result)
        (h.owed_updates .send result)
  | tryRecvBatch result =>
      exact pairProgram_of_clearless (clearless_updates .recv result)
        (h.owed_updates .recv result)
  | snapshot =>
      exact pairProgram_of_clearless (clearless_of_ne_reset (by simp)) rfl
  | reset => exact h.program_reset

/-! ## Runs without `reset` -/

section Runs

variable {ι : Type} [Fintype ι] [DecidableEq ι]

def NoReset (act : Act ι Operation) : Prop := ∀ t, act ≠ .start t .reset

structure Live (machine : Machine ι Operation Counter) : Prop where
  clearless : ∀ t counter, .clear counter ∉ (machine.threads t).todo
  not_ahead : ∀ direction a b, Pair direction a b → NotAhead a b machine

omit [DecidableEq ι] in
theorem live_fresh : Live (fresh : Machine ι Operation Counter) :=
  ⟨fun _ _ => List.not_mem_nil, fun _ _ _ _ => notAhead_idle⟩

theorem Live.step {machine next : Machine ι Operation Counter}
    {act : Act ι Operation} (live : Live machine) (hreset : NoReset act)
    (hwrap : NoWrap wordSize machine act)
    (hstep : step machine act = some next) : Live next := by
  constructor
  case clearless =>
    apply todo_step (P := fun todo => ∀ counter, .clear counter ∉ todo) _ _
      hstep live.clearless
    · intro instr todo h counter hmem
      exact h counter (List.mem_cons_of_mem _ hmem)
    · intro t op hact
      apply clearless_of_ne_reset
      rintro rfl
      exact hreset t hact
  case not_ahead =>
    intro direction a b pair
    refine (live.not_ahead direction a b pair).step pair.ne ?_ hstep
    refine ⟨fun _ op _ => pair.pairProgram op, hwrap, ?_⟩
    intro t todo _ htodo
    have hclear := live.clearless t a
    rw [htodo] at hclear
    exact absurd List.mem_cons_self hclear

omit [DecidableEq ι] in
theorem Live.le {machine : Machine ι Operation Counter} (live : Live machine)
    {direction : Direction} {a b : Counter} (pair : Pair direction a b) :
    machine.cells b ≤ machine.cells a := by
  have hwhole : ¬ machine.AnyHalfway a b := by
    rintro ⟨t, h, -⟩
    exact live.clearless t b h
  have h := (live.not_ahead direction a b pair).add_owed_le hwhole
  omega

theorem live_run {actions : List (Act ι Operation)}
    {final : Machine ι Operation Counter}
    (hrun : run step fresh actions = some final)
    (hreset : ∀ act ∈ actions, NoReset act)
    (hwrap : EveryStep step (fun machine act _ => NoWrap wordSize machine act)
      fresh actions) : Live final := by
  refine EveryStep.preserves ?_ live_fresh
    (hwrap.and (EveryStep.of_mem hreset fresh)) hrun
  intro machine act next live hboth hstep
  exact live.step hboth.2 hboth.1 hstep

structure Ordered (cells : Counter → Nat) : Prop where
  sendWouldBlock_le : cells .sendWouldBlock ≤ cells .sendErrors
  sendSyscalls_le : cells .sendSyscalls ≤ cells .batchesSent
  recvWouldBlock_le : cells .recvWouldBlock ≤ cells .recvErrors
  recvSyscalls_le : cells .recvSyscalls ≤ cells .batchesReceived

/-- At every instant of a run without `reset` the counters are ordered, as long
as none has wrapped around, and whenever no call is in progress they add up
what the calls returned. -/
theorem metrics_lose_no_update {actions : List (Act ι Operation)}
    {final : Machine ι Operation Counter}
    (hrun : run step fresh actions = some final)
    (hreset : ∀ act ∈ actions, NoReset act) :
    (EveryStep step (fun machine act _ => NoWrap wordSize machine act) fresh
        actions → Ordered final.cells) ∧
    (final.Quiet →
      Tallied .send (results .send actions) final.cells ∧
      Tallied .recv (results .recv actions) final.cells) := by
  constructor
  · intro hwrap
    have live := live_run hrun hreset hwrap
    exact ⟨live.le (.errors : Pair .send _ _),
      live.le (.batches : Pair .send _ _), live.le (.errors : Pair .recv _ _),
      live.le (.batches : Pair .recv _ _)⟩
  · intro hquiet
    have hsums : ∀ counter, final.cells counter =
        startedSum program counter actions % wordSize := by
      intro counter
      refine (balanced_run (by decide) ?_ hrun).of_quiet hquiet
      intro act hact t op hstart
      apply clearless_of_ne_reset
      rintro rfl
      exact hreset act hact t hstart
    exact ⟨startedSum_tallied .send hsums, startedSum_tallied .recv hsums⟩

end Runs

def twoCalls : List (Act Bool Operation) :=
  [.start false (.trySendBatch (.ok 3)), .advance false,
    .start true (.tryRecvBatch (.error (.os .eagain))), .advance true,
    .advance false, .advance true, .advance false]

theorem twoCalls_tallied :
    ∃ final, run step fresh twoCalls = some final ∧ Ordered final.cells ∧
      Tallied .send [.ok 3] final.cells ∧
      Tallied .recv [.error (.os .eagain)] final.cells := by
  have hquiet : ∀ final, run step fresh twoCalls = some final →
      final.Quiet := by
    intro final h
    cases h
    exact Bool.forall_bool.mpr ⟨rfl, rfl⟩
  have hwrap : EveryStep step
      (fun machine act _ => NoWrap wordSize machine act) fresh twoCalls := by
    decide +kernel
  have h := @metrics_lose_no_update Bool _ _ twoCalls _ rfl
    (by simp [twoCalls, NoReset])
  exact ⟨_, rfl, h.1 hwrap, h.2 (hquiet _ rfl)⟩

end Binger.Socket.Metrics
