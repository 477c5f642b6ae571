import Binger.Platform.NotReady
import Binger.Socket.Adaptive
import Binger.Socket.Gso
import Binger.Socket.Recv

/-!
# What the adaptive controllers count

An attempt is counted in two layers: `try_send_batch` and `try_recv_batch`
record an event when the backend succeeds, and the loops of `send_batch` and
`recv_batch` record a blocked attempt when they go around.  A backend that
reports a socket which is not ready as `Ok(0)` is counted by the first layer
only when it sends, and by both when it receives.
-/

namespace Binger.Socket.AdaptiveCounting

open Binger.Foundation Binger.Platform

variable {bufSize : Nat}

/-! ## One turn of the loops -/

inductive Direction where
  | send
  | recv
  deriving DecidableEq, Repr

/-- One attempt of `send_batch` or `recv_batch`.  The time is that of
`maybe_adjust`, if the loop gets there. -/
inductive Turn where
  | send (batch : SendBatchRaw) (now : Nat)
  | recv (bufSize : Nat) (batch : RecvBatchRaw bufSize) (now : Nat)

def Turn.direction : Turn → Direction
  | .send _ _ => .send
  | .recv _ _ _ => .recv

def sendTurn (batch : SendBatchRaw) (now : Nat) (socket : BingerUdp)
    (os : Os) : BingerUdp × Os :=
  match socket.trySendBatch batch os with
  | (result, socket, os) =>
      match sendArm result with
      | some _ => (socket, os)
      | none => (socket.noteSendWouldBlock now, os)

/-- A panic unwinds out of the loop. -/
def recvTurn (features : Features) (batch : RecvBatchRaw bufSize) (now : Nat)
    (socket : BingerUdp) (os : Os) : BingerUdp × Os :=
  match socket.tryRecvBatch (Platform.tryRecvBatch socket.backend features
    socket.host) batch os with
  | (.error _, os) => (socket, os)
  | (.ok (result, socket, _), os) =>
      match recvArm result with
      | some _ => (socket, os)
      | none => (socket.noteRecvWouldBlock now, os)

def sendCounted (batch : SendBatchRaw) (socket : BingerUdp) (os : Os) :
    Option AdaptiveState :=
  match socket.trySendBatch batch os with
  | (result, socket, _) =>
      match sendArm result with
      | some _ => socket.adaptiveSend
      | none => socket.adaptiveSend.map AdaptiveState.recordWouldBlock

def recvCounted (features : Features) (batch : RecvBatchRaw bufSize)
    (socket : BingerUdp) (os : Os) : Option AdaptiveState :=
  match socket.tryRecvBatch (Platform.tryRecvBatch socket.backend features
    socket.host) batch os with
  | (.error _, _) => socket.adaptiveRecv
  | (.ok (result, socket, _), _) =>
      match recvArm result with
      | some _ => socket.adaptiveRecv
      | none => socket.adaptiveRecv.map AdaptiveState.recordWouldBlock

theorem noteSendWouldBlock_adaptive (now : Nat) (socket : BingerUdp) :
    (socket.noteSendWouldBlock now).adaptiveSend =
      (socket.adaptiveSend.map AdaptiveState.recordWouldBlock).map
        (AdaptiveState.maybeAdjust now) := by
  rw [Option.map_map]
  rfl

theorem noteRecvWouldBlock_adaptive (now : Nat) (socket : BingerUdp) :
    (socket.noteRecvWouldBlock now).adaptiveRecv =
      (socket.adaptiveRecv.map AdaptiveState.recordWouldBlock).map
        (AdaptiveState.maybeAdjust now) := by
  rw [Option.map_map]
  rfl

theorem sendTurn_controllers (batch : SendBatchRaw) (now : Nat)
    (socket : BingerUdp) (os : Os) :
    ((sendTurn batch now socket os).1.adaptiveSend =
        sendCounted batch socket os ∨
      (sendTurn batch now socket os).1.adaptiveSend =
        (sendCounted batch socket os).map (AdaptiveState.maybeAdjust now)) ∧
    (sendTurn batch now socket os).1.adaptiveRecv = socket.adaptiveRecv := by
  rw [sendTurn, sendCounted]
  have hrecv : (socket.trySendBatch batch os).2.1.adaptiveRecv =
      socket.adaptiveRecv := by
    unfold BingerUdp.trySendBatch
    split <;> rfl
  generalize socket.trySendBatch batch os = tried at hrecv
  obtain ⟨result, socket', os'⟩ := tried
  dsimp only
  split
  · exact ⟨.inl rfl, hrecv⟩
  · exact ⟨.inr (noteSendWouldBlock_adaptive now socket'), hrecv⟩

theorem recvTurn_controllers (features : Features)
    (batch : RecvBatchRaw bufSize) (now : Nat) (socket : BingerUdp) (os : Os) :
    ((recvTurn features batch now socket os).1.adaptiveRecv =
        recvCounted features batch socket os ∨
      (recvTurn features batch now socket os).1.adaptiveRecv =
        (recvCounted features batch socket os).map
          (AdaptiveState.maybeAdjust now)) ∧
    (recvTurn features batch now socket os).1.adaptiveSend =
      socket.adaptiveSend := by
  unfold recvTurn recvCounted BingerUdp.tryRecvBatch
  rcases Platform.tryRecvBatch socket.backend features socket.host batch os with
    ⟨panic | ⟨error | received, batch'⟩, os'⟩
  · exact ⟨.inl rfl, rfl⟩
  · dsimp only
    split
    · exact ⟨.inl rfl, rfl⟩
    · exact ⟨.inr (noteRecvWouldBlock_adaptive now _), rfl⟩
  · dsimp only
    split
    · exact ⟨.inl rfl, rfl⟩
    · exact ⟨.inr (noteRecvWouldBlock_adaptive now _), rfl⟩

/-! ## What a turn records -/

/-- What the two layers record for a result. -/
def recorded (arm : IoResult Nat → Option (IoResult Nat))
    (result : IoResult Nat) (state : AdaptiveState) : AdaptiveState :=
  let state :=
    match result with
    | .ok _ => state.recordEvent
    | .error _ => state
  match arm result with
  | some _ => state
  | none => state.recordWouldBlock

theorem sendCounted_eq (batch : SendBatchRaw) (socket : BingerUdp) (os : Os) :
    sendCounted batch socket os = socket.adaptiveSend.map
      (recorded sendArm (Platform.trySendBatch socket.backend socket.host
        batch os).1) := by
  unfold sendCounted BingerUdp.trySendBatch
  rcases Platform.trySendBatch socket.backend socket.host batch os with
    ⟨error | sent, os'⟩
  · dsimp only
    cases hstate : socket.adaptiveSend <;>
      cases harm : sendArm (.error error) <;> simp [recorded, harm]
  · cases hstate : socket.adaptiveSend <;> simp [recorded, sendArm]

theorem recvCounted_eq (features : Features) (batch : RecvBatchRaw bufSize)
    (socket : BingerUdp) (os : Os) :
    recvCounted features batch socket os =
      match report (Platform.tryRecvBatch socket.backend features socket.host
        batch os).1 with
      | some result => socket.adaptiveRecv.map (recorded recvArm result)
      | none => socket.adaptiveRecv := by
  unfold recvCounted BingerUdp.tryRecvBatch
  rcases Platform.tryRecvBatch socket.backend features socket.host batch os with
    ⟨panic | ⟨error | received, batch'⟩, os'⟩
  · rfl
  · dsimp only [report]
    cases hstate : socket.adaptiveRecv <;>
      cases harm : recvArm (.error error) <;> simp [recorded, harm]
  · dsimp only [report]
    cases hstate : socket.adaptiveRecv <;>
      cases harm : recvArm (.ok received) <;> simp [recorded, harm]

/-! ## Runs -/

structure Meter where
  socket : BingerUdp
  os : Os
  sends : socket.adaptiveSend.isSome
  recvs : socket.adaptiveRecv.isSome

theorem sendTurn_isSome {batch : SendBatchRaw} {now : Nat}
    {socket : BingerUdp} {os : Os} (h : socket.adaptiveSend.isSome) :
    (sendTurn batch now socket os).1.adaptiveSend.isSome := by
  rcases (sendTurn_controllers batch now socket os).1 with hturn | hturn <;>
    simpa [hturn, sendCounted_eq] using h

theorem recvTurn_isSome {features : Features} {batch : RecvBatchRaw bufSize}
    {now : Nat} {socket : BingerUdp} {os : Os}
    (h : socket.adaptiveRecv.isSome) :
    (recvTurn features batch now socket os).1.adaptiveRecv.isSome := by
  have hcounted : (recvCounted features batch socket os).isSome := by
    rw [recvCounted_eq]
    split <;> simpa using h
  rcases (recvTurn_controllers features batch now socket os).1 with
    hturn | hturn <;>
    simpa [hturn] using hcounted

namespace Meter

def send (meter : Meter) (batch : SendBatchRaw) (now : Nat) : Meter where
  socket := (sendTurn batch now meter.socket meter.os).1
  os := (sendTurn batch now meter.socket meter.os).2
  sends := sendTurn_isSome meter.sends
  recvs := by
    rw [(sendTurn_controllers batch now meter.socket meter.os).2]
    exact meter.recvs

def recv (features : Features) (meter : Meter)
    (batch : RecvBatchRaw bufSize) (now : Nat) : Meter where
  socket := (recvTurn features batch now meter.socket meter.os).1
  os := (recvTurn features batch now meter.socket meter.os).2
  sends := by
    rw [(recvTurn_controllers features batch now meter.socket meter.os).2]
    exact meter.sends
  recvs := recvTurn_isSome meter.recvs

def step (features : Features) (meter : Meter) : Turn → Option Meter
  | .send batch now => some (meter.send batch now)
  | .recv _ batch now => some (meter.recv features batch now)

def controller (meter : Meter) : Direction → Option AdaptiveState
  | .send => meter.socket.adaptiveSend
  | .recv => meter.socket.adaptiveRecv

def counted (features : Features) (meter : Meter) :
    Turn → Option AdaptiveState
  | .send batch _ => sendCounted batch meter.socket meter.os
  | .recv _ batch _ => recvCounted features batch meter.socket meter.os

def outcome (features : Features) (meter : Meter) :
    Turn → Option (IoResult Nat)
  | .send batch _ => some (Platform.trySendBatch meter.socket.backend
      meter.socket.host batch meter.os).1
  | .recv _ batch _ => report (Platform.tryRecvBatch meter.socket.backend
      features meter.socket.host batch meter.os).1

/-- The kernel reports that the socket is not ready before the attempt moved a
datagram. -/
def notReady (meter : Meter) : Turn → Bool
  | .send batch _ => sendNotReady (sendPath meter.socket.backend meter.os)
      batch.len meter.os.sendScript
  | .recv _ batch _ => recvNotReady meter.socket.backend batch meter.os

/-- The attempt ends with a count or with `WouldBlock`.  Every other error makes
the loop return without a record, `EINTR` too. -/
def ended (features : Features) (meter : Meter) (turn : Turn) : Bool :=
  match meter.outcome features turn with
  | some (.ok _) => true
  | some (.error error) => decide (error.kind = .wouldBlock)
  | none => false

end Meter

/-! ## The loops are runs of turns -/

def Leads (features : Features) (direction : Direction) (meter : Meter)
    (socket : BingerUdp) (os : Os) : Prop :=
  ∃ turns final, (∀ turn ∈ turns, turn.direction = direction) ∧
    run (Meter.step features) meter turns = some final ∧
    final.socket = socket ∧ final.os = os

theorem Leads.cons {features : Features} {meter next : Meter} {turn : Turn}
    {socket : BingerUdp} {os : Os}
    (hstep : meter.step features turn = some next)
    (h : Leads features turn.direction next socket os) :
    Leads features turn.direction meter socket os := by
  obtain ⟨turns, final, hturns, hrun, hfinal⟩ := h
  refine ⟨turn :: turns, final, ?_, ?_, hfinal⟩
  · exact List.forall_mem_cons.mpr ⟨rfl, hturns⟩
  · exact run_cons_eq_some.mpr ⟨next, hstep, hrun⟩

theorem Leads.one {features : Features} {meter next : Meter} {turn : Turn}
    (hstep : meter.step features turn = some next) :
    Leads features turn.direction meter next.socket next.os :=
  .cons hstep ⟨[], next, by simp, rfl, rfl, rfl⟩

theorem Meter.send_of_done {batch : SendBatchRaw} {meter : Meter}
    {tried done : IoResult Nat} {socket : BingerUdp} {os : Os}
    (hcall : meter.socket.trySendBatch batch meter.os = (tried, socket, os))
    (harm : sendArm tried = some done) (now : Nat) :
    (meter.send batch now).socket = socket ∧
      (meter.send batch now).os = os := by
  simp [Meter.send, sendTurn, hcall, harm]

theorem Meter.send_of_wait {batch : SendBatchRaw} {meter : Meter}
    {tried : IoResult Nat} {socket : BingerUdp} {os : Os}
    (hcall : meter.socket.trySendBatch batch meter.os = (tried, socket, os))
    (harm : sendArm tried = none) (now : Nat) :
    (meter.send batch now).socket = socket.noteSendWouldBlock now ∧
      (meter.send batch now).os = os := by
  simp [Meter.send, sendTurn, hcall, harm]

theorem sendBatch_leads (features : Features) {batch : SendBatchRaw}
    {waits : List Wait} {meter : Meter} {result : IoResult Nat}
    {socket : BingerUdp} {os : Os}
    (h : BingerUdp.sendBatch batch waits meter.socket meter.os =
      (.ready result, socket, os)) :
    Leads features .send meter socket os := by
  refine BingerUdp.sendBatch_rule (motive := fun _ socket₀ os₀ =>
    ∀ meter : Meter, meter.socket = socket₀ → meter.os = os₀ →
      Leads features .send meter socket os) ?_ ?_ ?_ h meter rfl rfl
  · rintro waits _ _ hcall harm meter rfl rfl
    have hturn := @Leads.one features meter _ (.send batch 0) rfl
    rcases Meter.send_of_done hcall harm 0 with ⟨hsocket, hos⟩
    rwa [hsocket, hos] at hturn
  · rintro wait waits _ _ tried socket₁ error hcall harm rfl - - meter rfl rfl
    have hturn := @Leads.one features meter _ (.send batch wait.now) rfl
    rcases Meter.send_of_wait hcall harm wait.now with ⟨hsocket, hos⟩
    rwa [hsocket, hos] at hturn
  · rintro wait waits _ _ tried socket₁ os₁ hcall harm - - hrest meter rfl rfl
    rcases Meter.send_of_wait hcall harm wait.now with ⟨hsocket, hos⟩
    exact @Leads.cons _ _ _ (.send batch wait.now) _ _ rfl
      (hrest _ hsocket hos)

theorem recvTurn_keeps (features : Features) (batch : RecvBatchRaw bufSize)
    (now : Nat) (socket : BingerUdp) (os : Os) :
    (recvTurn features batch now socket os).1.backend = socket.backend ∧
      (recvTurn features batch now socket os).1.host = socket.host := by
  unfold recvTurn BingerUdp.tryRecvBatch
  rcases Platform.tryRecvBatch socket.backend features socket.host batch os with
    ⟨panic | ⟨error | received, batch'⟩, os'⟩
  · exact ⟨rfl, rfl⟩
  · dsimp only
    split <;> exact ⟨rfl, rfl⟩
  · dsimp only
    split <;> exact ⟨rfl, rfl⟩

theorem leads_of_recvBatch_done {features : Features}
    {batch batch' : RecvBatchRaw bufSize} {meter : Meter}
    {tried done : IoResult Nat} {socket : BingerUdp} {os : Os}
    (hcall : meter.socket.tryRecvBatch (Platform.tryRecvBatch
        meter.socket.backend features meter.socket.host) batch meter.os =
      (.ok (tried, socket, batch'), os))
    (harm : recvArm tried = some done) :
    Leads features .recv meter socket os := by
  have hturn := @Leads.one features meter _ (.recv bufSize batch 0) rfl
  simp only [Meter.recv, recvTurn, hcall, harm] at hturn
  exact hturn

theorem recvBatch_leads (features : Features)
    {batch batch' : RecvBatchRaw bufSize} {waits : List Wait} {meter : Meter}
    {result : IoResult Nat} {socket : BingerUdp} {os : Os}
    (h : BingerUdp.recvBatch (Platform.tryRecvBatch meter.socket.backend
        features meter.socket.host) waits meter.socket batch meter.os =
      (.ok (.ready result, socket, batch'), os)) :
    Leads features .recv meter socket os := by
  induction waits generalizing meter batch with
  | nil =>
      rcases BingerUdp.recvBatch_attempt_cases h with
        ⟨tried, socket₁, batch₁, os₁, hcall, ⟨harm, -, rfl, -, rfl⟩ | harm⟩
      · exact leads_of_recvBatch_done hcall harm
      · simp [BingerUdp.recvBatch, hcall, harm] at h
  | cons wait waits ih =>
      rcases BingerUdp.recvBatch_attempt_cases h with
        ⟨tried, socket₁, batch₁, os₁, hcall, ⟨harm, -, rfl, -, rfl⟩ | harm⟩
      · exact leads_of_recvBatch_done hcall harm
      · have hsocket : (meter.recv features batch wait.now).socket =
            socket₁.noteRecvWouldBlock wait.now := by
          simp [Meter.recv, recvTurn, hcall, harm]
        have hos : (meter.recv features batch wait.now).os = os₁ := by
          simp [Meter.recv, recvTurn, hcall, harm]
        rcases BingerUdp.recvBatch_wait_cases hcall harm h with
          ⟨rfl, -, rfl, -⟩ | hnext
        · have hturn := @Leads.one features meter _
            (.recv bufSize batch wait.now) rfl
          rwa [hsocket, hos] at hturn
        · have hkeeps := recvTurn_keeps features batch wait.now meter.socket
            meter.os
          rw [hnext, ← hsocket, ← hos, ← hkeeps.1, ← hkeeps.2] at h
          exact @Leads.cons _ _ _ (.recv bufSize batch wait.now) _ _ rfl (ih h)

/-! ## Exact counting -/

def counts (state : AdaptiveState) : Nat × Nat :=
  (state.wouldBlockCount, state.totalSendCount)

/-- An attempt without a hard error adds one to the total, and one to the
blocked attempts if the kernel was not ready. -/
def Exact (features : Features) (meter : Meter) (turn : Turn) : Prop :=
  meter.ended features turn = true →
    (meter.counted features turn).map counts =
      (meter.controller turn.direction).map fun state =>
        counts state + ((meter.notReady turn).toNat, 1)

/-- A send does not find the socket not ready in a loop with one call for each
packet, and a receive does not return `Ok(0)`. -/
def CountedRight (features : Features) (meter : Meter) : Turn → Prop
  | .send batch _ =>
      (sendPath meter.socket.backend meter.os).isBatched = false →
        sendNotReady (sendPath meter.socket.backend meter.os) batch.len
          meter.os.sendScript = false
  | .recv _ batch _ =>
      ¬ RecvsNothing meter.socket.backend features batch meter.os

def Unadjusted (features : Features) (meter : Meter) (turn : Turn)
    (next : Meter) : Prop :=
  next.controller turn.direction = meter.counted features turn

theorem send_exact_iff (features : Features) (meter : Meter)
    (batch : SendBatchRaw) (now : Nat) :
    Exact features meter (.send batch now) ↔
      CountedRight features meter (.send batch now) := by
  obtain ⟨state, hstate⟩ := Option.isSome_iff_exists.mp meter.sends
  have hresult := (trySendBatch_performs meter.socket.backend
    meter.socket.host batch meter.os).result
  simp only [Exact, Meter.ended, Meter.outcome, Meter.counted,
    Meter.controller, Turn.direction, Meter.notReady, CountedRight,
    sendCounted_eq, hstate, hresult, Option.map_some, Option.some.injEq]
  generalize sendPath meter.socket.backend meter.os = path
  have hreports := attempt_reports path batch.len meter.os.sendScript
  have hidle := fun hpath => @attempt_not_ready path hpath batch.len
    meter.os.sendScript
  generalize sendNotReady path batch.len meter.os.sendScript = notReady
    at hreports hidle ⊢
  cases hdone : (attempt path batch.len meter.os.sendScript).result with
  | ok sent =>
      rw [hdone] at hreports
      cases hpath : path.isBatched <;> cases notReady <;>
        simp [hpath, reportsWouldBlock] at hreports <;>
        simp [recorded, sendArm, counts, AdaptiveState.recordEvent]
  | error error =>
      rw [hdone] at hreports hidle
      by_cases hkind : error.kind = .wouldBlock
      · -- only the batched calls report this, and they are counted once
        have hboth : path.isBatched = true ∧ notReady = true := by
          rw [← Bool.and_eq_true, ← hreports]
          simpa [reportsWouldBlock] using hkind
        simp [hboth, hkind, recorded, sendArm, counts,
          AdaptiveState.recordWouldBlock]
      · simp only [hkind, decide_false, Bool.false_eq_true, false_implies,
          true_iff]
        intro hpath
        by_contra hready
        have hok := hidle hpath (by simpa using hready)
        cases hok

theorem recv_exact_iff (features : Features) (meter : Meter)
    (batch : RecvBatchRaw bufSize) (now : Nat) :
    Exact features meter (.recv bufSize batch now) ↔
      CountedRight features meter (.recv bufSize batch now) := by
  obtain ⟨state, hstate⟩ := Option.isSome_iff_exists.mp meter.recvs
  have hzero := report_zero_iff meter.socket.backend features
    meter.socket.host batch meter.os
  have hidle := @report_of_notReady _ features meter.socket.host
    meter.socket.backend batch meter.os
  have hblocked := @notReady_of_report _ features meter.socket.host
    meter.socket.backend batch meter.os
  simp only [Exact, Meter.ended, Meter.outcome, Meter.counted,
    Meter.controller, Turn.direction, Meter.notReady, CountedRight,
    recvCounted_eq, hstate, ← hzero]
  generalize report (Platform.tryRecvBatch meter.socket.backend features
    meter.socket.host batch meter.os).1 = outcome at hidle hblocked ⊢
  rcases outcome with - | (error | (- | received))
  · simp
  · by_cases hkind : error.kind = .wouldBlock
    · simp [hblocked rfl hkind, hkind, recorded, recvArm, counts,
        AdaptiveState.recordWouldBlock]
    · simp [hkind]
  · -- both layers count this one
    simp [recorded, recvArm, counts, AdaptiveState.recordEvent,
      AdaptiveState.recordWouldBlock]
  · have hready : recvNotReady meter.socket.backend batch meter.os =
        false := by
      by_contra hready
      have hreport := hidle (by simpa using hready)
      split at hreport <;> simp at hreport
    simp [hready, recorded, recvArm, counts, AdaptiveState.recordEvent]

theorem exact_iff (features : Features) (meter : Meter) (turn : Turn) :
    Exact features meter turn ↔ CountedRight features meter turn := by
  cases turn with
  | send batch now => exact send_exact_iff features meter batch now
  | recv bufSize batch now => exact recv_exact_iff features meter batch now

/-! ## Between two adjustments -/

def Meter.attempts (features : Features) (direction : Direction)
    (meter : Meter) (turn : Turn) : Nat :=
  if turn.direction = direction ∧ meter.ended features turn = true then 1
  else 0

def Meter.blocked (features : Features) (direction : Direction)
    (meter : Meter) (turn : Turn) : Nat :=
  if turn.direction = direction ∧ meter.ended features turn = true then
    (meter.notReady turn).toNat
  else 0

theorem counted_of_not_ended {features : Features} {meter : Meter}
    {turn : Turn} (h : meter.ended features turn = false) :
    meter.counted features turn = meter.controller turn.direction := by
  have hsend : ∀ error : IoError, error.kind ≠ .wouldBlock →
      recorded sendArm (.error error) = id := by
    intro error hkind
    funext state
    simp [recorded, sendArm, hkind]
  have hrecv : ∀ error : IoError, error.kind ≠ .wouldBlock →
      recorded recvArm (.error error) = id := by
    intro error hkind
    funext state
    simp [recorded, recvArm, hkind]
  cases turn with
  | send batch now =>
      rw [Meter.ended, Meter.outcome] at h
      rw [Meter.counted, sendCounted_eq]
      generalize (Platform.trySendBatch meter.socket.backend meter.socket.host
        batch meter.os).1 = result at h ⊢
      cases result with
      | ok sent => cases h
      | error error =>
          rw [hsend error (of_decide_eq_false h), Option.map_id]
          rfl
  | recv bufSize batch now =>
      rw [Meter.ended, Meter.outcome] at h
      rw [Meter.counted, recvCounted_eq]
      generalize report (Platform.tryRecvBatch meter.socket.backend features
        meter.socket.host batch meter.os).1 = outcome at h ⊢
      rcases outcome with - | (error | received)
      · rfl
      · dsimp only
        rw [hrecv error (of_decide_eq_false h), Option.map_id]
        rfl
      · cases h

theorem controller_of_other {features : Features} {meter next : Meter}
    {turn : Turn} (h : meter.step features turn = some next)
    {direction : Direction} (hne : turn.direction ≠ direction) :
    next.controller direction = meter.controller direction := by
  cases turn with
  | send batch now =>
      obtain rfl := Option.some.inj h
      cases direction with
      | send => exact absurd rfl hne
      | recv =>
          exact (sendTurn_controllers batch now meter.socket meter.os).2
  | recv bufSize batch now =>
      obtain rfl := Option.some.inj h
      cases direction with
      | recv => exact absurd rfl hne
      | send =>
          exact (recvTurn_controllers features batch now meter.socket
            meter.os).2

theorem counts_step {features : Features} {meter next : Meter} {turn : Turn}
    (hstep : meter.step features turn = some next)
    (hright : CountedRight features meter turn)
    (hkept : Unadjusted features meter turn next) (direction : Direction) :
    (next.controller direction).map counts =
      (meter.controller direction).map fun state => counts state +
        (meter.blocked features direction turn,
          meter.attempts features direction turn) := by
  rw [Meter.blocked, Meter.attempts]
  by_cases hsame : turn.direction = direction
  · obtain rfl := hsame
    rw [hkept]
    cases hended : meter.ended features turn with
    | true =>
        rw [(exact_iff features meter turn).mpr hright hended]
        simp
    | false =>
        rw [counted_of_not_ended hended]
        simp only [Bool.false_eq_true, and_false, if_false]
        rfl
  · rw [controller_of_other hstep hsame]
    simp only [hsame, false_and, if_false]
    rfl

theorem counts_run {features : Features} {meter final : Meter}
    {turns : List Turn}
    (hrun : run (Meter.step features) meter turns = some final)
    (hright : EveryStep (Meter.step features) (fun meter turn next =>
      CountedRight features meter turn ∧ Unadjusted features meter turn next)
      meter turns) (direction : Direction) :
    (final.controller direction).map counts =
      (meter.controller direction).map fun state => counts state +
        (total (Meter.step features) (Meter.blocked features direction) meter
            turns,
          total (Meter.step features) (Meter.attempts features direction)
            meter turns) := by
  induction turns generalizing meter with
  | nil =>
      obtain rfl : meter = final := by simpa [run] using hrun
      rfl
  | cons turn turns ih =>
      obtain ⟨next, hstep, hrest⟩ := run_cons_eq_some.mp hrun
      rw [EveryStep, hstep] at hright
      have hfirst := counts_step hstep hright.1.1 hright.1.2 direction
      have hsplit : ∀ more, (fun state => counts state + more) =
          (fun before => before + more) ∘ counts := fun _ => rfl
      rw [ih hrest hright.2, total, total, hstep, hsplit, ← Option.map_map,
        hfirst, Option.map_map]
      congr 1
      funext state
      simp [Prod.ext_iff, Nat.add_assoc]

/-- Every attempt of a run is counted exactly when it is counted right by both
layers together.  Then the counters are, between two adjustments, the number of
attempts and of those that found the socket not ready. -/
theorem adaptive_counts_exact_iff (features : Features) (meter : Meter)
    (turns : List Turn) :
    (EveryStep (Meter.step features) (fun meter turn _ =>
        Exact features meter turn) meter turns ↔
      EveryStep (Meter.step features) (fun meter turn _ =>
        CountedRight features meter turn) meter turns) ∧
    ∀ final, run (Meter.step features) meter turns = some final →
      EveryStep (Meter.step features) (fun meter turn next =>
        CountedRight features meter turn ∧
          Unadjusted features meter turn next) meter turns →
      ∀ direction, (final.controller direction).map counts =
        (meter.controller direction).map fun state => counts state +
          (total (Meter.step features) (Meter.blocked features direction)
              meter turns,
            total (Meter.step features) (Meter.attempts features direction)
              meter turns) := by
  refine ⟨?_, fun _ hrun hright => counts_run hrun hright⟩
  apply EveryStep.congr
  intro meter turn next _
  exact exact_iff features meter turn

def freshMeter (backend : Backend) (script : List (Except Fault Unit))
    (answers : List (Except Fault Datagram)) : Meter where
  socket := { BingerUdp.plainSocket backend with
    adaptiveSend := some (.new 32 0)
    adaptiveRecv := some (.new 32 0) }
  os := { connectedOs script with recvScript := answers }
  sends := rfl
  recvs := rfl

def readyMeter : Meter :=
  freshMeter .fallback [.ok ()] [.ok ⟨[7], .v4 .loopback 7, []⟩]

def oneTurnEach : List Turn :=
  [.send (byteEntries [[1]]) 5, .recv 4 (.withCapacity 1 4) 9]

theorem oneTurnEach_counted :
    ∃ final, run (Meter.step noFeatures) readyMeter oneTurnEach =
        some final ∧
      (final.controller .send).map counts = some (0, 1) ∧
      (final.controller .recv).map counts = some (0, 1) := by
  have hright : EveryStep (Meter.step noFeatures) (fun meter turn next =>
      CountedRight noFeatures meter turn ∧
        Unadjusted noFeatures meter turn next) readyMeter oneTurnEach := by
    refine ⟨⟨fun _ => rfl, rfl⟩, ⟨?_, rfl⟩, trivial⟩
    rintro (hcap | hfirst)
    · cases hcap
    · cases hfirst
  have hcounts := (adaptive_counts_exact_iff noFeatures readyMeter
    oneTurnEach).2 _ rfl hright
  exact ⟨_, rfl, hcounts .send, hcounts .recv⟩

/-- On a loop with one call for each packet, a receive that finds nothing is
counted twice, and a send that finds no room is not counted as blocked. -/
theorem not_ready_miscounted :
    ((freshMeter .fallback [] []).counted noFeatures
        (.recv 4 (.withCapacity 1 4) 5)).map counts = some (1, 2) ∧
      ¬ EveryStep (Meter.step noFeatures) (fun meter turn _ =>
        Exact noFeatures meter turn) (freshMeter .fallback [] [])
        [.recv 4 (.withCapacity 1 4) 5] ∧
      ((freshMeter .fallback [] []).counted noFeatures
        (.send (byteEntries [[1]]) 5)).map counts = some (0, 1) ∧
      ¬ EveryStep (Meter.step noFeatures) (fun meter turn _ =>
        Exact noFeatures meter turn) (freshMeter .fallback [] [])
        [.send (byteEntries [[1]]) 5] := by
  refine ⟨rfl, ?_, rfl, ?_⟩
  · rintro ⟨hexact, -⟩
    exact absurd (hexact rfl) (by decide)
  · rintro ⟨hexact, -⟩
    exact absurd (hexact rfl) (by decide)

end Binger.Socket.AdaptiveCounting
