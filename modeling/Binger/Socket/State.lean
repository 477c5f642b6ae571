import Binger.Platform.SendAttempt

/-!
# The socket object

`BingerUdp` holds, next to the descriptor, the metrics counters and the two
adaptive controllers.  Each is optional, and a build without the `metrics`
feature behaves like a socket without metrics.  The mutexes are only held for
single updates, so they do not show up here.
-/

namespace Binger.Socket

open Binger.Platform Binger.Sockaddr

structure BingerMetrics where
  packetsSent : Nat
  packetsReceived : Nat
  batchesSent : Nat
  batchesReceived : Nat
  sendSyscalls : Nat
  recvSyscalls : Nat
  sendErrors : Nat
  recvErrors : Nat
  sendWouldBlock : Nat
  recvWouldBlock : Nat
  deriving DecidableEq, Repr

/-! ## Adaptive batching -/

/-- `u64 as f64`: round to 53 significant bits, ties to even. -/
def roundToF64 (n : Nat) : Nat :=
  if n < 2 ^ 53 then n
  else
    let shift := Nat.log2 n - 52
    let quotient := n / 2 ^ shift
    let rest := n % 2 ^ shift
    let half := 2 ^ (shift - 1)
    if half < rest ∨ (rest = half ∧ quotient % 2 = 1) then
      (quotient + 1) * 2 ^ shift
    else quotient * 2 ^ shift

/-- `wb_rate > 0.3`.  A rounded quotient exceeds the double `0.3` exactly when
the quotient reaches the midpoint above it. -/
def rateAbove (wouldBlockCount totalSendCount : Nat) : Bool :=
  10808639105689191 * roundToF64 totalSendCount ≤
    2 ^ 55 * roundToF64 wouldBlockCount

/-- `wb_rate < 0.1`.  A rounded quotient stays below the double `0.1` exactly
when the quotient is below the midpoint under it. -/
def rateBelow (wouldBlockCount totalSendCount : Nat) : Bool :=
  2 ^ 57 * roundToF64 wouldBlockCount <
    14411518807585587 * roundToF64 totalSendCount

/-- Instants are nanoseconds of a monotonic clock. -/
structure AdaptiveState where
  targetSize : Nat
  wouldBlockCount : Nat
  totalSendCount : Nat
  lastAdjustment : Nat
  deriving DecidableEq, Repr

namespace AdaptiveState

def minBatch : Nat := 1
def maxBatch : Nat := 1024

def adjustmentInterval : Nat := 100000000

def new (initial now : Nat) : AdaptiveState where
  targetSize := max minBatch (min initial maxBatch)
  wouldBlockCount := 0
  totalSendCount := 0
  lastAdjustment := now

def recordWouldBlock (state : AdaptiveState) : AdaptiveState :=
  { state with
    wouldBlockCount := state.wouldBlockCount + 1
    totalSendCount := state.totalSendCount + 1 }

def recordEvent (state : AdaptiveState) : AdaptiveState :=
  { state with totalSendCount := state.totalSendCount + 1 }

def maybeAdjust (now : Nat) (state : AdaptiveState) : AdaptiveState :=
  if now - state.lastAdjustment < adjustmentInterval then state
  else if state.totalSendCount = 0 then state
  else
    let targetSize :=
      if rateAbove state.wouldBlockCount state.totalSendCount then
        max (state.targetSize / 2) minBatch
      else if rateBelow state.wouldBlockCount state.totalSendCount &&
          state.targetSize < maxBatch then
        min (state.targetSize * 3 / 2) maxBatch
      else state.targetSize
    ⟨targetSize, 0, 0, now⟩

def recommendedSize (state : AdaptiveState) : Nat := state.targetSize

end AdaptiveState

/-! ## The socket -/

/-- `tokio` is the feature flag; without it the waits of the retry loops fail
at once. -/
structure BingerUdp where
  backend : Backend
  host : Host
  tokio : Bool
  metrics : Option BingerMetrics
  adaptiveSend : Option AdaptiveState
  adaptiveRecv : Option AdaptiveState

namespace BingerUdp

def plainSocket (backend : Backend) : BingerUdp where
  backend := backend
  host := ⟨.linux, .little⟩
  tokio := true
  metrics := none
  adaptiveSend := none
  adaptiveRecv := none

def recommendedBatchSize (socket : BingerUdp) : Nat :=
  (socket.adaptiveSend.map AdaptiveState.recommendedSize).getD 32

def countSendError (error : IoError) (metrics : BingerMetrics) :
    BingerMetrics :=
  let metrics := { metrics with sendErrors := metrics.sendErrors + 1 }
  if error.kind = .wouldBlock then
    { metrics with sendWouldBlock := metrics.sendWouldBlock + 1 }
  else metrics

def countSent (sent : Nat) (metrics : BingerMetrics) : BingerMetrics :=
  { metrics with
    packetsSent := metrics.packetsSent + sent
    batchesSent := metrics.batchesSent + 1
    sendSyscalls := metrics.sendSyscalls + 1 }

def countRecvError (error : IoError) (metrics : BingerMetrics) :
    BingerMetrics :=
  let metrics := { metrics with recvErrors := metrics.recvErrors + 1 }
  if error.kind = .wouldBlock then
    { metrics with recvWouldBlock := metrics.recvWouldBlock + 1 }
  else metrics

def countReceived (received : Nat) (metrics : BingerMetrics) :
    BingerMetrics :=
  { metrics with
    packetsReceived := metrics.packetsReceived + received
    batchesReceived := metrics.batchesReceived + 1
    recvSyscalls := metrics.recvSyscalls + 1 }

end BingerUdp

/-! ## Waiting for readiness -/

structure Wait where
  now : Nat
  outcome : IoResult Unit

inductive Poll (α : Type) where
  | pending
  | ready (value : α)

/-- The arm of the `match` in `send_batch` and `send_gso`: `none` waits for the
socket and tries again. -/
def sendArm (result : IoResult Nat) : Option (IoResult Nat) :=
  match result with
  | .ok n => some (.ok n)
  | .error error =>
      if error.kind = .wouldBlock then none else some (.error error)

/-- The arm of the `match` in `recv_batch`, which also waits on an empty
receive. -/
def recvArm (result : IoResult Nat) : Option (IoResult Nat) :=
  match result with
  | .ok 0 => none
  | .ok n => some (.ok n)
  | .error error =>
      if error.kind = .wouldBlock then none else some (.error error)

def tokioDisabled : IoError := .custom "tokio feature disabled"

end Binger.Socket
