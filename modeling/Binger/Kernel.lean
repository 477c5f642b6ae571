import Binger.Batch.Send
import Binger.Batch.Recv
import Binger.Foundation.Script
import Binger.Foundation.Segments

/-!
# The operating system seen from the socket

The kernel answers system calls from two scripts, one entry for each datagram
it is asked to take or to deliver.  `sendmmsg` and its relatives process their
messages in order and stop at the first one that fails; the failure is reported
only when nothing came before it.  A script that ran out means a socket that is
not ready.

`ENOSYS` is the answer for a missing system call and never for a datagram, so
it is not a `Fault`.
-/

namespace Binger

open Binger.Foundation

inductive Fault where
  | wouldBlock
  | interrupted
  | hard (code : Nat)
  deriving DecidableEq, Repr

def Fault.errno : Fault → Errno
  | .wouldBlock => .eagain
  | .interrupted => .eintr
  | .hard code => .other code

def Fault.error (fault : Fault) : IoError := .os fault.errno

@[simp] theorem Fault.error_kind_wouldBlock (fault : Fault) :
    fault.error.kind = .wouldBlock ↔ fault = .wouldBlock := by
  cases fault <;> simp [error, errno, IoError.kind]

@[simp] theorem Fault.error_kind_interrupted (fault : Fault) :
    fault.error.kind = .interrupted ↔ fault = .interrupted := by
  cases fault <;> simp [error, errno, IoError.kind]

@[simp] theorem Fault.error_rawOsError (fault : Fault) :
    fault.error.rawOsError ≠ some .enosys := by
  cases fault <;> simp [error, errno, IoError.rawOsError]

theorem Fault.error_injective : Function.Injective Fault.error := by
  intro first second h
  cases first <;> cases second <;> simp_all [error, errno]

/-- A datagram accepted for transmission: the batch entry it was built from,
its bytes, and where it goes (`none` on an unconnected socket without a
destination). -/
structure Sent where
  entry : Nat
  data : List UInt8
  dest : Option SocketAddr
  deriving DecidableEq

def Sent.item (message : Sent) : Nat × List UInt8 :=
  (message.entry, message.data)

/-- The control messages that the receive reads.  `udpGro` has the two bytes
that it reads of the segment size; `tryRecvBatchRaw_eq` says what they are on
each host. -/
inductive Cmsg where
  | udpGro (segmentSize : UInt16)
  | scmTimestampns (ts : Timestamp)
  | ipPktinfo (ipiAddr : Ipv4Addr)
  | ipv6Pktinfo (ipi6Addr : Ipv6Addr)
  | other (level type : Int)
  deriving DecidableEq

structure Datagram where
  payload : List UInt8
  source : SocketAddr
  control : List Cmsg
  deriving DecidableEq

structure Os where
  peer : Option SocketAddr
  hasSendmmsg : Bool
  hasRecvmmsg : Bool
  hasSendmsgX : Bool
  hasRecvmsgX : Bool
  sendScript : List (Except Fault Unit)
  recvScript : List (Except Fault Datagram)
  wire : List Sent

namespace Os

def isConnected (os : Os) : Bool := os.peer.isSome

/-! ## Sending -/

def offer (os : Os) (message : Sent) : Except Fault Unit × Os :=
  match ask .wouldBlock os.sendScript with
  | (.ok (), script) =>
      (.ok (), { os with sendScript := script, wire := os.wire ++ [message] })
  | (.error fault, script) => (.error fault, { os with sendScript := script })

/-- Messages offered in order until one is refused: the number accepted and the
fault that stopped the series. -/
def offerAll (os : Os) : List Sent → (Nat × Option Fault) × Os
  | [] => ((0, none), os)
  | message :: messages =>
      match os.offer message with
      | (.ok (), os) =>
          let ((accepted, fault), os) := os.offerAll messages
          ((accepted + 1, fault), os)
      | (.error fault, os) => ((0, some fault), os)

def afterOffering (os : Os) (messages : List Sent) : Os :=
  { os with
    sendScript := remaining messages.length os.sendScript
    wire := os.wire ++
      messages.take (granted messages.length os.sendScript).length }

theorem offerAll_eq (os : Os) (messages : List Sent) :
    os.offerAll messages =
      (((granted messages.length os.sendScript).length,
        refusal .wouldBlock messages.length os.sendScript),
        os.afterOffering messages) := by
  induction messages generalizing os with
  | nil => simp [offerAll, afterOffering]
  | cons message messages ih =>
      cases hscript : os.sendScript with
      | nil => simp [offerAll, offer, hscript, ask, afterOffering, granted,
          refusal, remaining]
      | cons answer script =>
          cases answer with
          | error fault =>
              simp [offerAll, offer, hscript, ask, afterOffering, granted,
                refusal, remaining]
          | ok value =>
              simp [offerAll, offer, hscript, ask, ih, afterOffering, granted,
                refusal, remaining]

def sendMany (os : Os) (messages : List Sent) : Except Fault Nat × Os :=
  match os.offerAll messages with
  | ((0, some fault), os) => (.error fault, os)
  | ((accepted, _), os) => (.ok accepted, os)

def sendManyResult (n : Nat) (script : List (Except Fault Unit)) :
    Except Fault Nat :=
  match refusal .wouldBlock n script, (granted n script).length with
  | some fault, 0 => .error fault
  | _, accepted => .ok accepted

theorem sendMany_eq (os : Os) (messages : List Sent) :
    os.sendMany messages =
      (sendManyResult messages.length os.sendScript,
        os.afterOffering messages) := by
  simp only [sendMany, offerAll_eq, sendManyResult]
  cases refusal .wouldBlock messages.length os.sendScript <;>
    cases (granted messages.length os.sendScript).length <;> rfl

theorem sendManyResult_error_iff {n : Nat} {script : List (Except Fault Unit)}
    {fault : Fault} :
    sendManyResult n script = .error fault ↔
      refusal .wouldBlock n script = some fault ∧ granted n script = [] := by
  unfold sendManyResult
  split
  · next fault' hrefusal hlength =>
      simp [hrefusal, List.eq_nil_of_length_eq_zero hlength]
  · next h =>
      simp only [reduceCtorEq, false_iff, not_and]
      intro hrefusal hgranted
      exact h fault hrefusal (by simp [hgranted])

theorem sendMany_interrupted {os os' : Os} {messages : List Sent}
    (h : os.sendMany messages = (.error .interrupted, os')) :
    os'.sendScript.length < os.sendScript.length := by
  rw [sendMany_eq, Prod.mk.injEq, sendManyResult_error_iff] at h
  obtain ⟨⟨hrefusal, hgranted⟩, rfl⟩ := h
  obtain ⟨hask, hrest⟩ := refusal_of_granted_nil hrefusal hgranted
  rw [afterOffering, hrest]
  cases hscript : os.sendScript with
  | nil => simp [hscript, ask] at hask
  | cons answer script => simp [ask]

def gsoDatagrams (segmentSize : Nat) (data : List UInt8) : List (List UInt8) :=
  if segmentSize = 0 ∨ data.length ≤ segmentSize then [data]
  else segments segmentSize data

def offerSegmented (os : Os) (segmentSize : Nat) (data : List UInt8) :
    Except Fault Unit × Os :=
  match ask .wouldBlock os.sendScript with
  | (.ok (), script) =>
      (.ok (), { os with
        sendScript := script
        wire := os.wire ++ (gsoDatagrams segmentSize data).map fun segment =>
          ⟨0, segment, os.peer⟩ })
  | (.error fault, script) => (.error fault, { os with sendScript := script })

/-! ## Receiving -/

def receive (os : Os) : Except Fault Datagram × Os :=
  match ask .wouldBlock os.recvScript with
  | (answer, script) => (answer, { os with recvScript := script })

def receiveMany (os : Os) : Nat → (List Datagram × Option Fault) × Os
  | 0 => (([], none), os)
  | n + 1 =>
      match os.receive with
      | (.ok datagram, os) =>
          let ((datagrams, fault), os) := os.receiveMany n
          ((datagram :: datagrams, fault), os)
      | (.error fault, os) => (([], some fault), os)

theorem receiveMany_eq (os : Os) (n : Nat) :
    os.receiveMany n =
      ((granted n os.recvScript, refusal .wouldBlock n os.recvScript),
        { os with recvScript := remaining n os.recvScript }) := by
  induction n generalizing os with
  | zero => simp [receiveMany]
  | succ n ih =>
      cases hscript : os.recvScript with
      | nil => simp [receiveMany, receive, hscript, ask, granted, refusal,
          remaining]
      | cons answer script =>
          cases answer <;>
            simp [receiveMany, receive, hscript, ask, ih, granted, refusal,
              remaining]

end Os

end Binger
