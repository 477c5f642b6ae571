import Mathlib.Algebra.Order.BigOperators.Group.List
import Binger.Platform.ControlBytes
import Binger.Platform.LinuxRecv

/-!
# The control buffers of a receive

The output loop of `try_recv_batch` walks each control buffer with
`CMSG_FIRSTHDR` and `CMSG_NXTHDR` and reads the data of the messages it knows
through casts.  Here the walk runs over the bytes.  On buffers as the kernel
writes them the receive over bytes is the receive over lists of control
messages.

There is one exception.  The kernel stores the segment size of `UDP_GRO` as an
`int` and the code reads a `u16` from its first two bytes.  On a big-endian host
these are zero, and nothing is ever split.
-/

namespace Binger.Platform.Linux

open Binger.Foundation Binger.Sockaddr

variable {bufSize : Nat}

def ipprotoIp : Nat := 0
def ipprotoIpv6 : Nat := 41
def solSocket : Nat := 1

def udpGro : Nat := 104
def scmTimestampns : Nat := 35
def ipPktinfo : Nat := 8
def ipv6Pktinfo : Nat := 50

/-! ## Walking a buffer -/

section Walk

variable (order : ByteOrder) (buf : ControlBuf)

end Walk

/-! ## The receive over bytes -/

structure RawReceived where
  msgLen : Nat
  addr : SocketAddr
  control : ControlBuf

section Raw

-- the bytes that the kernel leaves in the control buffer of message `i`
variable (put : Nat → List Cmsg → ControlBuf)

end Raw

/-! ## What the kernel writes -/

def FitsI64 (value : Int) : Prop := -2 ^ 63 ≤ value ∧ value < 2 ^ 63

def storeI64 (order : ByteOrder) (value : Int) : List UInt8 :=
  order.store 8 (value % 2 ^ 64).toNat

def Known (message : ControlMessage) : Prop :=
  (message.level, message.type) ∈ [(ipprotoUdp, udpGro),
    (solSocket, scmTimestampns), (ipprotoIp, ipPktinfo),
    (ipprotoIpv6, ipv6Pktinfo)]

/-- A control message and its bytes, with a segment size of `width` bytes.  The
interface index and the local address of the packet information are not read. -/
def Encodes (order : ByteOrder) (width : Nat) (cmsg : Cmsg)
    (message : ControlMessage) : Prop :=
  match cmsg with
  | .udpGro segmentSize =>
      message = ⟨ipprotoUdp, udpGro, order.store width segmentSize.toNat⟩
  | .scmTimestampns ts =>
      FitsI64 ts.tvSec ∧ FitsI64 ts.tvNsec ∧
        message = ⟨solSocket, scmTimestampns,
          storeI64 order ts.tvSec ++ storeI64 order ts.tvNsec⟩
  | .ipPktinfo ipiAddr =>
      ∃ ifindex specDst : List UInt8, ifindex.length = 4 ∧
        specDst.length = 4 ∧
        message = ⟨ipprotoIp, ipPktinfo, ifindex ++ (specDst ++ ipiAddr.1)⟩
  | .ipv6Pktinfo ipi6Addr =>
      ∃ ifindex : List UInt8, ifindex.length = 4 ∧
        message = ⟨ipprotoIpv6, ipv6Pktinfo, ipi6Addr.1 ++ ifindex⟩
  | .other level type =>
      Storable message ∧ ¬ Known message ∧
        level = Int.bmod message.level (2 ^ 32) ∧
        type = Int.bmod message.type (2 ^ 32)

@[simp] theorem storeI64_length (order : ByteOrder) (value : Int) :
    (storeI64 order value).length = 8 := by
  simp [storeI64]

section Step
variable {order : ByteOrder} {width : Nat} {buf : ControlBuf} {pos : Nat}
  {message : ControlMessage} {rest : List UInt8} {cmsg : Cmsg}
   {groSegSize : UInt16}

theorem Encodes.storable (hencodes : Encodes order width cmsg message) :
    Storable message := by
  cases cmsg with
  | udpGro segmentSize =>
      obtain rfl := hencodes
      simp [Storable, ipprotoUdp, udpGro]
  | scmTimestampns ts =>
      obtain ⟨-, -, rfl⟩ := hencodes
      simp [Storable, solSocket, scmTimestampns]
  | ipPktinfo ipiAddr =>
      obtain ⟨_, _, -, -, rfl⟩ := hencodes
      simp [Storable, ipprotoIp, Linux.ipPktinfo]
  | ipv6Pktinfo ipi6Addr =>
      obtain ⟨_, -, rfl⟩ := hencodes
      simp [Storable, ipprotoIpv6, Linux.ipv6Pktinfo]
  | other level type => exact hencodes.1

end Step

section Walk

variable {order : ByteOrder} {width : Nat} {buf : ControlBuf}

def Carries (order : ByteOrder) (width : Nat) (raw : RawReceived)
    (message : Received) : Prop :=
  raw.msgLen = message.msgLen ∧ raw.addr = message.addr ∧
    ∃ messages,
      List.Forall₂ (Encodes order width) message.control messages ∧
      Holds order messages raw.control

end Walk

/-! ## The whole call -/

section Call

variable {width : Nat} (hwidth : width = 2 ∨ width = 4) (features : Features)
  (host : Host) (put : Nat → List Cmsg → ControlBuf)

end Call

/-! ## Room for what the library asks for -/

end Binger.Platform.Linux
