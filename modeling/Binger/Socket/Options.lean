import Binger.Socket.Accounting

/-!
# Construction, options and release of a socket

The process reaches its files through a table of descriptors.  `from_std` sets a
standard socket up and takes it over, the option calls pass their value on to
`setsockopt`, and the release of a socket closes its descriptor.  A call that
names a descriptor which is not open fails with `EBADF` and is written down, so
that a descriptor that is closed twice or used after its release would show.

A file keeps the values that the kernel accepted, the latest first.  What the
kernel makes of a value (it may double a buffer size) is not modelled.
-/

namespace Binger.Socket

open Binger.Platform Binger.Sockaddr

/-! ## Configuration -/

structure Config where
  batchSize : Nat
  sendBufSize : Option Nat
  recvOsBufSize : Option Nat
  adaptiveBatching : Bool
  metricsEnabled : Bool
  deriving DecidableEq, Repr

namespace Config

def new : Config where
  batchSize := 32
  sendBufSize := none
  recvOsBufSize := none
  adaptiveBatching := false
  metricsEnabled := false

def withBatchSize (config : Config) (n : Nat) : Config :=
  { config with batchSize := n }

def withSendBufSize (config : Config) (n : Nat) : Config :=
  { config with sendBufSize := some n }

def withRecvOsBufSize (config : Config) (n : Nat) : Config :=
  { config with recvOsBufSize := some n }

def withAdaptiveBatching (config : Config) (enabled : Bool) : Config :=
  { config with adaptiveBatching := enabled }

def withMetrics (config : Config) (enabled : Bool) : Config :=
  { config with metricsEnabled := enabled }

end Config

/-! ## Files and descriptors -/

inductive SocketOption where
  | soSndbuf
  | soRcvbuf
  | ipTtl
  | udpSegment
  | udpGro
  | soMaxPacingRate
  | soBusyPoll
  | soTimestampns
  | ipPktinfo
  | ipv6Recvpktinfo
  deriving DecidableEq, Repr

structure File where
  nonblocking : Bool
  settings : List (SocketOption × Int)
  localAddr : SocketAddr
  peer : Option SocketAddr
  deriving DecidableEq

namespace File

def bound (addr : SocketAddr) : File := ⟨false, [], addr, none⟩

def setting (file : File) (option : SocketOption) : Option Int :=
  file.settings.lookup option

def setNonblocking (answer : Except Fault Unit) (file : File) :
    IoResult Unit × File :=
  match answer with
  | .ok () => (.ok (), { file with nonblocking := true })
  | .error fault => (.error fault.error, file)

def setsockopt (option : SocketOption) (value : Int)
    (answer : Except Fault Unit) (file : File) : IoResult Unit × File :=
  match answer with
  | .ok () =>
      (.ok (), { file with settings := (option, value) :: file.settings })
  | .error fault => (.error fault.error, file)

/-- `report` is what the kernel says of an option whose last accepted value is
given. -/
def getsockopt (report : SocketOption → Option Int → Int)
    (option : SocketOption) (answer : Except Fault Unit) (file : File) :
    IoResult Int × File :=
  match answer with
  | .ok () => (.ok (report option (file.setting option)), file)
  | .error fault => (.error fault.error, file)

def connect (host : Host) (storage : Storage × Nat)
    (answer : Except Fault Unit) (file : File) : IoResult Unit × File :=
  match answer with
  | .ok () =>
      (.ok (), { file with
        peer := some (decodeSockaddr host storage.1 storage.2) })
  | .error fault => (.error fault.error, file)

def getsockname (host : Host) (storage : Storage)
    (answer : Except Fault Unit) (file : File) :
    IoResult (Storage × Nat) × File :=
  match answer with
  | .ok () => (.ok (encodeSockaddr host file.localAddr storage), file)
  | .error fault => (.error fault.error, file)

end File

abbrev Fd := Nat

def ebadf : Nat := 9

/-- `misused` are the descriptors that were named while they were not open. -/
structure Descriptors where
  files : Fd → Option File
  misused : List Fd

namespace Descriptors

def onFile {α : Type} (fd : Fd) (call : File → IoResult α × File)
    (descriptors : Descriptors) : IoResult α × Descriptors :=
  match descriptors.files fd with
  | some file =>
      ((call file).1, { descriptors with
        files := Function.update descriptors.files fd (some (call file).2) })
  | none =>
      (.error (Fault.hard ebadf).error,
        { descriptors with misused := fd :: descriptors.misused })

def closeFd (fd : Fd) (descriptors : Descriptors) : Descriptors :=
  match descriptors.files fd with
  | some _ =>
      { descriptors with files := Function.update descriptors.files fd none }
  | none => { descriptors with misused := fd :: descriptors.misused }

def rawSetsockopt (fd : Fd) (option : SocketOption) (value : Int)
    (answer : Except Fault Unit) (descriptors : Descriptors) :
    IoResult Unit × Descriptors :=
  descriptors.onFile fd (File.setsockopt option value answer)

def rawSetsockoptU32 (fd : Fd) (option : SocketOption) (value : UInt32)
    (answer : Except Fault Unit) (descriptors : Descriptors) :
    IoResult Unit × Descriptors :=
  descriptors.onFile fd (File.setsockopt option value.toNat answer)

def rawGetsockopt (report : SocketOption → Option Int → Int) (fd : Fd)
    (option : SocketOption) (answer : Except Fault Unit)
    (descriptors : Descriptors) : IoResult Int × Descriptors :=
  descriptors.onFile fd (File.getsockopt report option answer)

def rawConnect (host : Host) (fd : Fd) (addr : SocketAddr)
    (answer : Except Fault Unit) (descriptors : Descriptors) :
    IoResult Unit × Descriptors :=
  descriptors.onFile fd
    (File.connect host (encodeSockaddr host addr zeroedStorage) answer)

def rawGetsockname (host : Host) (fd : Fd) (answer : Except Fault Unit)
    (descriptors : Descriptors) : IoResult SocketAddr × Descriptors :=
  match descriptors.onFile fd (File.getsockname host zeroedStorage answer) with
  | (.ok (storage, len), descriptors) =>
      (.ok (decodeSockaddr host storage len), descriptors)
  | (.error error, descriptors) => (.error error, descriptors)

end Descriptors

/-! ## Integer casts -/

/-- `as libc::c_int`: the low 32 bits, read as a signed integer. -/
def asCInt (n : Nat) : Int := Int.bmod n (2 ^ 32)

/-- `as u32` of a `c_int`. -/
def asU32 (value : Int) : Nat := (value % 2 ^ 32).toNat

/-- `i32::from(bool)` -/
def ofFlag (enabled : Bool) : Int := if enabled then 1 else 0

theorem asU32_asCInt {n : Nat} (h : n < 2 ^ 32) : asU32 (asCInt n) = n := by
  unfold asU32 asCInt
  have hmod := Int.bmod_emod (x := (n : Int)) (m := 2 ^ 32)
  omega

theorem asCInt_of_lt {n : Nat} (h : n < 2 ^ 31) : asCInt n = n := by
  unfold asCInt
  apply Int.bmod_eq_of_le <;> omega

/-! ## The socket and its calls -/

/-- `BingerUdp` with its descriptor.  With the `tokio` feature the tokio socket
owns the same descriptor, and without it the field does not exist. -/
structure OwnedUdp where
  fd : Fd
  tokioSock : Option Fd
  socket : BingerUdp
  tokioSock_eq : tokioSock = if socket.tokio then some fd else none

inductive Method where
  | connect (addr : SocketAddr)
  | localAddr
  | ttl
  | setTtl (ttl : UInt32)
  | setGso (enabled : Bool)
  | setGro (enabled : Bool)
  | setPacingRate (bytesPerSec : UInt32)
  | setBusyPoll (usecs : UInt32)
  | enableTimestamping (enabled : Bool)
  | enablePktinfo (enabled : Bool)

inductive Reply where
  | done (result : IoResult Unit)
  | ttl (result : IoResult Nat)
  | addr (result : IoResult SocketAddr)
  deriving DecidableEq

namespace OwnedUdp

open Descriptors

def connect (socket : OwnedUdp) (addr : SocketAddr)
    (answer : Except Fault Unit) (descriptors : Descriptors) :
    IoResult Unit × Descriptors :=
  descriptors.rawConnect socket.socket.host socket.fd addr answer

def localAddr (socket : OwnedUdp) (answer : Except Fault Unit)
    (descriptors : Descriptors) : IoResult SocketAddr × Descriptors :=
  descriptors.rawGetsockname socket.socket.host socket.fd answer

def ttl (report : SocketOption → Option Int → Int) (socket : OwnedUdp)
    (answer : Except Fault Unit) (descriptors : Descriptors) :
    IoResult Nat × Descriptors :=
  match descriptors.rawGetsockopt report socket.fd .ipTtl answer with
  | (.ok value, descriptors) => (.ok (asU32 value), descriptors)
  | (.error error, descriptors) => (.error error, descriptors)

def setTtl (socket : OwnedUdp) (ttl : UInt32) (answer : Except Fault Unit)
    (descriptors : Descriptors) : IoResult Unit × Descriptors :=
  descriptors.rawSetsockopt socket.fd .ipTtl (asCInt ttl.toNat) answer

def setGso (socket : OwnedUdp) (enabled : Bool) (answer : Except Fault Unit)
    (descriptors : Descriptors) : IoResult Unit × Descriptors :=
  descriptors.rawSetsockopt socket.fd .udpSegment (ofFlag enabled) answer

def setGro (socket : OwnedUdp) (enabled : Bool) (answer : Except Fault Unit)
    (descriptors : Descriptors) : IoResult Unit × Descriptors :=
  descriptors.rawSetsockopt socket.fd .udpGro (ofFlag enabled) answer

def setPacingRate (socket : OwnedUdp) (bytesPerSec : UInt32)
    (answer : Except Fault Unit) (descriptors : Descriptors) :
    IoResult Unit × Descriptors :=
  descriptors.rawSetsockoptU32 socket.fd .soMaxPacingRate bytesPerSec answer

def setBusyPoll (socket : OwnedUdp) (usecs : UInt32)
    (answer : Except Fault Unit) (descriptors : Descriptors) :
    IoResult Unit × Descriptors :=
  descriptors.rawSetsockopt socket.fd .soBusyPoll (asCInt usecs.toNat) answer

def enableTimestamping (socket : OwnedUdp) (enabled : Bool)
    (answer : Except Fault Unit) (descriptors : Descriptors) :
    IoResult Unit × Descriptors :=
  descriptors.rawSetsockopt socket.fd .soTimestampns (ofFlag enabled) answer

def enablePktinfo (socket : OwnedUdp) (enabled : Bool)
    (first second : Except Fault Unit) (descriptors : Descriptors) :
    IoResult Unit × Descriptors :=
  match descriptors.rawSetsockopt socket.fd .ipPktinfo (ofFlag enabled)
      first with
  | (.error error, descriptors) => (.error error, descriptors)
  | (.ok (), descriptors) =>
      descriptors.rawSetsockopt socket.fd .ipv6Recvpktinfo (ofFlag enabled)
        second

/-- Only `enable_pktinfo` asks the kernel twice. -/
def call (report : SocketOption → Option Int → Int) (socket : OwnedUdp)
    (method : Method) (first second : Except Fault Unit)
    (descriptors : Descriptors) : Reply × Descriptors :=
  match method with
  | .connect addr =>
      Prod.map .done id (socket.connect addr first descriptors)
  | .localAddr => Prod.map .addr id (socket.localAddr first descriptors)
  | .ttl => Prod.map .ttl id (socket.ttl report first descriptors)
  | .setTtl ttl => Prod.map .done id (socket.setTtl ttl first descriptors)
  | .setGso enabled =>
      Prod.map .done id (socket.setGso enabled first descriptors)
  | .setGro enabled =>
      Prod.map .done id (socket.setGro enabled first descriptors)
  | .setPacingRate rate =>
      Prod.map .done id (socket.setPacingRate rate first descriptors)
  | .setBusyPoll usecs =>
      Prod.map .done id (socket.setBusyPoll usecs first descriptors)
  | .enableTimestamping enabled =>
      Prod.map .done id (socket.enableTimestamping enabled first descriptors)
  | .enablePktinfo enabled =>
      Prod.map .done id
        (socket.enablePktinfo enabled first second descriptors)

/-- Dropping the socket.  The `Drop` implementation only exists without tokio;
with it the tokio socket closes its descriptor when the fields are dropped. -/
def drop (socket : OwnedUdp) (descriptors : Descriptors) : Descriptors :=
  let descriptors :=
    if socket.socket.tokio then descriptors
    else descriptors.closeFd socket.fd
  match socket.tokioSock with
  | some fd => descriptors.closeFd fd
  | none => descriptors

end OwnedUdp

/-! ## Construction -/

structure Build where
  backend : Backend
  host : Host
  tokio : Bool

/-- The answers of the kernel and of tokio to the calls of `from_std`, and the
two instants that the adaptive controllers read. -/
structure Setup where
  setNonblocking : Except Fault Unit
  sndbuf : Except Fault Unit
  rcvbuf : Except Fault Unit
  register : Except Fault Unit
  sendNow : Nat
  recvNow : Nat

def newSocket (build : Build) (config : Config) (setup : Setup) :
    BingerUdp where
  backend := build.backend
  host := build.host
  tokio := build.tokio
  metrics := if config.metricsEnabled then some Tasks.zeroMetrics else none
  adaptiveSend :=
    if config.adaptiveBatching then
      some (AdaptiveState.new config.batchSize setup.sendNow)
    else none
  adaptiveRecv :=
    if config.adaptiveBatching then
      some (AdaptiveState.new config.batchSize setup.recvNow)
    else none

def takeOver (build : Build) (fd : Fd) (config : Config) (setup : Setup) :
    OwnedUdp where
  fd := fd
  tokioSock := if build.tokio then some fd else none
  socket := newSocket build config setup
  tokioSock_eq := rfl

def applyBufSize (fd : Fd) (option : SocketOption) (size : Option Nat)
    (answer : Except Fault Unit) (descriptors : Descriptors) :
    IoResult Unit × Descriptors :=
  match size with
  | some size =>
      descriptors.rawSetsockopt fd option (asCInt size) answer
  | none => (.ok (), descriptors)

/-- `from_std` on the standard socket that owns `fd`.  It takes that socket by
value, so the descriptor is closed on every path that does not hand it on. -/
def fromStd (build : Build) (fd : Fd) (config : Config) (setup : Setup)
    (descriptors : Descriptors) : IoResult OwnedUdp × Descriptors :=
  match descriptors.onFile fd (File.setNonblocking setup.setNonblocking) with
  | (.error error, descriptors) => (.error error, descriptors.closeFd fd)
  | (.ok (), descriptors) =>
      match applyBufSize fd .soSndbuf config.sendBufSize setup.sndbuf
          descriptors with
      | (.error error, descriptors) => (.error error, descriptors.closeFd fd)
      | (.ok (), descriptors) =>
          match applyBufSize fd .soRcvbuf config.recvOsBufSize setup.rcvbuf
              descriptors with
          | (.error error, descriptors) =>
              (.error error, descriptors.closeFd fd)
          | (.ok (), descriptors) =>
              if build.tokio then
                match setup.register with
                | .error fault =>
                    (.error fault.error, descriptors.closeFd fd)
                | .ok () =>
                    (.ok (takeOver build fd config setup), descriptors)
              else (.ok (takeOver build fd config setup), descriptors)

end Binger.Socket
