import Binger.Platform.RecvHeaders

/-!
# The receive backends

A receive can end in a panic, so the batch and the result travel in
`Except Panic`.  On Linux the messages of one `recvmmsg` call are written to
the slots by an output loop whose index runs ahead of the message index as soon
as a coalesced message is split.
-/

namespace Binger.Platform

open Binger.Foundation Binger.Sockaddr

structure Features where
  gro : Bool
  timestamping : Bool
  pktinfo : Bool
  deriving DecidableEq, Repr

def noFeatures : Features := ⟨false, false, false⟩

abbrev RecvOutcome (bufSize : Nat) :=
  Except Panic (IoResult Nat × RecvBatchRaw bufSize)

section Backends

variable {bufSize : Nat}

/-! ## System calls -/

/-- A system call that receives several messages: those received before the
first failure, or that failure when nothing was received. -/
def recvMessages (host : Host) (headers : RecvHeaders)
    (batch : RecvBatchRaw bufSize) (vlen : Nat) (os : Os) :
    IoResult (Nat × RecvHeaders × RecvBatchRaw bufSize) × Os :=
  match os.receiveMany vlen with
  | (([], some fault), os) => (.error fault.error, os)
  | ((datagrams, _), os) =>
      let (headers, batch) := deliverAll host datagrams 0 headers batch
      (.ok (datagrams.length, headers, batch), os)

def recvmmsg (host : Host) (headers : RecvHeaders)
    (batch : RecvBatchRaw bufSize) (vlen : Nat) (os : Os) :
    IoResult (Nat × RecvHeaders × RecvBatchRaw bufSize) × Os :=
  if os.hasRecvmmsg then recvMessages host headers batch vlen os
  else (.error (.os .enosys), os)

theorem recvMessages_interrupted {host : Host} {headers : RecvHeaders}
    {batch : RecvBatchRaw bufSize} {vlen : Nat} {os os' : Os} {error : IoError}
    (h : recvMessages host headers batch vlen os = (.error error, os'))
    (hkind : error.kind = .interrupted) :
    os'.recvScript.length < os.recvScript.length := by
  rw [recvMessages, Os.receiveMany_eq] at h
  split at h
  · next fault os'' hcall =>
      simp only [Prod.mk.injEq, Except.error.injEq] at h hcall
      obtain ⟨⟨hgranted, hrefusal⟩, rfl⟩ := hcall
      obtain ⟨rfl, rfl⟩ := h
      obtain rfl := fault.error_kind_interrupted.mp hkind
      obtain ⟨hask, hrest⟩ := refusal_of_granted_nil hrefusal hgranted
      rw [hrest]
      cases hscript : os.recvScript with
      | nil => simp [hscript, ask] at hask
      | cons answer script => simp [ask]
  · simp at h

theorem recvmmsg_interrupted {host : Host} {headers : RecvHeaders}
    {batch : RecvBatchRaw bufSize} {vlen : Nat} {os os' : Os} {error : IoError}
    (h : recvmmsg host headers batch vlen os = (.error error, os'))
    (hkind : error.kind = .interrupted) :
    os'.recvScript.length < os.recvScript.length := by
  unfold recvmmsg at h
  split at h
  · exact recvMessages_interrupted h hkind
  · simp only [Prod.mk.injEq, Except.error.injEq] at h
    rw [← h.1] at hkind
    simp [IoError.kind] at hkind

def rawRecvfrom (host : Host) (bufSize : Nat) (os : Os) :
    IoResult (List UInt8 × SocketAddr) × Os :=
  match os.receive with
  | (.ok datagram, os) =>
      let (storage, addrLen) :=
        encodeSockaddr host datagram.source zeroedStorage
      (.ok (datagram.payload.take bufSize,
        decodeSockaddr host storage addrLen), os)
  | (.error fault, os) => (.error fault.error, os)

/-! ## One call for each packet -/

def storeDatagram (i : Nat) (bytes : List UInt8) (addr : SocketAddr)
    (batch : RecvBatchRaw bufSize) :
    Except Panic (RecvBatchRaw bufSize) := do
  let batch ← batch.modifySlot i (RecvSlot.writeBuf bytes)
  let batch ← batch.setRecvLen i bytes.length
  let batch ← batch.setAddr i addr
  return batch.setLen (i + 1)

/-- The loop of the generic fallback, `fallback_recv` and the macOS loop, over
the slots from `i` on. -/
def perPacketRecv (host : Host) : Nat → Nat → Nat → RecvBatchRaw bufSize →
    Os → RecvOutcome bufSize × Os
  | 0, _, received, batch, os => (.ok (.ok received, batch), os)
  | slots + 1, i, received, batch, os =>
      match rawRecvfrom host bufSize os with
      | (.ok (bytes, addr), os) =>
          match storeDatagram i bytes addr batch with
          | .ok batch =>
              perPacketRecv host slots (i + 1) (received + 1) batch os
          | .error panic => (.error panic, os)
      | (.error error, os) =>
          if error.kind = .wouldBlock then (.ok (.ok received, batch), os)
          else (.ok (.error error, batch), os)

def wsaemsgsize : Nat := 10040

/-- The buffer length goes through a 32-bit parameter. -/
def wsaBufLen (bufSize : Nat) : Nat := bufSize % 2 ^ 32

/-- `WSARecvMsg`, or `recvfrom` without the extension: the bytes written to the
buffer and the source.  A datagram that is larger than the buffer loses its end
and fails the call. -/
def wsaRecv (host : Host) (bufSize : Nat) (os : Os) :
    (List UInt8 × IoResult SocketAddr) × Os :=
  match os.receive with
  | (.ok datagram, os) =>
      let wsaBuf := datagram.payload.take (wsaBufLen bufSize)
      if datagram.payload.length ≤ wsaBufLen bufSize then
        let (storage, addrLen) :=
          encodeSockaddr host datagram.source zeroedStorage
        ((wsaBuf, .ok (decodeSockaddr host storage addrLen)), os)
      else ((wsaBuf, .error (Fault.hard wsaemsgsize).error), os)
  | (.error fault, os) => (([], .error fault.error), os)

/-- The Windows loop, over the slots from `i` on.  The call writes to the
buffer of the slot even when it fails. -/
def wsaRecvLoop (host : Host) : Nat → Nat → Nat → RecvBatchRaw bufSize →
    Os → RecvOutcome bufSize × Os
  | 0, _, received, batch, os => (.ok (.ok received, batch), os)
  | slots + 1, i, received, batch, os =>
      match wsaRecv host bufSize os with
      | ((bytes, .ok addr), os) =>
          match storeDatagram i bytes addr batch with
          | .ok batch => wsaRecvLoop host slots (i + 1) (received + 1) batch os
          | .error panic => (.error panic, os)
      | ((bytes, .error error), os) =>
          match batch.modifySlot i (RecvSlot.writeBuf bytes) with
          | .ok batch =>
              if error.kind = .wouldBlock then (.ok (.ok received, batch), os)
              else (.ok (.error error, batch), os)
          | .error panic => (.error panic, os)

/-! ## The output loop of the Linux backend -/

/-- The walk over the control messages of one datagram: the last `UDP_GRO`
segment size, with timestamp and destination stored in slot `outIdx`. -/
def walkCmsgs (features : Features) (outIdx : Nat) :
    List Cmsg → UInt16 → RecvBatchRaw bufSize →
      Except Panic (UInt16 × RecvBatchRaw bufSize)
  | [], groSegSize, batch => return (groSegSize, batch)
  | .udpGro segmentSize :: control, groSegSize, batch =>
      walkCmsgs features outIdx control
        (if features.gro then segmentSize else groSegSize) batch
  | .scmTimestampns ts :: control, groSegSize, batch => do
      let batch ←
        if features.timestamping then batch.setTimestamp outIdx (some ts)
        else pure batch
      walkCmsgs features outIdx control groSegSize batch
  | .ipPktinfo ipiAddr :: control, groSegSize, batch => do
      let batch ←
        if features.pktinfo then batch.setDstAddr outIdx (some (.v4 ipiAddr 0))
        else pure batch
      walkCmsgs features outIdx control groSegSize batch
  | .ipv6Pktinfo ipi6Addr :: control, groSegSize, batch => do
      let batch ←
        if features.pktinfo then
          batch.setDstAddr outIdx (some (.v6 ipi6Addr 0 0 0))
        else pure batch
      walkCmsgs features outIdx control groSegSize batch
  | .other _ _ :: control, groSegSize, batch =>
      walkCmsgs features outIdx control groSegSize batch

def storeSegment (features : Features) (firstIdx nextIdx : Nat)
    (addr : SocketAddr) (segment : List UInt8)
    (batch : RecvBatchRaw bufSize) :
    Except Panic (RecvBatchRaw bufSize) := do
  let batch ← batch.writeBuf nextIdx segment
  let batch ← batch.setRecvLen nextIdx segment.length
  let batch ← batch.setAddr nextIdx addr
  let batch ←
    if features.timestamping then do
      batch.setTimestamp nextIdx (← batch.timestamp firstIdx)
    else pure batch
  if features.pktinfo then do
    batch.setDstAddr nextIdx (← batch.dstAddr firstIdx)
  else pure batch

def splitSegments (features : Features) (firstIdx : Nat) (addr : SocketAddr)
    (groSegSize : Nat) (coalesced : List UInt8) (segCount offset : Nat)
    (batch : RecvBatchRaw bufSize) :
    Except Panic (Nat × RecvBatchRaw bufSize) :=
  if _h : offset < coalesced.length ∧ 0 < groSegSize then
    let segEnd := min (offset + groSegSize) coalesced.length
    let segment := (coalesced.take segEnd).drop offset
    if segCount = 0 then do
      let batch ← batch.setRecvLen firstIdx (segEnd - offset)
      splitSegments features firstIdx addr groSegSize coalesced (segCount + 1)
        segEnd batch
    else if firstIdx + segCount ≥ batch.capacity then .ok (segCount, batch)
    else do
      let batch ← storeSegment features firstIdx (firstIdx + segCount) addr
        segment batch
      splitSegments features firstIdx addr groSegSize coalesced (segCount + 1)
        segEnd batch
  else .ok (segCount, batch)
termination_by coalesced.length - offset

def outputMessage (features : Features) (message : Received) (outIdx : Nat)
    (batch : RecvBatchRaw bufSize) :
    Except Panic (Nat × RecvBatchRaw bufSize) := do
  let batch ← batch.setRecvLen outIdx message.msgLen
  let batch ← batch.setAddr outIdx message.addr
  let (groSegSize, batch) ← walkCmsgs features outIdx message.control 0 batch
  if 0 < groSegSize.toNat then
    let coalesced ← batch.readBuf outIdx message.msgLen
    let (segCount, batch) ← splitSegments features outIdx message.addr
      groSegSize.toNat coalesced 0 0 batch
    return (outIdx + segCount, batch)
  else return (outIdx + 1, batch)

def outputLoop (features : Features) :
    List Received → Nat → RecvBatchRaw bufSize →
      Except Panic (Nat × RecvBatchRaw bufSize)
  | [], outIdx, batch => return (outIdx, batch)
  | message :: messages, outIdx, batch => do
      let (outIdx, batch) ← outputMessage features message outIdx batch
      outputLoop features messages outIdx batch

/-! ## The backends -/

namespace Linux

def fallbackRecv (host : Host) (batch : RecvBatchRaw bufSize) (os : Os) :
    RecvOutcome bufSize × Os :=
  perPacketRecv host batch.capacity 0 0 batch os

def recvHeaders (bufSize capacity : Nat) : RecvHeaders :=
  if capacity ≤ maxStack then recvStackHeaders bufSize capacity
  else recvHeapHeaders bufSize capacity

def output (features : Features) (host : Host) (n : Nat)
    (headers : RecvHeaders) (batch : RecvBatchRaw bufSize) :
    RecvOutcome bufSize := do
  let messages := (List.range' 0 n).filterMap (headers.received host)
  let (outIdx, batch) ← outputLoop features messages 0 batch
  return (.ok outIdx, batch.setLen outIdx)

def tryRecvBatch (features : Features) (host : Host)
    (batch : RecvBatchRaw bufSize) (os : Os) : RecvOutcome bufSize × Os :=
  let capacity := batch.capacity
  if capacity = 0 then (.ok (.ok 0, batch), os)
  else
    let headers := recvHeaders bufSize capacity
    match retryEintr (recvmmsg host headers batch (vlen capacity))
      (fun os => os.recvScript.length)
      (fun _ _ _ => recvmmsg_interrupted) os with
    | (.ok (n, headers, batch), os) =>
        (output features host n headers batch, os)
    | (.error error, os) =>
        if error.rawOsError = some .enosys then
          fallbackRecv host batch os
        else (.ok (.error error, batch), os)

end Linux

namespace Macos

/-- The `msghdr_x` arrays: those of the Linux heap branch without control
buffers. -/
def recvHeaders (bufSize capacity : Nat) : RecvHeaders :=
  let headers := recvHeapHeaders bufSize capacity
  { headers with
    msgs := headers.msgs.map fun msg =>
      { msg with msgControl := none, msgControllen := 0 }
    cmsgBufs := [] }

def received (host : Host) (headers : RecvHeaders) (i : Nat) :
    Option (Nat × SocketAddr) := do
  let header ← headers.msgs[i]?
  let storage ← headers.addrs[i]?
  return (header.msgLen, decodeSockaddr host storage header.msgNamelen)

def storeMessages : List (Nat × SocketAddr) → Nat → RecvBatchRaw bufSize →
    Except Panic (RecvBatchRaw bufSize)
  | [], _, batch => return batch
  | (recvLen, addr) :: messages, i, batch => do
      let batch ← batch.setRecvLen i recvLen
      let batch ← batch.setAddr i addr
      storeMessages messages (i + 1) batch

def output (host : Host) (n : Nat) (headers : RecvHeaders)
    (batch : RecvBatchRaw bufSize) : RecvOutcome bufSize := do
  let messages := (List.range' 0 n).filterMap (received host headers)
  let batch ← storeMessages messages 0 batch
  return (.ok n, batch.setLen n)

def tryRecvBatch (host : Host) (batch : RecvBatchRaw bufSize) (os : Os) :
    RecvOutcome bufSize × Os :=
  let capacity := batch.capacity
  if capacity = 0 then (.ok (.ok 0, batch), os)
  else if os.hasRecvmsgX then
    let headers := recvHeaders bufSize capacity
    match retryEintr (recvMessages host headers batch (vlen capacity))
      (fun os => os.recvScript.length)
      (fun _ _ _ => recvMessages_interrupted) os with
    | (.ok (n, headers, batch), os) => (output host n headers batch, os)
    | (.error error, os) => (.ok (.error error, batch), os)
  else perPacketRecv host capacity 0 0 batch os

end Macos

namespace Windows

def tryRecvBatch (host : Host) (batch : RecvBatchRaw bufSize) (os : Os) :
    RecvOutcome bufSize × Os :=
  let capacity := batch.capacity
  if capacity = 0 then (.ok (.ok 0, batch), os)
  else wsaRecvLoop host capacity 0 0 batch os

end Windows

namespace Fallback

def tryRecvBatch (host : Host) (batch : RecvBatchRaw bufSize) (os : Os) :
    RecvOutcome bufSize × Os :=
  perPacketRecv host batch.capacity 0 0 batch os

end Fallback

/-- `crate::platform::try_recv_batch`, selected at compile time. -/
def tryRecvBatch (backend : Backend) (features : Features) (host : Host)
    (batch : RecvBatchRaw bufSize) (os : Os) : RecvOutcome bufSize × Os :=
  match backend with
  | .linux => Linux.tryRecvBatch features host batch os
  | .macos => Macos.tryRecvBatch host batch os
  | .windows => Windows.tryRecvBatch host batch os
  | .fallback => Fallback.tryRecvBatch host batch os

end Backends

end Binger.Platform
