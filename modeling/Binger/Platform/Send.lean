import Binger.Platform.SendHeaders
import Binger.Platform.RetryEintr

/-!
# The send backends

Each backend offers the entries of a batch to the kernel in order.  The loops
that make one system call for each packet differ from the batched calls only in
what they report: `perPacketSend` keeps the count when the socket stops being
ready and drops it on any other error, Windows keeps it in both cases, and the
batched calls report an error only when it hits the first message.
-/

namespace Binger.Platform

open Binger.Foundation Binger.Sockaddr

inductive Backend where
  | linux
  | macos
  | windows
  | fallback
  deriving DecidableEq, Repr

/-! ## System call wrappers -/

def rawSend (i : Nat) (data : Slice) (os : Os) : IoResult Nat × Os :=
  match os.offer ⟨i, data.bytes, os.peer⟩ with
  | (.ok (), os) => (.ok data.bytes.length, os)
  | (.error fault, os) => (.error fault.error, os)

def rawSendto (host : Host) (i : Nat) (data : Slice) (addr : SocketAddr)
    (os : Os) : IoResult Nat × Os :=
  let (storage, addrLen) := encodeSockaddr host addr zeroedStorage
  match os.offer
    ⟨i, data.bytes, some (decodeSockaddr host storage addrLen)⟩ with
  | (.ok (), os) => (.ok data.bytes.length, os)
  | (.error fault, os) => (.error fault.error, os)

def sendmmsg (messages : List Sent) (os : Os) : IoResult Nat × Os :=
  if os.hasSendmmsg then
    match os.sendMany messages with
    | (.ok sent, os) => (.ok sent, os)
    | (.error fault, os) => (.error fault.error, os)
  else (.error (.os .enosys), os)

def sendmsgX (messages : List Sent) (os : Os) : IoResult Nat × Os :=
  match os.sendMany messages with
  | (.ok sent, os) => (.ok sent, os)
  | (.error fault, os) => (.error fault.error, os)

/-- The count of a batched call goes through a 32-bit parameter. -/
def vlen (len : Nat) : Nat := len % 2 ^ 32

theorem vlen_le (len : Nat) : vlen len ≤ len := Nat.mod_le len _

theorem sendmsgX_interrupted {messages : List Sent} {os os' : Os}
    {error : IoError} (h : sendmsgX messages os = (.error error, os'))
    (hkind : error.kind = .interrupted) :
    os'.sendScript.length < os.sendScript.length := by
  unfold sendmsgX at h
  split at h
  · simp at h
  · next fault os'' hcall =>
      obtain ⟨rfl, rfl⟩ : fault.error = error ∧ os'' = os' := by
        simpa using h
      rw [Fault.error_kind_interrupted] at hkind
      subst hkind
      exact Os.sendMany_interrupted hcall

/-! ## One call for each packet -/

/--
The loop shared by the generic fallback, `fallback_send` and the two macOS
loops.  With `stripped` the destination of every entry is ignored.
-/
def perPacketSend (host : Host) (stripped : Bool) :
    List SendSlot → Nat → Nat → Os → IoResult Nat × Os
  | [], _, sent, os => (.ok sent, os)
  | entry :: entries, i, sent, os =>
      let result :=
        match stripped, entry.addr with
        | true, _ | _, none => rawSend i entry.data os
        | false, some addr => rawSendto host i entry.data addr os
      match result with
      | (.ok _, os) => perPacketSend host stripped entries (i + 1) (sent + 1) os
      | (.error error, os) =>
          if error.kind = .wouldBlock then (.ok sent, os)
          else (.error error, os)

/-- The `WSASendMsg` loop: the payload length goes through a `u32`, and an
error after a partial send reports the count. -/
def wsaSendLoop (host : Host) (connected : Bool) :
    List SendSlot → Nat → Nat → Os → IoResult Nat × Os
  | [], _, sent, os => (.ok sent, os)
  | entry :: entries, i, sent, os =>
      let name :=
        match connected, entry.addr with
        | false, some target =>
            let (storage, namelen) := encodeSockaddr host target zeroedStorage
            some (decodeSockaddr host storage namelen)
        | _, _ => none
      let wsaBuf := entry.data.bytes.take (entry.data.bytes.length % 2 ^ 32)
      match os.offer ⟨i, wsaBuf, name <|> os.peer⟩ with
      | (.ok (), os) => wsaSendLoop host connected entries (i + 1) (sent + 1) os
      | (.error fault, os) =>
          if fault.error.kind = .wouldBlock then (.ok sent, os)
          else if sent > 0 then (.ok sent, os)
          else (.error fault.error, os)

/-! ## The backends -/

namespace Linux

def fallbackSend (host : Host) (batch : SendBatchRaw) (os : Os) :
    IoResult Nat × Os :=
  if batch.len = 0 then (.ok 0, os)
  else perPacketSend host os.isConnected batch.entries 0 0 os

def sendHeaders (host : Host) (batch : SendBatchRaw) : SendHeaders :=
  if h : batch.len ≤ maxStack then stackHeaders host batch h
  else heapHeaders host batch

def trySendBatch (host : Host) (batch : SendBatchRaw) (os : Os) :
    IoResult Nat × Os :=
  if batch.len = 0 then (.ok 0, os)
  else
    let headers := sendHeaders host batch
    match sendmmsg (headers.messages host os.peer (vlen batch.len)) os with
    | (.ok sent, os) => (.ok sent, os)
    | (.error error, os) =>
        if error.rawOsError = some .enosys then fallbackSend host batch os
        else (.error error, os)

/-- One `sendmsg` with a `UDP_SEGMENT` control message, on any script of
answers.  A kernel that checks the 64-byte control buffer, `gsoMsghdr`, always
answers `EINVAL`: `trySendGsoChecked_eq_scripted`. -/
def trySendGso (data : List UInt8) (segmentSize : UInt16) (os : Os) :
    IoResult Nat × Os :=
  match os.offerSegmented segmentSize.toNat data with
  | (.ok (), os) => (.ok data.length, os)
  | (.error fault, os) => (.error fault.error, os)

end Linux

namespace Macos

/-- The `msghdr_x` arrays: the two loops of the Linux heap path, at any
length. -/
def sendHeaders (host : Host) (batch : SendBatchRaw) : SendHeaders :=
  heapHeaders host batch

def trySendBatch (host : Host) (batch : SendBatchRaw) (os : Os) :
    IoResult Nat × Os :=
  if batch.len = 0 then (.ok 0, os)
  -- `sendmsg_x` drops packets of a connected socket, so it is not used there.
  else if os.isConnected then perPacketSend host true batch.entries 0 0 os
  else
    let headers := sendHeaders host batch
    if os.hasSendmsgX then
      retryEintr
        (sendmsgX (headers.messages host os.peer (vlen batch.len)))
        (fun os => os.sendScript.length)
        (fun _ _ _ => sendmsgX_interrupted) os
    else perPacketSend host false batch.entries 0 0 os

end Macos

namespace Windows

def trySendBatch (host : Host) (batch : SendBatchRaw) (os : Os) :
    IoResult Nat × Os :=
  if batch.len = 0 then (.ok 0, os)
  else wsaSendLoop host os.isConnected batch.entries 0 0 os

end Windows

namespace Fallback

def trySendBatch (host : Host) (batch : SendBatchRaw) (os : Os) :
    IoResult Nat × Os :=
  if batch.len = 0 then (.ok 0, os)
  else perPacketSend host os.isConnected batch.entries 0 0 os

end Fallback

/-- `crate::platform::try_send_batch`, selected at compile time. -/
def trySendBatch (backend : Backend) (host : Host) (batch : SendBatchRaw)
    (os : Os) : IoResult Nat × Os :=
  match backend with
  | .linux => Linux.trySendBatch host batch os
  | .macos => Macos.trySendBatch host batch os
  | .windows => Windows.trySendBatch host batch os
  | .fallback => Fallback.trySendBatch host batch os

end Binger.Platform
