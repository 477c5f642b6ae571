import Binger.Platform.GsoControl
import Binger.Platform.RecvHeaders

/-!
# Control messages in a buffer

The macros `CMSG_FIRSTHDR`, `CMSG_NXTHDR` and `CMSG_DATA` as offsets into a
control buffer, and the bytes of a series of control messages.  On such bytes
the macros lead from one message to the next, and the fields of each message are
found where they were written.
-/

namespace Binger.Platform.Linux

open Binger.Foundation Binger.Sockaddr

structure ControlBuf where
  bytes : List UInt8
  msgControllen : Nat

section Macros

variable (order : ByteOrder) (buf : ControlBuf)

end Macros

/-! ## The bytes of a series of messages -/

def Storable (message : ControlMessage) : Prop :=
  message.level < 2 ^ 32 ∧ message.type < 2 ^ 32

def cmsgSpace (message : ControlMessage) : Nat :=
  cmsgAlign (cmsgLen message.data.length)

def cmsgBytes (order : ByteOrder) (message : ControlMessage) : List UInt8 :=
  order.store 8 (cmsgLen message.data.length) ++
    (order.store 4 message.level ++ (order.store 4 message.type ++
      (message.data ++ List.replicate
        (cmsgSpace message - cmsgLen message.data.length) 0)))

def controlBytes (order : ByteOrder) (messages : List ControlMessage) :
    List UInt8 :=
  (messages.map (cmsgBytes order)).flatten

/-- The kernel wrote these messages to a buffer of `CMSG_BUF_SIZE` bytes. -/
structure Holds (order : ByteOrder) (messages : List ControlMessage)
    (buf : ControlBuf) : Prop where
  bytes : ∃ rest, buf.bytes = controlBytes order messages ++ rest
  msgControllen : buf.msgControllen = (controlBytes order messages).length
  length : buf.bytes.length = cmsgBufSize

section Sizes

variable (order : ByteOrder) (message : ControlMessage)

end Sizes

/-! ## Finding the fields of a message -/

theorem field_front {front rest : List UInt8} {offset width : Nat}
    (h : offset + width ≤ front.length) :
    field (front ++ rest) offset width = field front offset width := by
  rw [field, field, List.drop_append_of_le_length (by omega),
    List.take_append_of_le_length (by simp; omega)]

structure At (order : ByteOrder) (buf : ControlBuf) (cmsg : Nat)
    (message : ControlMessage) (rest : List UInt8) : Prop where
  offset : ∃ before, before.length = cmsg ∧
    buf.bytes = before ++ (cmsgBytes order message ++ rest)
  storable : Storable message
  length_lt : cmsgLen message.data.length < 2 ^ 64

namespace At

variable {order : ByteOrder} {buf : ControlBuf} {cmsg : Nat}
  {message : ControlMessage} {rest : List UInt8}

theorem field_eq (here : At order buf cmsg message rest)
    (offset width : Nat) :
    field buf.bytes (cmsg + offset) width =
      field (cmsgBytes order message ++ rest) offset width := by
  rcases here.offset with ⟨before, hbefore, hbytes⟩
  rw [hbytes, field_skip cmsg hbefore]

theorem data_eq (here : At order buf cmsg message rest) (offset width : Nat)
    {bytes : List UInt8} (h : offset + width ≤ message.data.length)
    (hbytes : field message.data offset width = bytes) :
    field buf.bytes (cmsg + cmsgData + offset) width = bytes := by
  have hoffset : cmsgData + offset = 8 + (4 + (4 + offset)) := by
    simp only [cmsgData, cmsgAlign, sizeofCmsghdr]
    omega
  rw [Nat.add_assoc, here.field_eq, cmsgBytes, hoffset]
  simp only [List.append_assoc]
  rw [field_skip 8 (by simp), field_skip 4 (by simp), field_skip 4 (by simp),
    field_front h, hbytes]

end At

/-! ## From one message to the next -/

end Binger.Platform.Linux
