import Binger.Platform.Send

/-!
# The control buffer of `try_send_gso`

`try_send_gso` writes one control message into a zeroed buffer of 64 bytes and
passes all 64 bytes to `sendmsg`.  The message takes 18 bytes, 24 with padding.
Whoever walks the buffer finds room for another header behind it, and what
stands there is a header of length zero.
-/

namespace Binger.Platform.Linux

open Binger.Foundation Binger.Sockaddr

/-! ## Control messages on 64-bit Linux

A `cmsghdr` is `cmsg_len` in eight bytes, `cmsg_level` and `cmsg_type` in four
bytes each. -/

def sizeofCmsghdr : Nat := 16

def cmsgAlign (len : Nat) : Nat := (len + 7) / 8 * 8

def cmsgLen (len : Nat) : Nat := cmsgAlign sizeofCmsghdr + len

def cmsgFirsthdr (msgControllen : Nat) : Option Nat :=
  if sizeofCmsghdr ≤ msgControllen then some 0 else none

def cmsgData : Nat := cmsgAlign sizeofCmsghdr

structure ControlMessage where
  level : Nat
  type : Nat
  data : List UInt8
  deriving DecidableEq, Repr

/-- Walk a control buffer header by header.  `none` is an invalid header, where
the walk ends. -/
def walkControl (order : ByteOrder) (control : List UInt8) :
    List (Option ControlMessage) :=
  if control.length < sizeofCmsghdr then []
  else
    let len := order.load (field control 0 8)
    if sizeofCmsghdr ≤ len ∧ len ≤ control.length then
      some ⟨order.load (field control 8 4), order.load (field control 12 4),
          field control cmsgData (len - cmsgData)⟩ ::
        walkControl order (control.drop (cmsgAlign len))
    else [none]
  termination_by control.length
  decreasing_by
    simp only [List.length_drop, cmsgAlign, sizeofCmsghdr] at *
    omega

/-! ## What `try_send_gso` passes -/

def ipprotoUdp : Nat := 17

def udpSegment : Nat := 103

structure GsoMsghdr where
  msgIov : List UInt8
  msgControl : List UInt8
  msgControllen : Nat

def gsoMsghdr (order : ByteOrder) (data : List UInt8) (segmentSize : UInt16) :
    IoResult GsoMsghdr :=
  let cmsgBuf : List UInt8 := List.replicate 64 0
  match cmsgFirsthdr 64 with
  | none => .error (.custom "CMSG_FIRSTHDR returned null")
  | some cm =>
      let cmsgBuf := writeAt (cm + 8) (order.store 4 ipprotoUdp) cmsgBuf
      let cmsgBuf := writeAt (cm + 12) (order.store 4 udpSegment) cmsgBuf
      let cmsgBuf := writeAt cm (order.store 8 (cmsgLen 2)) cmsgBuf
      let cmsgBuf :=
        writeAt (cm + cmsgData) (order.store 2 segmentSize.toNat) cmsgBuf
      .ok ⟨data, cmsgBuf, 64⟩

def gsoMessage (order : ByteOrder) (segmentSize : UInt16) : ControlMessage :=
  ⟨ipprotoUdp, udpSegment, order.store 2 segmentSize.toNat⟩

def GsoControlWellFormed (order : ByteOrder) (data : List UInt8)
    (segmentSize : UInt16) : Prop :=
  ∃ mhdr, gsoMsghdr order data segmentSize = .ok mhdr ∧
    walkControl order (mhdr.msgControl.take mhdr.msgControllen) =
      [some (gsoMessage order segmentSize)]

/-! ## Walking it -/

section Walk

variable (order : ByteOrder)

theorem walkControl_short {control : List UInt8}
    (h : control.length < sizeofCmsghdr) : walkControl order control = [] := by
  rw [walkControl, if_pos h]

theorem walkControl_zeroes {n : Nat} (h : sizeofCmsghdr ≤ n) :
    walkControl order (List.replicate n 0) = [none] := by
  have hlen : order.load (field (List.replicate n 0) 0 8) = 0 := by
    rw [field, List.drop_zero, List.take_replicate,
      ByteOrder.load_replicate_zero]
  rw [walkControl, if_neg (by simpa using h), hlen]
  simp [sizeofCmsghdr]

theorem walkControl_message {level type : Nat} {data padding rest : List UInt8}
    (hlevel : level < 2 ^ 32) (htype : type < 2 ^ 32)
    (hdata : cmsgLen data.length < 2 ^ 64)
    (hpadding : cmsgLen data.length + padding.length =
      cmsgAlign (cmsgLen data.length)) :
    walkControl order (order.store 8 (cmsgLen data.length) ++
        (order.store 4 level ++ (order.store 4 type ++
          (data ++ (padding ++ rest))))) =
      some ⟨level, type, data⟩ :: walkControl order rest := by
  generalize hcontrol : order.store 8 (cmsgLen data.length) ++ _ = control
  have hlength : control.length =
      cmsgLen data.length + padding.length + rest.length := by
    rw [← hcontrol]
    simp [cmsgLen, cmsgAlign, sizeofCmsghdr]
    omega
  have hlen : order.load (field control 0 8) = cmsgLen data.length := by
    rw [← hcontrol, field_head (by simp)]
    exact order.load_store_of_lt hdata
  have hlevelAt : order.load (field control 8 4) = level := by
    rw [← hcontrol, field_skip 8 (by simp) 0, field_head (by simp)]
    exact order.load_store_of_lt hlevel
  have htypeAt : order.load (field control 12 4) = type := by
    rw [← hcontrol, field_skip 8 (by simp) 4, field_skip 4 (by simp) 0,
      field_head (by simp)]
    exact order.load_store_of_lt htype
  have hdataAt : field control cmsgData (cmsgLen data.length - cmsgData) =
      data := by
    have hcount : cmsgLen data.length - cmsgData = data.length := by
      simp [cmsgLen, cmsgData]
    rw [← hcontrol, hcount, show cmsgData = 8 + (4 + (4 + 0)) from rfl,
      field_skip 8 (by simp), field_skip 4 (by simp), field_skip 4 (by simp),
      field_head rfl]
  have hrest : control.drop (cmsgAlign (cmsgLen data.length)) = rest := by
    rw [← hcontrol, ← hpadding]
    simp only [← List.append_assoc]
    apply List.drop_left'
    simp [cmsgLen, cmsgAlign, sizeofCmsghdr]
    omega
  have hmin : sizeofCmsghdr ≤ cmsgLen data.length := by
    simp [cmsgLen, cmsgAlign, sizeofCmsghdr]
  rw [walkControl, if_neg (by omega), hlen, if_pos (by omega), hlevelAt,
    htypeAt, hdataAt, hrest]

end Walk

theorem gsoMsghdr_eq (order : ByteOrder) (data : List UInt8)
    (segmentSize : UInt16) :
    gsoMsghdr order data segmentSize =
      .ok ⟨data, order.store 8 (cmsgLen 2) ++ (order.store 4 ipprotoUdp ++
        (order.store 4 udpSegment ++ (order.store 2 segmentSize.toNat ++
          (List.replicate 6 0 ++ List.replicate 40 0)))), 64⟩ := by
  have hsplit : (List.replicate 64 0 : List UInt8) =
      List.replicate 8 0 ++ (List.replicate 4 0 ++ (List.replicate 4 0 ++
        (List.replicate 2 0 ++
          (List.replicate 6 0 ++ List.replicate 40 0)))) := rfl
  simp only [gsoMsghdr, cmsgFirsthdr, sizeofCmsghdr, cmsgData, hsplit,
    Nat.reduceLeDiff, if_true, Nat.zero_add]
  rw [writeAt_append (by simp) (by simp), ← List.append_assoc,
    writeAt_append (by simp) (by simp), List.append_assoc]
  have hfirst := @writeAt_append UInt8 0 [] (List.replicate 8 0)
  simp only [List.nil_append] at hfirst
  rw [hfirst rfl (by simp)]
  simp only [← List.append_assoc]
  rw [List.append_assoc _ (List.replicate 6 0)]
  rw [List.append_assoc _ (List.replicate 2 0)]
  rw [writeAt_append (by simp [cmsgAlign]) (by simp)]
  simp only [List.append_assoc]

theorem gsoMsghdr_walk (order : ByteOrder) (data : List UInt8)
    (segmentSize : UInt16) :
    ∃ mhdr, gsoMsghdr order data segmentSize = .ok mhdr ∧
      walkControl order (mhdr.msgControl.take mhdr.msgControllen) =
        [some (gsoMessage order segmentSize), none] := by
  refine ⟨_, gsoMsghdr_eq order data segmentSize, ?_⟩
  have hwalk := @walkControl_message order ipprotoUdp udpSegment
    (order.store 2 segmentSize.toNat) (List.replicate 6 0)
    (List.replicate 40 0) (by decide) (by decide)
  rw [ByteOrder.store_length] at hwalk
  rw [List.take_of_length_le (by simp), hwalk (by decide) (by simp [cmsgLen,
    cmsgAlign, sizeofCmsghdr]), walkControl_zeroes order (by decide)]
  rfl

/-- The length of the buffer is at fault, not the message: over the first
`CMSG_SPACE(2)` bytes the walk ends behind it. -/
theorem gsoMsghdr_walk_space (order : ByteOrder) (data : List UInt8)
    (segmentSize : UInt16) :
    ∃ mhdr, gsoMsghdr order data segmentSize = .ok mhdr ∧
      walkControl order (mhdr.msgControl.take (cmsgAlign (cmsgLen 2))) =
        [some (gsoMessage order segmentSize)] := by
  refine ⟨_, gsoMsghdr_eq order data segmentSize, ?_⟩
  have hwalk := @walkControl_message order ipprotoUdp udpSegment
    (order.store 2 segmentSize.toNat) (List.replicate 6 0) [] (by decide)
    (by decide)
  rw [ByteOrder.store_length, List.append_nil] at hwalk
  simp only [← List.append_assoc] at hwalk ⊢
  rw [List.take_left' (by simp [cmsgLen, cmsgAlign, sizeofCmsghdr]),
    hwalk (by decide) (by simp [cmsgLen, cmsgAlign, sizeofCmsghdr]),
    walkControl_short order (by decide)]
  rfl

theorem gsoControl_not_wellFormed (order : ByteOrder) (data : List UInt8)
    (segmentSize : UInt16) :
    ¬ GsoControlWellFormed order data segmentSize := by
  rintro ⟨mhdr, hmhdr, hwalk⟩
  rcases gsoMsghdr_walk order data segmentSize with ⟨mhdr', hmhdr', hwalk'⟩
  rw [hmhdr', Except.ok.injEq] at hmhdr
  rw [hmhdr, hwalk] at hwalk'
  simp at hwalk'

/-- Whatever is sent, the walk finds the segment size first and then an invalid
header in the zeroes behind it. -/
theorem gsoControl_ends_invalid (order : ByteOrder) (data : List UInt8)
    (segmentSize : UInt16) :
    ¬ GsoControlWellFormed order data segmentSize ∧
    ∃ mhdr, gsoMsghdr order data segmentSize = .ok mhdr ∧
      walkControl order (mhdr.msgControl.take mhdr.msgControllen) =
        [some (gsoMessage order segmentSize), none] :=
  ⟨gsoControl_not_wellFormed order data segmentSize,
    gsoMsghdr_walk order data segmentSize⟩

theorem gsoControl_of_three_bytes :
    ¬ GsoControlWellFormed .little [1, 2, 3] 2 :=
  gsoControl_not_wellFormed .little [1, 2, 3] 2

/-! ## The kernel's check -/

def einval : Fault := .hard 22

/-- `try_send_gso` on a kernel that walks the control buffer, as Linux does, and
answers `EINVAL` to an invalid header. -/
def trySendGsoChecked (order : ByteOrder) (data : List UInt8)
    (segmentSize : UInt16) (os : Os) : IoResult Nat × Os :=
  match gsoMsghdr order data segmentSize with
  | .error error => (.error error, os)
  | .ok mhdr =>
      if none ∈ walkControl order (mhdr.msgControl.take mhdr.msgControllen)
      then (.error einval.error, os)
      else trySendGso mhdr.msgIov segmentSize os

theorem trySendGsoChecked_eq_error (order : ByteOrder) (data : List UInt8)
    (segmentSize : UInt16) (os : Os) :
    trySendGsoChecked order data segmentSize os =
      (.error einval.error, os) := by
  obtain ⟨mhdr, hmhdr, hwalk⟩ := gsoMsghdr_walk order data segmentSize
  simp [trySendGsoChecked, hmhdr, hwalk]

theorem trySendGsoChecked_eq_scripted (order : ByteOrder) (data : List UInt8)
    (segmentSize : UInt16) (os : Os) :
    trySendGsoChecked order data segmentSize os =
      trySendGso data segmentSize
        { os with sendScript := .error einval :: os.sendScript } := by
  rw [trySendGsoChecked_eq_error]
  rfl

end Binger.Platform.Linux
