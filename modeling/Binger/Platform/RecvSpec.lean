import Binger.Platform.Recv
import Binger.Foundation.Segments

/-!
# What the output loop writes

The output loop never goes back: message after message it turns the slots in
front of it into finished ones and leaves the rest untouched.  So the loop is a
function `emit` that takes the first slots off a list, and `outputLoop_eq` says
that the indexed loop computes it.  A message that finds no slot left is the
only way to panic.
-/

namespace Binger.Platform

open Binger.Foundation Binger.Sockaddr

variable {bufSize : Nat}

/-! ## One call for each packet -/

def datagramSlot (datagram : Datagram) (slot : RecvSlot bufSize) :
    RecvSlot bufSize :=
  { slot.writeBuf datagram.payload with
    recvLen := UInt16.ofNat (min bufSize datagram.payload.length)
    addr := datagram.source }

def stored : List Datagram → List (RecvSlot bufSize) → List (RecvSlot bufSize)
  | datagram :: datagrams, slot :: slots =>
      datagramSlot datagram slot :: stored datagrams slots
  | _, slots => slots

def perPacketRecvResult (received n : Nat)
    (script : List (Except Fault Datagram)) : IoResult Nat :=
  match refusal .wouldBlock n script with
  | none | some .wouldBlock => .ok (received + (granted n script).length)
  | some fault => .error fault.error

theorem perPacketRecvResult_cons (received n : Nat) (datagram : Datagram)
    (script : List (Except Fault Datagram)) :
    perPacketRecvResult received (n + 1) (.ok datagram :: script) =
      perPacketRecvResult (received + 1) n script := by
  simp [perPacketRecvResult, refusal, granted, Nat.add_assoc, Nat.add_comm 1]

theorem lenAfter_cons (n filled len : Nat) (datagram : Datagram)
    (script : List (Except Fault Datagram)) :
    (if granted (n + 1) (.ok datagram :: script) = [] then len
      else filled + (granted (n + 1) (.ok datagram :: script)).length) =
    if granted n script = [] then filled + 1
      else filled + 1 + (granted n script).length := by
  by_cases hnil : granted n script = []
  · simp [granted, hnil]
  · simp [granted, hnil]
    omega

theorem rawRecvfrom_eq (host : Host) (bufSize : Nat) (os : Os) :
    rawRecvfrom host bufSize os =
      match os.receive with
      | (.ok datagram, os) =>
          (.ok (datagram.payload.take bufSize, datagram.source), os)
      | (.error fault, os) => (.error fault.error, os) := by
  unfold rawRecvfrom
  cases os.receive with
  | mk answer os' =>
      cases answer <;> simp [decodeSockaddr_encodeSockaddr]

theorem storeDatagram_eq (before rest : List (RecvSlot bufSize))
    (slot : RecvSlot bufSize) (len : Nat) (datagram : Datagram) :
    storeDatagram before.length (datagram.payload.take bufSize)
        datagram.source ⟨before ++ slot :: rest, len⟩ =
      .ok ⟨before ++ datagramSlot datagram slot :: rest,
        before.length + 1⟩ := by
  simp [storeDatagram, RecvBatchRaw.setRecvLen, RecvBatchRaw.setAddr,
    RecvBatchRaw.setLen, bind, Except.bind, pure, Except.pure, datagramSlot]

theorem perPacketRecv_eq (host : Host) (slots before : List (RecvSlot bufSize))
    (received len : Nat) (os : Os) :
    perPacketRecv host slots.length before.length received
        ⟨before ++ slots, len⟩ os =
      (.ok (perPacketRecvResult received slots.length os.recvScript,
        ⟨before ++ stored (granted slots.length os.recvScript) slots,
          if granted slots.length os.recvScript = [] then len
          else before.length +
            (granted slots.length os.recvScript).length⟩),
        { os with recvScript := remaining slots.length os.recvScript }) := by
  induction slots generalizing before received len os with
  | nil => simp [perPacketRecv, perPacketRecvResult, stored]
  | cons slot slots ih =>
      rw [List.length_cons, perPacketRecv, rawRecvfrom_eq]
      cases hscript : os.recvScript with
      | nil =>
          simp [Os.receive, hscript, ask, perPacketRecvResult, granted, refusal,
            remaining, stored]
      | cons answer script =>
          cases answer with
          | error fault =>
              cases fault <;>
                simp [Os.receive, hscript, ask, perPacketRecvResult, granted,
                  refusal, remaining, stored]
          | ok datagram =>
              have htail := ih (before ++ [datagramSlot datagram slot])
                (received + 1) (before.length + 1)
                { os with recvScript := script }
              simp only [List.append_assoc, List.cons_append, List.nil_append,
                List.length_append, List.length_cons, List.length_nil,
                Nat.zero_add] at htail
              simp only [Os.receive, hscript, ask, storeDatagram_eq, htail,
                remaining, perPacketRecvResult_cons, lenAfter_cons]
              rfl

theorem perPacketRecv_batch (host : Host) (batch : RecvBatchRaw bufSize)
    (os : Os) :
    perPacketRecv host batch.capacity 0 0 batch os =
      (.ok (perPacketRecvResult 0 batch.capacity os.recvScript,
        ⟨stored (granted batch.capacity os.recvScript) batch.slots,
          if granted batch.capacity os.recvScript = [] then batch.len
          else (granted batch.capacity os.recvScript).length⟩),
        { os with recvScript := remaining batch.capacity os.recvScript }) := by
  have h := perPacketRecv_eq host batch.slots [] 0 batch.len os
  simp only [List.length_nil, List.nil_append, Nat.zero_add] at h
  exact h

/-! ## Control messages -/

def readGro : Cmsg → Option UInt16
  | .udpGro segmentSize => some segmentSize
  | _ => none

def readTimestamp : Cmsg → Option Timestamp
  | .scmTimestampns ts => some ts
  | _ => none

def readDstAddr : Cmsg → Option SocketAddr
  | .ipPktinfo ipiAddr => some (.v4 ipiAddr 0)
  | .ipv6Pktinfo ipi6Addr => some (.v6 ipi6Addr 0 0 0)
  | _ => none

def lastOf {β : Type} (read : Cmsg → Option β) (control : List Cmsg) :
    Option β :=
  (control.filterMap read).getLast?

theorem lastOf_cons {β : Type} (read : Cmsg → Option β) (cmsg : Cmsg)
    (control : List Cmsg) :
    lastOf read (cmsg :: control) = (lastOf read control <|> read cmsg) := by
  unfold lastOf
  cases h : read cmsg with
  | none => simp [List.filterMap_cons_none h]
  | some value =>
      rw [List.filterMap_cons_some h, List.getLast?_cons]
      cases (control.filterMap read).getLast? <;> rfl

/-- The segment size left after the walk; zero means that nothing was
coalesced. -/
def groSize (features : Features) (control : List Cmsg) : Nat :=
  if features.gro then ((lastOf readGro control).getD 0).toNat
  else 0

@[simp] theorem groSize_nil (features : Features) :
    groSize features [] = 0 := by
  unfold groSize
  split <;> rfl

theorem groSize_lt (features : Features) (control : List Cmsg) :
    groSize features control < 2 ^ 16 := by
  unfold groSize
  split
  · exact UInt16.toNat_lt _
  · decide

def annotate (features : Features) (control : List Cmsg)
    (slot : RecvSlot bufSize) : RecvSlot bufSize :=
  { slot with
    timestamp :=
      if features.timestamping then
        (lastOf readTimestamp control <|> slot.timestamp)
      else slot.timestamp
    dstAddr :=
      if features.pktinfo then
        (lastOf readDstAddr control <|> slot.dstAddr)
      else slot.dstAddr }

theorem annotate_cons (features : Features) (cmsg : Cmsg)
    (control : List Cmsg) (slot : RecvSlot bufSize) :
    annotate features (cmsg :: control) slot =
      annotate features control (annotate features [cmsg] slot) := by
  simp only [annotate, lastOf_cons, RecvSlot.mk.injEq, true_and]
  constructor <;> split <;> simp [lastOf, Option.or_assoc]

@[simp] theorem annotate_nil (features : Features)
    (slot : RecvSlot bufSize) : annotate features [] slot = slot := by
  simp [annotate, lastOf]

theorem walkCmsgs_cons (features : Features)
    (before rest : List (RecvSlot bufSize)) (slot : RecvSlot bufSize)
    (len : Nat) (cmsg : Cmsg) (control : List Cmsg) (groSegSize : UInt16) :
    walkCmsgs features before.length (cmsg :: control) groSegSize
        ⟨before ++ slot :: rest, len⟩ =
      walkCmsgs features before.length control
        ((if features.gro then readGro cmsg else none).getD groSegSize)
        ⟨before ++ annotate features [cmsg] slot :: rest, len⟩ := by
  cases cmsg with
  | udpGro segmentSize =>
      rw [walkCmsgs]
      cases h : features.gro <;>
        simp [annotate, lastOf, readGro, readTimestamp, readDstAddr]
  | scmTimestampns ts =>
      rw [walkCmsgs]
      cases h : features.timestamping <;>
        simp [annotate, lastOf, readGro, readTimestamp, readDstAddr, h,
          RecvBatchRaw.setTimestamp, pure, Except.pure, bind, Except.bind]
  | ipPktinfo ipiAddr =>
      rw [walkCmsgs]
      cases h : features.pktinfo <;>
        simp [annotate, lastOf, readGro, readTimestamp, readDstAddr, h,
          RecvBatchRaw.setDstAddr, pure, Except.pure, bind, Except.bind]
  | ipv6Pktinfo ipi6Addr =>
      rw [walkCmsgs]
      cases h : features.pktinfo <;>
        simp [annotate, lastOf, readGro, readTimestamp, readDstAddr, h,
          RecvBatchRaw.setDstAddr, pure, Except.pure, bind, Except.bind]
  | other level type =>
      simp [walkCmsgs, annotate, lastOf, readGro, readTimestamp, readDstAddr]

theorem walkCmsgs_eq (features : Features)
    (before rest : List (RecvSlot bufSize)) (slot : RecvSlot bufSize)
    (len : Nat) (control : List Cmsg) (groSegSize : UInt16) :
    walkCmsgs features before.length control groSegSize
        ⟨before ++ slot :: rest, len⟩ =
      .ok ((if features.gro then lastOf readGro control else none).getD
          groSegSize,
        ⟨before ++ annotate features control slot :: rest, len⟩) := by
  induction control generalizing slot groSegSize with
  | nil => simp [walkCmsgs, lastOf, pure, Except.pure]
  | cons cmsg control ih =>
      rw [walkCmsgs_cons, ih, ← annotate_cons, lastOf_cons]
      cases features.gro with
      | false => rfl
      | true => cases lastOf readGro control <;> rfl

/-! ## Segments -/

def segmentSlot (features : Features) (addr : SocketAddr)
    (first : RecvSlot bufSize) (segment : List UInt8)
    (slot : RecvSlot bufSize) : RecvSlot bufSize :=
  { slot.writeBuf segment with
    recvLen := UInt16.ofNat segment.length
    addr := addr
    timestamp :=
      if features.timestamping then first.timestamp else slot.timestamp
    dstAddr := if features.pktinfo then first.dstAddr else slot.dstAddr }

theorem storeSegment_eq (features : Features) (addr : SocketAddr)
    (before middle rest : List (RecvSlot bufSize))
    (first slot : RecvSlot bufSize) (len : Nat) {segment : List UInt8}
    (h : segment.length ≤ bufSize) :
    storeSegment features before.length
        (before ++ first :: middle).length addr segment
        ⟨(before ++ first :: middle) ++ slot :: rest, len⟩ =
      .ok ⟨(before ++ first :: middle) ++
        segmentSlot features addr first segment slot :: rest, len⟩ := by
  have hfirst : ∀ slot : RecvSlot bufSize,
      RecvBatchRaw.slot ⟨(before ++ first :: middle) ++ slot :: rest, len⟩
        before.length = .ok first := by
    intro slot
    rw [List.append_assoc, List.cons_append]
    exact RecvBatchRaw.slot_split before _ first len
  unfold storeSegment RecvBatchRaw.writeBuf RecvBatchRaw.setRecvLen
    RecvBatchRaw.setAddr RecvBatchRaw.setTimestamp RecvBatchRaw.setDstAddr
    RecvBatchRaw.timestamp RecvBatchRaw.dstAddr
  cases hts : features.timestamping <;> cases hdst : features.pktinfo <;>
    simp only [RecvBatchRaw.slot_split, RecvBatchRaw.modifySlot_split, h,
      hfirst, if_true, Bool.false_eq_true, if_false, bind, Except.bind, pure,
      Except.pure, segmentSlot, hts, hdst, RecvSlot.writeBuf]

theorem segment_slice (coalesced : List UInt8) (offset size : Nat) :
    (coalesced.take (min (offset + size) coalesced.length)).drop offset =
      (coalesced.drop offset).take size := by
  rw [List.drop_take]
  rcases Nat.le_total (offset + size) coalesced.length with h | h
  · rw [Nat.min_eq_left h, Nat.add_sub_cancel_left]
  · rw [Nat.min_eq_right h, List.take_of_length_le (by simp),
      List.take_of_length_le (by simp; omega)]

theorem drop_segEnd (coalesced : List UInt8) (offset size : Nat) :
    coalesced.drop (min (offset + size) coalesced.length) =
      (coalesced.drop offset).drop size := by
  rw [List.drop_drop]
  rcases Nat.le_total (offset + size) coalesced.length with h | h
  · rw [Nat.min_eq_left h]
  · rw [Nat.min_eq_right h, List.drop_eq_nil_of_le (Nat.le_refl _),
      List.drop_eq_nil_of_le h]

theorem segments_drop {size offset : Nat} {coalesced : List UInt8}
    (hsize : 0 < size) (h : offset < coalesced.length) :
    segments size (coalesced.drop offset) =
      (coalesced.drop offset).take size ::
        segments size
          (coalesced.drop (min (offset + size) coalesced.length)) := by
  have hne : coalesced.drop offset ≠ [] := by
    rw [Ne, List.drop_eq_nil_iff]
    omega
  rw [segments_cons hsize hne, drop_segEnd]

theorem splitSegments_rest (features : Features) (addr : SocketAddr)
    (before : List (RecvSlot bufSize)) (first : RecvSlot bufSize) (len : Nat)
    {size : Nat} (hsize : 0 < size) {coalesced : List UInt8}
    (hlength : coalesced.length ≤ bufSize)
    (rest middle : List (RecvSlot bufSize)) (offset : Nat) :
    splitSegments features before.length addr size coalesced
        (middle.length + 1) offset
        ⟨(before ++ first :: middle) ++ rest, len⟩ =
      .ok (middle.length + 1 +
          (List.zipWith (segmentSlot features addr first)
            (segments size (coalesced.drop offset)) rest).length,
        ⟨(before ++ first :: middle) ++
          (List.zipWith (segmentSlot features addr first)
              (segments size (coalesced.drop offset)) rest ++
            rest.drop (segments size (coalesced.drop offset)).length),
          len⟩) := by
  induction rest generalizing middle offset with
  | nil =>
      rw [splitSegments]
      split
      · simp [RecvBatchRaw.capacity]
      · simp
  | cons slot rest ih =>
      rw [splitSegments]
      split
      · next hloop =>
          have hnext : before.length + (middle.length + 1) =
              (before ++ first :: middle).length := by simp
          have hroom : ¬ before.length + (middle.length + 1) ≥
              RecvBatchRaw.capacity
                ⟨(before ++ first :: middle) ++ slot :: rest, len⟩ := by
            simp [RecvBatchRaw.capacity]
          have hpiece : ((coalesced.drop offset).take size).length ≤
              bufSize := by
            simp
            omega
          rw [if_neg (by omega), if_neg hroom, segment_slice, hnext,
            storeSegment_eq features addr before middle rest first slot len
              hpiece, segments_drop hsize hloop.1]
          have htail := ih (middle ++ [segmentSlot features addr first
            ((coalesced.drop offset).take size) slot])
            (min (offset + size) coalesced.length)
          simpa [bind, Except.bind, Nat.add_assoc, Nat.add_comm 1,
            Nat.add_comm 2] using htail
      · next hloop =>
          have hdone : coalesced.drop offset = [] := by
            rw [List.drop_eq_nil_iff]
            omega
          simp [hdone]

/-! ## One message -/

def messageSlot (features : Features) (message : Received)
    (slot : RecvSlot bufSize) : RecvSlot bufSize :=
  annotate features message.control
    { slot with
      recvLen := UInt16.ofNat message.msgLen
      addr := message.addr }

@[simp] theorem messageSlot_buf (features : Features) (message : Received)
    (slot : RecvSlot bufSize) :
    (messageSlot features message slot).buf = slot.buf := rfl

@[simp] theorem messageSlot_addr (features : Features) (message : Received)
    (slot : RecvSlot bufSize) :
    (messageSlot features message slot).addr = message.addr := rfl

def firstSlot (features : Features) (message : Received)
    (segment : List UInt8) (slot : RecvSlot bufSize) : RecvSlot bufSize :=
  { messageSlot features message slot with
    recvLen := UInt16.ofNat segment.length }

/-- The slots that a message fills and those it leaves. -/
def emit (features : Features) (message : Received)
    (slot : RecvSlot bufSize) (rest : List (RecvSlot bufSize)) :
    List (RecvSlot bufSize) × List (RecvSlot bufSize) :=
  if groSize features message.control = 0 then
    ([messageSlot features message slot], rest)
  else
    match segments (groSize features message.control)
      (slot.buf.1.take message.msgLen) with
    | [] => ([], messageSlot features message slot :: rest)
    | segment :: further =>
        (firstSlot features message segment slot ::
          List.zipWith (segmentSlot features message.addr
            (firstSlot features message segment slot)) further rest,
          rest.drop further.length)

theorem groSize_eq (features : Features) (control : List Cmsg) :
    ((if features.gro then lastOf readGro control else none).getD
      0).toNat = groSize features control := by
  unfold groSize
  split <;> rfl

theorem splitSegments_eq (features : Features) (addr : SocketAddr)
    (before rest : List (RecvSlot bufSize)) (slot : RecvSlot bufSize)
    (len : Nat) {size : Nat} (hsize : 0 < size) {coalesced : List UInt8}
    (hlength : coalesced.length ≤ bufSize) (hne : coalesced ≠ []) :
    splitSegments features before.length addr size coalesced 0 0
        ⟨before ++ slot :: rest, len⟩ =
      let first := { slot with
        recvLen := UInt16.ofNat (coalesced.take size).length }
      let further := segments size (coalesced.drop size)
      .ok (1 + (List.zipWith (segmentSlot features addr first) further
          rest).length,
        ⟨(before ++ [first]) ++
          (List.zipWith (segmentSlot features addr first) further rest ++
            rest.drop further.length), len⟩) := by
  have hloop : 0 < coalesced.length ∧ 0 < size :=
    ⟨List.length_pos_iff.mpr hne, hsize⟩
  have hfirst := splitSegments_rest features addr before
    { slot with recvLen := UInt16.ofNat (coalesced.take size).length } len
    hsize hlength rest [] (min (0 + size) coalesced.length)
  have hend : (coalesced.take size).length =
      min (0 + size) coalesced.length := by
    simp
  rw [drop_segEnd, List.drop_zero] at hfirst
  rw [splitSegments, dif_pos hloop, if_pos rfl, RecvBatchRaw.setRecvLen,
    RecvBatchRaw.modifySlot_split, Nat.sub_zero, ← hend]
  simpa [bind, Except.bind] using hfirst

theorem outputMessage_walked (features : Features) (message : Received)
    (before rest : List (RecvSlot bufSize)) (slot : RecvSlot bufSize)
    (len : Nat) :
    outputMessage features message before.length
        ⟨before ++ slot :: rest, len⟩ =
      let batch : RecvBatchRaw bufSize :=
        ⟨before ++ messageSlot features message slot :: rest, len⟩
      if 0 < groSize features message.control then do
        let coalesced ← batch.readBuf before.length message.msgLen
        let (segCount, batch) ← splitSegments features before.length
          message.addr (groSize features message.control) coalesced 0 0 batch
        return (before.length + segCount, batch)
      else .ok (before.length + 1, batch) := by
  simp only [outputMessage, RecvBatchRaw.setRecvLen, RecvBatchRaw.setAddr,
    RecvBatchRaw.modifySlot_split, bind, Except.bind, walkCmsgs_eq,
    groSize_eq, pure, Except.pure]
  rfl

theorem outputMessage_eq (features : Features) {message : Received}
    (hlen : message.msgLen ≤ bufSize) (before rest : List (RecvSlot bufSize))
    (slot : RecvSlot bufSize) (len : Nat) :
    outputMessage features message before.length
        ⟨before ++ slot :: rest, len⟩ =
      .ok ((before ++ (emit features message slot rest).1).length,
        ⟨before ++ (emit features message slot rest).1 ++
          (emit features message slot rest).2, len⟩) := by
  rw [outputMessage_walked]
  rcases Nat.eq_zero_or_pos (groSize features message.control) with
    hsize | hsize
  · simp [emit, hsize]
  · have hread := RecvBatchRaw.readBuf_eq (RecvBatchRaw.slot_split before rest
      (messageSlot features message slot) len) hlen
    rw [messageSlot_buf] at hread
    have hne : groSize features message.control ≠ 0 := by omega
    simp only [hsize, if_true, hread, bind, Except.bind, emit, hne, if_false]
    by_cases hnil : slot.buf.1.take message.msgLen = []
    · simp [hnil, splitSegments, pure, Except.pure]
    · have hlength : (slot.buf.1.take message.msgLen).length ≤ bufSize := by
        simp
        omega
      rw [splitSegments_eq features message.addr before rest _ len hsize
        hlength hnil, segments_cons hsize hnil]
      simp [pure, Except.pure, Nat.add_comm 1, firstSlot]

theorem outputMessage_full (features : Features) (message : Received)
    (slots : List (RecvSlot bufSize)) (len : Nat) :
    outputMessage features message slots.length ⟨slots, len⟩ =
      .error (.index slots.length slots.length) := by
  rw [outputMessage, RecvBatchRaw.setRecvLen,
    RecvBatchRaw.modifySlot_out_of_range (Nat.le_refl slots.length)]
  rfl

def slotCount (features : Features) (message : Received) : Nat :=
  if groSize features message.control = 0 then 1
  else segmentCount (groSize features message.control) message.msgLen

theorem emit_lengths (features : Features) {message : Received}
    (hlen : message.msgLen ≤ bufSize) (slot : RecvSlot bufSize)
    (rest : List (RecvSlot bufSize)) :
    (emit features message slot rest).1.length =
        min (slotCount features message) (rest.length + 1) ∧
      (emit features message slot rest).2.length =
        rest.length + 1 - slotCount features message := by
  by_cases hsize : groSize features message.control = 0
  · simp [emit, slotCount, hsize]
  · simp only [emit, slotCount, hsize, if_false]
    have hcount : (segments (groSize features message.control)
        (slot.buf.1.take message.msgLen)).length =
        segmentCount (groSize features message.control) message.msgLen := by
      simp [slot.buf.2, Nat.min_eq_left hlen]
    rw [← hcount]
    split
    · next hnil => simp [hnil]
    · next segment further hcons => simp [hcons]

/-! ## The loop -/

def emitAll (features : Features) :
    List Received → List (RecvSlot bufSize) →
      Option (List (RecvSlot bufSize) × List (RecvSlot bufSize))
  | [], slots => some ([], slots)
  | _ :: _, [] => none
  | message :: messages, slot :: rest =>
      let (filled, rest) := emit features message slot rest
      (emitAll features messages rest).map fun (out, rest) =>
        (filled ++ out, rest)

theorem outputLoop_eq (features : Features) (messages : List Received)
    (hlen : ∀ message ∈ messages, message.msgLen ≤ bufSize)
    (before slots : List (RecvSlot bufSize)) (len : Nat) :
    outputLoop features messages before.length ⟨before ++ slots, len⟩ =
      match emitAll features messages slots with
      | some (out, rest) =>
          .ok ((before ++ out).length, ⟨before ++ out ++ rest, len⟩)
      | none =>
          .error
            (.index (before ++ slots).length (before ++ slots).length) := by
  induction messages generalizing before slots with
  | nil => simp [outputLoop, emitAll, pure, Except.pure]
  | cons message messages ih =>
      cases slots with
      | nil =>
          rw [outputLoop, List.append_nil, outputMessage_full]
          simp [emitAll, bind, Except.bind]
      | cons slot rest =>
          have hmessage := hlen message List.mem_cons_self
          have htail := ih
            (fun message hmem => hlen message (List.mem_cons_of_mem _ hmem))
            (before ++ (emit features message slot rest).1)
            (emit features message slot rest).2
          have hlengths := emit_lengths features hmessage slot rest
          rw [outputLoop, outputMessage_eq features hmessage]
          simp only [bind, Except.bind, htail, emitAll]
          cases emitAll features messages
              (emit features message slot rest).2 with
          | some out => simp
          | none =>
              simp [hlengths]
              omega

theorem emitAll_isSome_iff (features : Features) (messages : List Received)
    (hlen : ∀ message ∈ messages, message.msgLen ≤ bufSize)
    (slots : List (RecvSlot bufSize)) :
    (emitAll features messages slots).isSome ↔
      messages = [] ∨
        (messages.dropLast.map (slotCount features)).sum < slots.length := by
  induction messages generalizing slots with
  | nil => simp [emitAll]
  | cons message messages ih =>
      cases slots with
      | nil => simp [emitAll]
      | cons slot rest =>
          have hlengths := (emit_lengths features
            (hlen message List.mem_cons_self) slot rest).2
          have htail := ih
            (fun message hmem => hlen message (List.mem_cons_of_mem _ hmem))
            (emit features message slot rest).2
          simp only [emitAll, Option.isSome_map, htail, hlengths]
          cases messages with
          | nil => simp
          | cons next messages =>
              simp
              omega

theorem emitAll_length (features : Features) {messages : List Received}
    (hlen : ∀ message ∈ messages, message.msgLen ≤ bufSize)
    {slots out rest : List (RecvSlot bufSize)}
    (h : emitAll features messages slots = some (out, rest)) :
    out.length + rest.length = slots.length := by
  induction messages generalizing slots out rest with
  | nil =>
      obtain ⟨rfl, rfl⟩ : [] = out ∧ slots = rest := by
        simpa [emitAll] using h
      simp
  | cons message messages ih =>
      cases slots with
      | nil => simp [emitAll] at h
      | cons slot slots =>
          simp only [emitAll, Option.map_eq_some_iff, Prod.mk.injEq] at h
          obtain ⟨⟨tail, rest'⟩, htail, rfl, rfl⟩ := h
          have hrest := ih
            (fun message hmem => hlen message (List.mem_cons_of_mem _ hmem))
            htail
          have hlengths := emit_lengths features
            (hlen message List.mem_cons_self) slot slots
          simp only [List.length_append, List.length_cons]
          omega

/-! ## The call -/

namespace Linux

theorem recvHeaders_ready (bufSize capacity : Nat) :
    Ready bufSize 0 capacity (recvHeaders bufSize capacity) := by
  unfold recvHeaders
  split
  · next h => exact recvStackHeaders_ready bufSize h
  · exact recvHeapHeaders_ready bufSize capacity

def delivered (features : Features) (batch : RecvBatchRaw bufSize)
    (datagrams : List Datagram) : RecvOutcome bufSize :=
  match emitAll features (datagrams.map (asReceived bufSize))
    (landed datagrams batch.slots) with
  | some (out, rest) => .ok (.ok out.length, ⟨out ++ rest, out.length⟩)
  | none => .error (.index batch.capacity batch.capacity)

theorem landed_length (datagrams : List Datagram)
    (slots : List (RecvSlot bufSize)) :
    (landed datagrams slots).length = slots.length := by
  induction datagrams generalizing slots with
  | nil => cases slots <;> rfl
  | cons datagram datagrams ih =>
      cases slots with
      | nil => rfl
      | cons slot slots => simp [landed, ih]

theorem output_eq (features : Features) (host : Host)
    (batch : RecvBatchRaw bufSize) (datagrams : List Datagram)
    (h : datagrams.length ≤ batch.capacity) :
    output features host datagrams.length
        (deliverAll host datagrams 0 (recvHeaders bufSize batch.capacity)
          batch).1
        (deliverAll host datagrams 0 (recvHeaders bufSize batch.capacity)
          batch).2 =
      delivered features batch datagrams := by
  have ready := recvHeaders_ready bufSize batch.capacity
  have hbatch : (deliverAll host datagrams 0
      (recvHeaders bufSize batch.capacity) batch).2 =
      ⟨[] ++ landed datagrams batch.slots, batch.len⟩ :=
    deliverAll_batch host ready datagrams (by omega) [] rfl h batch.len
  have hreceived := received_deliverAll host ready datagrams (by omega) batch
  have hlen : ∀ message ∈ datagrams.map (asReceived bufSize),
      message.msgLen ≤ bufSize := by
    simp [asReceived]
  have hloop := outputLoop_eq features _ hlen []
    (landed datagrams batch.slots) batch.len
  rw [output, hreceived, hbatch, ← List.length_nil, hloop, delivered]
  cases emitAll features (datagrams.map (asReceived bufSize))
      (landed datagrams batch.slots) with
  | some out =>
      simp [bind, Except.bind, pure, Except.pure, RecvBatchRaw.setLen]
  | none =>
      simp [bind, Except.bind, landed_length, RecvBatchRaw.capacity]

end Linux

def recvManyResult (n : Nat) (script : List (Except Fault Datagram)) :
    Except Fault (List Datagram) :=
  match refusal .wouldBlock n script, granted n script with
  | some fault, [] => .error fault
  | _, datagrams => .ok datagrams

theorem recvManyResult_first (n : Nat) (script : List (Except Fault Datagram)) :
    recvManyResult n script =
      if n = 0 then .ok []
      else
        match (ask .wouldBlock script).1 with
        | .error fault => .error fault
        | .ok _ => .ok (granted n script) := by
  cases n with
  | zero => simp [recvManyResult]
  | succ n =>
      rcases script with - | ⟨fault | datagram, script⟩
      · rfl
      · rfl
      · cases hrefusal : refusal .wouldBlock n script <;>
          simp [recvManyResult, refusal, granted, ask, hrefusal]

theorem recvMessages_eq (host : Host) (headers : RecvHeaders)
    (batch : RecvBatchRaw bufSize) (n : Nat) (os : Os) :
    recvMessages host headers batch n os =
      (match recvManyResult n os.recvScript with
        | .error fault => .error fault.error
        | .ok datagrams =>
            .ok (datagrams.length, deliverAll host datagrams 0 headers batch),
        { os with recvScript := remaining n os.recvScript }) := by
  rw [recvMessages, Os.receiveMany_eq, recvManyResult]
  cases refusal .wouldBlock n os.recvScript <;>
    cases granted n os.recvScript <;> rfl

theorem recvManyResult_interrupted {n : Nat}
    {script : List (Except Fault Datagram)}
    (h : recvManyResult n script = .error .interrupted) :
    0 < n ∧ ∃ rest, script = .error .interrupted :: rest := by
  unfold recvManyResult at h
  split at h
  · next fault hrefusal hgranted =>
      obtain rfl : fault = .interrupted := by simpa using h
      have hanswer := (refusal_of_granted_nil hrefusal hgranted).1
      refine ⟨Nat.pos_of_ne_zero (by rintro rfl; simp at hrefusal), ?_⟩
      cases script with
      | nil => simp [ask] at hanswer
      | cons answer rest => exact ⟨rest, by simpa [ask] using hanswer⟩
  · simp at h

theorem recvMessages_asksScript (host : Host) (headers : RecvHeaders)
    (batch : RecvBatchRaw bufSize) (n : Nat) :
    AsksScript (recvMessages host headers batch n) (fun _ => True) n
      Os.recvScript (fun os script => { os with recvScript := script }) where
  supported_put _ _ h := h
  get_put _ _ := rfl
  put_get _ := rfl
  put_put _ _ _ := rfl
  interrupted hn os rest _ hscript := by
    obtain ⟨n, rfl⟩ : ∃ k, n = k + 1 := ⟨n - 1, by omega⟩
    simp [recvMessages_eq, recvManyResult, hscript, granted, refusal,
      remaining, Fault.error, Fault.errno]
  done os _ hfront error os' hcall hkind := by
    rw [recvMessages_eq, Prod.mk.injEq] at hcall
    cases hresult : recvManyResult n os.recvScript with
    | ok datagrams => simp [hresult] at hcall
    | error fault =>
        obtain rfl : fault.error = error := by simpa [hresult] using hcall.1
        obtain rfl := fault.error_kind_interrupted.mp hkind
        obtain ⟨hn, rest, hrest⟩ := recvManyResult_interrupted hresult
        exact hfront hn rest hrest

theorem recvmmsg_asksScript (host : Host) (headers : RecvHeaders)
    (batch : RecvBatchRaw bufSize) (n : Nat) :
    AsksScript (recvmmsg host headers batch n)
      (fun os => os.hasRecvmmsg = true) n Os.recvScript
      (fun os script => { os with recvScript := script }) where
  supported_put _ _ h := h
  get_put _ _ := rfl
  put_get _ := rfl
  put_put _ _ _ := rfl
  interrupted hn os rest hos hscript := by
    rw [recvmmsg, if_pos hos]
    exact (recvMessages_asksScript host headers batch n).interrupted hn os
      rest trivial hscript
  done os hos hfront error os' hcall hkind := by
    rw [recvmmsg, if_pos hos] at hcall
    exact (recvMessages_asksScript host headers batch n).done os trivial
      hfront error os' hcall hkind

namespace Linux

def recvAnswers (batch : RecvBatchRaw bufSize) (os : Os) :
    List (Except Fault Datagram) :=
  skipInterrupted (vlen batch.capacity) os.recvScript

theorem recvManyResult_length {n : Nat}
    {script : List (Except Fault Datagram)} {datagrams : List Datagram}
    (h : recvManyResult n script = .ok datagrams) :
    datagrams = granted n script ∧ datagrams.length ≤ n := by
  unfold recvManyResult at h
  split at h
  · simp at h
  · obtain rfl : granted n script = datagrams := by simpa using h
    exact ⟨rfl, granted_length_le n script⟩

theorem recvManyResult_error {n : Nat}
    {script : List (Except Fault Datagram)} {fault : Fault}
    (h : recvManyResult n script = .error fault) :
    granted n script = [] ∧ refusal .wouldBlock n script = some fault := by
  unfold recvManyResult at h
  split at h
  · next fault' hrefusal hgranted =>
      obtain rfl : fault' = fault := by simpa using h
      exact ⟨hgranted, hrefusal⟩
  · simp at h

theorem fallbackRecv_eq (host : Host) (batch : RecvBatchRaw bufSize)
    (os : Os) :
    fallbackRecv host batch os =
      (.ok (perPacketRecvResult 0 batch.capacity os.recvScript,
        ⟨stored (granted batch.capacity os.recvScript) batch.slots,
          if granted batch.capacity os.recvScript = [] then batch.len
          else (granted batch.capacity os.recvScript).length⟩),
        { os with recvScript := remaining batch.capacity os.recvScript }) :=
  perPacketRecv_batch host batch os

theorem tryRecvBatch_of_recvmmsg (features : Features) (host : Host)
    {batch : RecvBatchRaw bufSize} (hcap : 0 < batch.capacity) {os : Os}
    (h : os.hasRecvmmsg = true) :
    tryRecvBatch features host batch os =
      (match recvManyResult (vlen batch.capacity) (recvAnswers batch os) with
        | .error fault => .ok (.error fault.error, batch)
        | .ok datagrams => delivered features batch datagrams,
        { os with recvScript :=
            remaining (vlen batch.capacity) (recvAnswers batch os) }) := by
  have hne : batch.capacity ≠ 0 := by omega
  simp only [tryRecvBatch, hne, if_false]
  rw [retryEintr_eq _ _ (recvmmsg_asksScript host
    (recvHeaders bufSize batch.capacity) batch (vlen batch.capacity)) h,
    recvmmsg, if_pos h, recvMessages_eq]
  cases hresult : recvManyResult (vlen batch.capacity)
      (recvAnswers batch os) with
  | error fault =>
      rw [recvAnswers] at hresult
      simp [hresult, recvAnswers]
  | ok datagrams =>
      have hlength := (recvManyResult_length hresult).2.trans
        (Nat.mod_le batch.capacity _)
      rw [recvAnswers] at hresult
      simp only [hresult, recvAnswers,
        output_eq features host batch datagrams hlength]

theorem tryRecvBatch_of_enosys (features : Features) (host : Host)
    {batch : RecvBatchRaw bufSize} (hcap : 0 < batch.capacity) {os : Os}
    (h : os.hasRecvmmsg = false) :
    tryRecvBatch features host batch os = fallbackRecv host batch os := by
  have hne : batch.capacity ≠ 0 := by omega
  simp only [tryRecvBatch, hne, if_false]
  have hcall : recvmmsg host (recvHeaders bufSize batch.capacity) batch
      (vlen batch.capacity) os = (.error (.os .enosys), os) := by
    simp [recvmmsg, h]
  rw [retryEintr_of_done]
  · simp [hcall, IoError.rawOsError]
  · simp [hcall, IoError.kind]

end Linux

end Binger.Platform
