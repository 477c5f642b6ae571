import Mathlib.Data.List.Perm.Subperm
import Binger.Platform.GroSplit

/-!
# Splitting coalesced messages

The payload of message `i` is in the buffer of slot `i`, but the output loop
reads it at the slot where the output of the messages before it ended.  The two
slots agree as long as every message so far filled exactly one slot.  Otherwise
the loop cuts whatever is in the slot it reads, which the results below compare
with the packets that the messages stand for.
-/

namespace Binger.Platform

open Binger.Foundation Binger.Sockaddr

variable {bufSize : Nat}

/-! ## What a message stands for -/

def returned (bufSize : Nat) (datagram : Datagram) : List UInt8 :=
  datagram.payload.take bufSize

/-- A payload cut into segments; size zero means that it was not coalesced. -/
def cut (size : Nat) (bytes : List UInt8) : List (List UInt8) :=
  if size = 0 then [bytes] else segments size bytes

def packetsOf (features : Features) (bufSize : Nat) (datagram : Datagram) :
    List (List UInt8 × SocketAddr) :=
  (cut (groSize features datagram.control) (returned bufSize datagram)).map
    fun segment => (segment, datagram.source)

def packetsOfAll (features : Features) (bufSize : Nat)
    (datagrams : List Datagram) : List (List UInt8 × SocketAddr) :=
  datagrams.flatMap (packetsOf features bufSize)

/-! ## What is read at a slot -/

/-- The pieces that the loop makes of a message whose slot holds `buf`.  The
length of a message that is not split goes through 16 bits. -/
def pieces (features : Features) (message : Received) (buf : List UInt8) :
    List (List UInt8) :=
  if groSize features message.control = 0 then
    [buf.take (message.msgLen % 2 ^ 16)]
  else segments (groSize features message.control) (buf.take message.msgLen)

theorem pieces_length (features : Features) {message : Received}
    {buf : List UInt8} (h : message.msgLen ≤ buf.length) :
    (pieces features message buf).length = slotCount features message := by
  unfold pieces slotCount
  split <;> simp [Nat.min_eq_left h]

theorem emit_splitSlots {features : Features} {message : Received}
    (hsize : groSize features message.control ≠ 0) (slot : RecvSlot bufSize)
    (rest : List (RecvSlot bufSize)) :
    (emit features message slot rest).1 =
      splitSlots features (groSize features message.control)
        (slot.buf.1.take message.msgLen) (messageSlot features message slot)
        rest := by
  rw [emit, if_neg hsize, splitSlots]
  cases segments (groSize features message.control)
    (slot.buf.1.take message.msgLen) <;> rfl

theorem emit_entries (features : Features) (message : Received)
    (slot : RecvSlot bufSize) (rest : List (RecvSlot bufSize)) :
    (emit features message slot rest).1.map RecvSlot.entry =
      ((pieces features message slot.buf.1).take (rest.length + 1)).map
        fun piece => (piece, message.addr) := by
  by_cases hsize : groSize features message.control = 0
  · simp [emit, pieces, hsize, RecvSlot.entry, RecvSlot.payload, messageSlot,
      annotate]
  · rw [emit_splitSlots hsize, pieces, if_neg hsize]
    have hfront := List.take_prefix message.msgLen
      (messageSlot features message slot).buf.1
    exact splitSlots_entries features (Nat.pos_of_ne_zero hsize)
      (groSize_lt features message.control) hfront rest

theorem emit_bufs (features : Features) {message : Received}
    (hlen : message.msgLen ≤ bufSize) (slot : RecvSlot bufSize)
    (rest : List (RecvSlot bufSize)) :
    (emit features message slot rest).2.map (fun slot => slot.buf.1) =
      ((slot :: rest).map fun slot => slot.buf.1).drop
        (slotCount features message) := by
  by_cases hsize : groSize features message.control = 0
  · simp [emit, slotCount, hsize]
  · have hcount : (segments (groSize features message.control)
        (slot.buf.1.take message.msgLen)).length =
        segmentCount (groSize features message.control) message.msgLen := by
      simp [slot.buf.2, Nat.min_eq_left hlen]
    simp only [emit, slotCount, hsize, if_false, ← hcount]
    split
    · next hnil => simp [hnil]
    · next segment further hcons => simp [hcons, List.map_drop]

theorem emit_fits (features : Features) {message : Received}
    (hlen : message.msgLen ≤ bufSize) (slot : RecvSlot bufSize)
    (rest : List (RecvSlot bufSize)) :
    ∀ filled ∈ (emit features message slot rest).1,
      filled.recvLen.toNat ≤ bufSize := by
  by_cases hsize : groSize features message.control = 0
  · have hwrap := RecvBatchRaw.recordedLen_le hlen
    simpa [emit, hsize, messageSlot, annotate] using hwrap
  · rw [emit_splitSlots hsize]
    have hfront := List.take_prefix message.msgLen
      (messageSlot features message slot).buf.1
    exact splitSlots_fits features (Nat.pos_of_ne_zero hsize)
      (groSize_lt features message.control) hfront rest

def readBack (features : Features) :
    List Received → List (List UInt8) → List (List UInt8 × SocketAddr)
  | [], _ => []
  | _ :: _, [] => []
  | message :: messages, buf :: bufs =>
      ((pieces features message buf).take (bufs.length + 1)).map
          (fun piece => (piece, message.addr)) ++
        readBack features messages
          ((buf :: bufs).drop (slotCount features message))

theorem emitAll_entries (features : Features) {messages : List Received}
    (hlen : ∀ message ∈ messages, message.msgLen ≤ bufSize)
    {slots out rest : List (RecvSlot bufSize)}
    (h : emitAll features messages slots = some (out, rest)) :
    out.map RecvSlot.entry =
        readBack features messages (slots.map fun slot => slot.buf.1) ∧
      ∀ slot ∈ out, slot.recvLen.toNat ≤ bufSize := by
  induction messages generalizing slots out rest with
  | nil =>
      obtain ⟨rfl, rfl⟩ : [] = out ∧ slots = rest := by
        simpa [emitAll] using h
      simp [readBack]
  | cons message messages ih =>
      cases slots with
      | nil => simp [emitAll] at h
      | cons slot slots =>
          have hmessage := hlen message List.mem_cons_self
          simp only [emitAll, Option.map_eq_some_iff, Prod.mk.injEq] at h
          obtain ⟨⟨tail, rest'⟩, htail, rfl, rfl⟩ := h
          obtain ⟨hentries, hfits⟩ := ih
            (fun message hmem => hlen message (List.mem_cons_of_mem _ hmem))
            htail
          rw [emit_bufs features hmessage slot slots] at hentries
          refine ⟨?_, ?_⟩
          · simp only [List.map_append, List.map_cons, readBack, hentries,
              emit_entries features message slot slots, List.length_map]
          · intro filled hmem
            rcases List.mem_append.mp hmem with hmem | hmem
            · exact emit_fits features hmessage slot slots filled hmem
            · exact hfits filled hmem

/-! ## Where messages land and where they are read -/

def slotsOf (features : Features) (bufSize : Nat) (datagram : Datagram) :
    Nat :=
  slotCount features (asReceived bufSize datagram)

def totalSlots (features : Features) (bufSize : Nat)
    (datagrams : List Datagram) : Nat :=
  (datagrams.map (slotsOf features bufSize)).sum

/-- The slot at which message `i` is read: the number of slots that the
messages before it fill. -/
def outIndex (features : Features) (bufSize : Nat)
    (datagrams : List Datagram) (i : Nat) : Nat :=
  totalSlots features bufSize (datagrams.take i)

theorem take_eq_dropLast_take {datagrams : List Datagram} {i : Nat}
    (hi : i < datagrams.length) :
    datagrams.take i = datagrams.dropLast.take i := by
  rw [List.dropLast_eq_take, List.take_take, Nat.min_eq_left (by omega)]

theorem outIndex_lt {features : Features} {datagrams : List Datagram}
    {capacity : Nat}
    (hroom : totalSlots features bufSize datagrams.dropLast < capacity)
    {i : Nat} (hi : i < datagrams.length) :
    outIndex features bufSize datagrams i < capacity := by
  have hsplit : totalSlots features bufSize datagrams.dropLast =
      totalSlots features bufSize (datagrams.dropLast.take i) +
        totalSlots features bufSize (datagrams.dropLast.drop i) := by
    unfold totalSlots
    rw [← List.sum_append, ← List.map_append, List.take_append_drop]
  rw [outIndex, take_eq_dropLast_take hi]
  omega

def landedBufs (datagrams : List Datagram)
    (batch : RecvBatchRaw bufSize) : List (List UInt8) :=
  (landed datagrams batch.slots).map fun slot => slot.buf.1

/-- Every message finds its own bytes at the slot where it is read, and a
message that is not split has a 16-bit length. -/
def InPlace (features : Features) (bufSize : Nat)
    (datagrams : List Datagram) (bufs : List (List UInt8)) : Prop :=
  ∀ i (hi : i < datagrams.length),
    (groSize features datagrams[i].control = 0 →
      (returned bufSize datagrams[i]).length < 2 ^ 16) ∧
    bufs[outIndex features bufSize datagrams i]?.map
        (List.take (returned bufSize datagrams[i]).length) =
      some (returned bufSize datagrams[i])

theorem inPlace_cons (features : Features) (bufSize : Nat)
    (datagram : Datagram) (datagrams : List Datagram) (buf : List UInt8)
    (bufs : List (List UInt8)) :
    InPlace features bufSize (datagram :: datagrams) (buf :: bufs) ↔
      ((groSize features datagram.control = 0 →
          (returned bufSize datagram).length < 2 ^ 16) ∧
        buf.take (returned bufSize datagram).length =
          returned bufSize datagram) ∧
      InPlace features bufSize datagrams
        ((buf :: bufs).drop (slotsOf features bufSize datagram)) := by
  constructor
  · intro h
    refine ⟨?_, ?_⟩
    · have hhead := h 0 (Nat.zero_lt_succ _)
      simpa [outIndex, totalSlots] using hhead
    · intro i hi
      have hstep := h (i + 1) (by simpa using hi)
      simpa [outIndex, totalSlots] using hstep
  · rintro ⟨hhead, htail⟩ i hi
    cases i with
    | zero => simpa [outIndex, totalSlots] using hhead
    | succ i =>
        have hstep := htail i (by simpa using hi)
        simpa [outIndex, totalSlots] using hstep

theorem returned_length (bufSize : Nat) (datagram : Datagram) :
    (returned bufSize datagram).length =
      (asReceived bufSize datagram).msgLen := by
  simp [returned, asReceived]

theorem packetsOf_length (features : Features) (bufSize : Nat)
    (datagram : Datagram) :
    (packetsOf features bufSize datagram).length =
      slotsOf features bufSize datagram := by
  unfold packetsOf slotsOf slotCount cut
  rw [← returned_length]
  by_cases hsize : groSize features datagram.control = 0 <;>
    simp [asReceived, hsize]

theorem pieces_eq_iff (features : Features) (datagram : Datagram)
    {buf : List UInt8} (hbuf : buf.length = bufSize) :
    (pieces features (asReceived bufSize datagram) buf).map
        (fun piece => (piece, datagram.source)) =
        packetsOf features bufSize datagram ↔
      (groSize features datagram.control = 0 →
        (returned bufSize datagram).length < 2 ^ 16) ∧
      buf.take (returned bufSize datagram).length =
        returned bufSize datagram := by
  have hinjective : Function.Injective
      fun piece : List UInt8 => (piece, datagram.source) :=
    fun first second h => congrArg Prod.fst h
  have hlength : (returned bufSize datagram).length ≤ buf.length := by
    simp [returned, hbuf]
  rw [packetsOf, (List.map_injective_iff.mpr hinjective).eq_iff, pieces,
    ← returned_length, cut]
  simp only [asReceived]
  by_cases hsize : groSize features datagram.control = 0
  · simp only [hsize, if_true, List.cons.injEq, and_true, true_implies]
    constructor
    · intro h
      have hcount := congrArg List.length h
      rw [List.length_take] at hcount
      have hlt := Nat.mod_lt (returned bufSize datagram).length
        (Nat.two_pow_pos 16)
      have hsmall : (returned bufSize datagram).length < 2 ^ 16 := by omega
      rw [Nat.mod_eq_of_lt hsmall] at h
      exact ⟨hsmall, h⟩
    · rintro ⟨hsmall, h⟩
      rw [Nat.mod_eq_of_lt hsmall, h]
  · simp only [hsize, if_false, false_implies, true_and]
    exact (segments_injective (Nat.pos_of_ne_zero hsize)).eq_iff

theorem append_eq_append_iff_of_length {α : Type} {first second : List α}
    (h : first.length = second.length) (tail tail' : List α) :
    first ++ tail = second ++ tail' ↔ first = second ∧ tail = tail' := by
  constructor
  · intro happend
    exact List.append_inj happend h
  · rintro ⟨rfl, rfl⟩
    rfl

structure Roomy (features : Features) (bufSize : Nat)
    (datagrams : List Datagram) (n : Nat) : Prop where
  slot : datagrams = [] ∨
    totalSlots features bufSize datagrams.dropLast < n
  total : totalSlots features bufSize datagrams ≤ n

theorem Roomy.cons {features : Features} {datagram : Datagram}
    {datagrams : List Datagram} {n : Nat}
    (h : Roomy features bufSize (datagram :: datagrams) n) :
    0 < n ∧ slotsOf features bufSize datagram ≤ n ∧
      Roomy features bufSize datagrams
        (n - slotsOf features bufSize datagram) := by
  obtain ⟨hslot, htotal⟩ := h
  simp only [totalSlots, List.map_cons, List.sum_cons] at htotal
  have hslot : totalSlots features bufSize (datagram :: datagrams).dropLast <
      n := by simpa using hslot
  refine ⟨by omega, by omega, ?_, ?_⟩
  · cases datagrams with
    | nil => exact .inl rfl
    | cons next datagrams =>
        right
        simp only [totalSlots, List.dropLast_cons_cons, List.map_cons,
          List.sum_cons] at hslot ⊢
        omega
  · unfold totalSlots
    omega

@[elab_as_elim]
theorem Roomy.induct {features : Features}
    {motive : List Datagram → List (List UInt8) → Prop}
    (nil : ∀ bufs, motive [] bufs)
    (cons : ∀ datagram datagrams buf bufs, buf.length = bufSize →
      (pieces features (asReceived bufSize datagram) buf).length =
        slotsOf features bufSize datagram →
      slotsOf features bufSize datagram ≤ bufs.length + 1 →
      motive datagrams
        ((buf :: bufs).drop (slotsOf features bufSize datagram)) →
      motive (datagram :: datagrams) (buf :: bufs))
    {datagrams : List Datagram} {bufs : List (List UInt8)}
    (hbufs : ∀ buf ∈ bufs, buf.length = bufSize)
    (roomy : Roomy features bufSize datagrams bufs.length) :
    motive datagrams bufs := by
  induction datagrams generalizing bufs with
  | nil => exact nil bufs
  | cons datagram datagrams ih =>
      obtain ⟨hpos, hfit, htail⟩ := roomy.cons
      cases bufs with
      | nil => simp at hpos
      | cons buf bufs =>
          have hbuf := hbufs buf List.mem_cons_self
          rw [← List.length_drop] at htail
          exact cons datagram datagrams buf bufs hbuf
            (pieces_length features (by simp [asReceived, hbuf])) hfit
            (ih (fun other hmem => hbufs other (List.mem_of_mem_drop hmem))
              htail)

/-- The pieces cut from what is in the buffers at the slots where the messages
are read. -/
def foundPieces (features : Features) (bufSize : Nat)
    (datagrams : List Datagram) (bufs : List (List UInt8)) :
    List (List UInt8 × SocketAddr) :=
  datagrams.zipIdx.flatMap fun (datagram, i) =>
    match bufs[outIndex features bufSize datagrams i]? with
    | some buf =>
        (pieces features (asReceived bufSize datagram) buf).map
          fun piece => (piece, datagram.source)
    | none => []

theorem foundPieces_cons (features : Features) (bufSize : Nat)
    (datagram : Datagram) (datagrams : List Datagram) (buf : List UInt8)
    (bufs : List (List UInt8)) :
    foundPieces features bufSize (datagram :: datagrams) (buf :: bufs) =
      (pieces features (asReceived bufSize datagram) buf).map
          (fun piece => (piece, datagram.source)) ++
        foundPieces features bufSize datagrams
          ((buf :: bufs).drop (slotsOf features bufSize datagram)) := by
  unfold foundPieces
  rw [List.zipIdx_cons, List.flatMap_cons, Nat.zero_add]
  congr 1
  rw [List.zipIdx_succ, List.flatMap_map]
  simp [outIndex, totalSlots, List.getElem?_drop]

theorem readBack_eq_foundPieces (features : Features)
    {datagrams : List Datagram} {bufs : List (List UInt8)}
    (hbufs : ∀ buf ∈ bufs, buf.length = bufSize)
    (roomy : Roomy features bufSize datagrams bufs.length) :
    readBack features (datagrams.map (asReceived bufSize)) bufs =
      foundPieces features bufSize datagrams bufs := by
  refine Roomy.induct ?nil ?cons hbufs roomy
  case nil =>
    intro bufs
    rfl
  case cons =>
    intro datagram datagrams buf bufs hbuf hlength hfit ih
    rw [foundPieces_cons, ← ih, List.map_cons, readBack,
      List.take_of_length_le (by omega)]
    rfl

theorem foundPieces_eq_iff (features : Features)
    {datagrams : List Datagram} {bufs : List (List UInt8)}
    (hbufs : ∀ buf ∈ bufs, buf.length = bufSize)
    (roomy : Roomy features bufSize datagrams bufs.length) :
    foundPieces features bufSize datagrams bufs =
        packetsOfAll features bufSize datagrams ↔
      InPlace features bufSize datagrams bufs := by
  refine Roomy.induct ?nil ?cons hbufs roomy
  case nil =>
    intro bufs
    simp [foundPieces, packetsOfAll, InPlace]
  case cons =>
    intro datagram datagrams buf bufs hbuf hlength hfit ih
    rw [inPlace_cons, ← pieces_eq_iff features datagram hbuf, ← ih,
      foundPieces_cons, packetsOfAll, List.flatMap_cons]
    apply append_eq_append_iff_of_length
    rw [List.length_map, hlength, packetsOf_length]

theorem packetsOfAll_length (features : Features) (bufSize : Nat)
    (datagrams : List Datagram) :
    (packetsOfAll features bufSize datagrams).length =
      totalSlots features bufSize datagrams := by
  simp [packetsOfAll, totalSlots, List.length_flatMap, packetsOf_length]

theorem foundPieces_length (features : Features)
    {datagrams : List Datagram} {bufs : List (List UInt8)}
    (hbufs : ∀ buf ∈ bufs, buf.length = bufSize)
    (roomy : Roomy features bufSize datagrams bufs.length) :
    (foundPieces features bufSize datagrams bufs).length =
      totalSlots features bufSize datagrams := by
  refine Roomy.induct ?nil ?cons hbufs roomy
  case nil =>
    intro bufs
    rfl
  case cons =>
    intro datagram datagrams buf bufs hbuf hlength hfit ih
    rw [foundPieces_cons, List.length_append, List.length_map, hlength, ih]
    simp [totalSlots]

/-! ## The call -/

namespace Linux

def recvDatagrams (batch : RecvBatchRaw bufSize) (os : Os) : List Datagram :=
  granted (vlen batch.capacity) (recvAnswers batch os)

theorem landedBufs_length (datagrams : List Datagram)
    (batch : RecvBatchRaw bufSize) :
    (landedBufs datagrams batch).length = batch.capacity := by
  simp [landedBufs, landed_length, RecvBatchRaw.capacity]

theorem emitAll_datagrams_isSome_iff (features : Features)
    (datagrams : List Datagram) (slots : List (RecvSlot bufSize)) :
    (emitAll features (datagrams.map (asReceived bufSize)) slots).isSome ↔
      datagrams = [] ∨
        totalSlots features bufSize datagrams.dropLast < slots.length := by
  rw [emitAll_isSome_iff features _ (by simp [asReceived])]
  simp only [List.map_eq_nil_iff, ← List.map_dropLast, List.map_map]
  rfl

theorem delivered_no_panic_iff (features : Features)
    (batch : RecvBatchRaw bufSize) (datagrams : List Datagram) :
    (∀ panic, delivered features batch datagrams ≠ .error panic) ↔
      datagrams = [] ∨
        totalSlots features bufSize datagrams.dropLast < batch.capacity := by
  have hiff := emitAll_datagrams_isSome_iff features datagrams
    (landed datagrams batch.slots)
  rw [landed_length] at hiff
  rw [RecvBatchRaw.capacity, ← hiff, delivered]
  cases emitAll features (datagrams.map (asReceived bufSize))
      (landed datagrams batch.slots) <;> simp

/-- A receive does not panic exactly when the messages before the last one
leave a slot of the batch. -/
theorem tryRecvBatch_no_panic_iff (features : Features) (host : Host)
    (batch : RecvBatchRaw bufSize) (os : Os) :
    (∀ panic, (tryRecvBatch features host batch os).1 ≠ .error panic) ↔
      (os.hasRecvmmsg = true → recvDatagrams batch os = [] ∨
        totalSlots features bufSize (recvDatagrams batch os).dropLast <
          batch.capacity) := by
  rcases Nat.eq_zero_or_pos batch.capacity with hzero | hcap
  · have hnone : recvDatagrams batch os = [] := by
      simp [recvDatagrams, hzero, vlen]
    simp [tryRecvBatch, hzero, hnone]
  · cases h : os.hasRecvmmsg with
    | false =>
        rw [tryRecvBatch_of_enosys features host hcap h, fallbackRecv_eq]
        simp
    | true =>
        rw [tryRecvBatch_of_recvmmsg features host hcap h]
        cases hresult : recvManyResult (vlen batch.capacity)
            (recvAnswers batch os) with
        | error fault =>
            simp [recvDatagrams, (recvManyResult_error hresult).1]
        | ok datagrams =>
            rw [recvDatagrams, ← (recvManyResult_length hresult).1]
            simpa using delivered_no_panic_iff features batch datagrams

def groOnly : Features := ⟨true, false, false⟩

def loopbackSource : SocketAddr := .v4 .loopback 7

def coalescedOs : Os where
  peer := none
  hasSendmmsg := true
  hasRecvmmsg := true
  hasSendmsgX := false
  hasRecvmsgX := false
  sendScript := []
  recvScript := [.ok ⟨[1, 2], loopbackSource, [.udpGro 1]⟩,
    .ok ⟨[9], loopbackSource, []⟩]
  wire := []

/-- Two slots are used up by the first of two messages. -/
theorem tryRecvBatch_out_of_range :
    (tryRecvBatch groOnly ⟨.linux, .little⟩ (.withCapacity 2 4)
      coalescedOs).1 = .error (.index 2 2) := by
  rw [tryRecvBatch_of_recvmmsg _ _ (by decide) rfl]
  rfl

theorem delivered_ok {features : Features} {batch batch' : RecvBatchRaw bufSize}
    {datagrams : List Datagram} {m : Nat}
    (h : delivered features batch datagrams = .ok (.ok m, batch')) :
    batch'.read m = .ok (readBack features
        (datagrams.map (asReceived bufSize)) (landedBufs datagrams batch)) ∧
      batch'.len = m ∧
      (readBack features (datagrams.map (asReceived bufSize))
        (landedBufs datagrams batch)).length ≤ batch.capacity ∧
      (datagrams = [] ∨
        totalSlots features bufSize datagrams.dropLast < batch.capacity) := by
  have hroom := (delivered_no_panic_iff features batch datagrams).mp
    (by simp [h])
  unfold delivered at h
  split at h
  · next out rest hemit =>
      obtain ⟨rfl, rfl⟩ : out.length = m ∧
          (⟨out ++ rest, out.length⟩ : RecvBatchRaw bufSize) = batch' := by
        simpa using h
      obtain ⟨hentries, hfits⟩ := emitAll_entries features
        (by simp [asReceived]) hemit
      have hlength := emitAll_length features (by simp [asReceived]) hemit
      rw [landed_length] at hlength
      rw [landedBufs, ← hentries]
      refine ⟨RecvBatchRaw.read_eq out rest _ hfits, rfl, ?_, hroom⟩
      rw [RecvBatchRaw.capacity, List.length_map]
      omega
  · simp at h

theorem tryRecvBatch_ok {features : Features} {host : Host}
    {batch batch' : RecvBatchRaw bufSize} {os os' : Os} {m : Nat}
    (h : os.hasRecvmmsg = true)
    (hok : tryRecvBatch features host batch os =
      (.ok (.ok m, batch'), os')) :
    batch'.read m = .ok (readBack features
        ((recvDatagrams batch os).map (asReceived bufSize))
        (landedBufs (recvDatagrams batch os) batch)) ∧
      (0 < batch.capacity → batch'.len = m) ∧
      (readBack features ((recvDatagrams batch os).map (asReceived bufSize))
        (landedBufs (recvDatagrams batch os) batch)).length ≤
          batch.capacity ∧
      (recvDatagrams batch os = [] ∨
        totalSlots features bufSize (recvDatagrams batch os).dropLast <
          batch.capacity) := by
  rcases Nat.eq_zero_or_pos batch.capacity with hzero | hcap
  · have hnone : recvDatagrams batch os = [] := by
      simp [recvDatagrams, hzero, vlen]
    obtain ⟨⟨rfl, rfl⟩, rfl⟩ : (0 = m ∧ batch = batch') ∧ os = os' := by
      simpa [tryRecvBatch, hzero] using hok
    rw [hnone]
    exact ⟨rfl, by omega, by simp [readBack], .inl rfl⟩
  · rw [tryRecvBatch_of_recvmmsg features host hcap h, Prod.mk.injEq] at hok
    cases hresult : recvManyResult (vlen batch.capacity)
        (recvAnswers batch os) with
    | error fault => simp [hresult] at hok
    | ok datagrams =>
        rw [recvDatagrams, ← (recvManyResult_length hresult).1]
        rw [hresult] at hok
        obtain ⟨hread, hlen, hroom⟩ := delivered_ok hok.1
        exact ⟨hread, fun _ => hlen, hroom⟩

theorem landedBufs_bufSize (datagrams : List Datagram)
    (batch : RecvBatchRaw bufSize) :
    ∀ buf ∈ landedBufs datagrams batch, buf.length = bufSize := by
  intro buf hmem
  obtain ⟨slot, -, rfl⟩ := List.mem_map.mp hmem
  exact slot.buf.2

theorem inPlace_landedBufs (features : Features) {datagrams : List Datagram}
    (hone : ∀ datagram ∈ datagrams.dropLast,
      slotsOf features bufSize datagram = 1)
    (hsmall : ∀ datagram ∈ datagrams,
      (returned bufSize datagram).length < 2 ^ 16)
    {batch : RecvBatchRaw bufSize}
    (hlen : datagrams.length ≤ batch.capacity) :
    InPlace features bufSize datagrams (landedBufs datagrams batch) := by
  obtain ⟨slots, len⟩ := batch
  rw [RecvBatchRaw.capacity] at hlen
  rw [landedBufs]
  induction datagrams generalizing slots with
  | nil => simp [InPlace]
  | cons datagram datagrams ih =>
      cases slots with
      | nil => simp at hlen
      | cons slot slots =>
          rw [landed, List.map_cons, inPlace_cons]
          refine ⟨⟨fun _ => hsmall datagram List.mem_cons_self,
            take_writePrefix _ _⟩, ?_⟩
          cases datagrams with
          | nil => simp [InPlace]
          | cons next datagrams =>
              rw [hone datagram (by simp), List.drop_one, List.tail_cons]
              refine ih (fun other hmem => hone other ?_)
                (fun other hmem => hsmall other (List.mem_cons_of_mem _ hmem))
                slots (Nat.le_of_succ_le_succ hlen)
              rw [List.dropLast_cons_cons]
              exact List.mem_cons_of_mem _ hmem

/-- When the batch has room for all packets, a successful receive delivers
them in order exactly when every message is found in place. -/
theorem tryRecvBatch_in_order_iff {features : Features} {host : Host}
    {batch batch' : RecvBatchRaw bufSize} {os os' : Os} {m : Nat}
    (h : os.hasRecvmmsg = true)
    (htotal : totalSlots features bufSize (recvDatagrams batch os) ≤
      batch.capacity)
    (hok : tryRecvBatch features host batch os =
      (.ok (.ok m, batch'), os')) :
    batch'.read m =
        .ok (packetsOfAll features bufSize (recvDatagrams batch os)) ↔
      InPlace features bufSize (recvDatagrams batch os)
        (landedBufs (recvDatagrams batch os) batch) := by
  obtain ⟨hread, -, -, hroom⟩ := tryRecvBatch_ok h hok
  have hbufs := landedBufs_bufSize (recvDatagrams batch os) batch
  have roomy : Roomy features bufSize (recvDatagrams batch os)
      (landedBufs (recvDatagrams batch os) batch).length := by
    rw [landedBufs_length]
    exact ⟨hroom, htotal⟩
  rw [hread, Except.ok.injEq, readBack_eq_foundPieces features hbufs roomy]
  exact foundPieces_eq_iff features hbufs roomy

def plainOs : Os :=
  { coalescedOs with
    recvScript := [.ok ⟨[1, 2], loopbackSource, []⟩,
      .ok ⟨[9], loopbackSource, []⟩] }

theorem plain_messages_in_order :
    ∃ batch' os',
      tryRecvBatch groOnly ⟨.linux, .little⟩ (.withCapacity 3 4) plainOs =
        (.ok (.ok 2, batch'), os') ∧
      batch'.read 2 = .ok (packetsOfAll groOnly 4
        (recvDatagrams (.withCapacity 3 4) plainOs)) := by
  have hcap : 0 < RecvBatchRaw.capacity (.withCapacity 3 4) := by decide
  have hcall := tryRecvBatch_of_recvmmsg groOnly ⟨.linux, .little⟩ hcap
    (show plainOs.hasRecvmmsg = true from rfl)
  have hplace : InPlace groOnly 4
      (recvDatagrams (.withCapacity 3 4) plainOs)
      (landedBufs (recvDatagrams (.withCapacity 3 4) plainOs)
        (.withCapacity 3 4)) :=
    inPlace_landedBufs groOnly (by decide) (by decide) (by decide)
  exact ⟨_, _, hcall,
    (tryRecvBatch_in_order_iff rfl (by decide) hcall).mpr hplace⟩

/-- The message behind a coalesced one is read from an empty slot. -/
theorem tryRecvBatch_displaced :
    totalSlots groOnly 4 (recvDatagrams (.withCapacity 3 4) coalescedOs) ≤ 3 ∧
    ∃ batch' os',
      tryRecvBatch groOnly ⟨.linux, .little⟩ (.withCapacity 3 4)
        coalescedOs = (.ok (.ok 3, batch'), os') ∧
      batch'.read 3 ≠ .ok (packetsOfAll groOnly 4
        (recvDatagrams (.withCapacity 3 4) coalescedOs)) := by
  have hcap : 0 < RecvBatchRaw.capacity (.withCapacity 3 4) := by decide
  have hcall := tryRecvBatch_of_recvmmsg groOnly ⟨.linux, .little⟩ hcap
    (show coalescedOs.hasRecvmmsg = true from rfl)
  exact ⟨by decide, _, _, hcall, by decide⟩

end Linux

end Binger.Platform
