import Binger.Platform.Send

/-!
# Message headers of a batched receive

`recvmmsg` finds the buffers, the address storages and the control buffers
through pointers in the headers.  A pointer is the index of the element it
points to; the base of an I/O vector is the slot that owns the buffer.  The
stack branch fills zeroed arrays of `MAX_STACK` elements, the heap branch
pushes elements and sets the I/O vector pointers in a second pass.
-/

namespace Binger.Platform

open Binger.Foundation Binger.Sockaddr

def cmsgBufSize : Nat := 256

def storageSize : Nat := 128

structure Iovec where
  base : Nat
  len : Nat
  deriving DecidableEq, Repr

structure RecvMsghdr where
  msgName : Option Nat
  msgNamelen : Nat
  msgIov : Option Nat
  msgIovlen : Nat
  msgControl : Option Nat
  msgControllen : Nat
  msgLen : Nat
  deriving DecidableEq, Repr

def RecvMsghdr.zeroed : RecvMsghdr := ⟨none, 0, none, 0, none, 0, 0⟩

/-- The control buffers hold the messages that the cmsg macros walk over. -/
structure RecvHeaders where
  msgs : List RecvMsghdr
  iovecs : List Iovec
  addrs : List Storage
  cmsgBufs : List (List Cmsg)

/-! ## The two branches -/

def recvStackFill (bufSize : Nat) : Nat → Nat → RecvHeaders → RecvHeaders
  | 0, _, headers => headers
  | slots + 1, i, headers =>
      recvStackFill bufSize slots (i + 1)
        { headers with
          iovecs := headers.iovecs.set i ⟨i, bufSize⟩
          msgs := headers.msgs.modify i fun msg =>
            { msg with
              msgName := some i
              msgNamelen := storageSize
              msgIov := some i
              msgIovlen := 1
              msgControl := some i
              msgControllen := cmsgBufSize } }

/-- The arrays have `MAX_STACK` elements, so the indices of up to that many
slots are in bounds. -/
def recvStackHeaders (bufSize capacity : Nat) : RecvHeaders :=
  recvStackFill bufSize capacity 0
    { msgs := List.replicate maxStack .zeroed
      iovecs := List.replicate maxStack ⟨0, 0⟩
      addrs := List.replicate maxStack zeroedStorage
      cmsgBufs := List.replicate maxStack [] }

def recvHeapFill (bufSize : Nat) : Nat → Nat → RecvHeaders → RecvHeaders
  | 0, _, headers => headers
  | slots + 1, i, headers =>
      recvHeapFill bufSize slots (i + 1)
        { headers with
          iovecs := headers.iovecs ++ [⟨i, bufSize⟩]
          msgs := headers.msgs ++
            [{ RecvMsghdr.zeroed with
              msgName := some i
              msgNamelen := storageSize
              msgIovlen := 1
              msgControl := some i
              msgControllen := cmsgBufSize }] }

def linkIovecs : Nat → List RecvMsghdr → List RecvMsghdr
  | _, [] => []
  | i, msg :: msgs => { msg with msgIov := some i } :: linkIovecs (i + 1) msgs

def recvHeapHeaders (bufSize capacity : Nat) : RecvHeaders :=
  let headers := recvHeapFill bufSize capacity 0
    { msgs := []
      iovecs := []
      addrs := List.replicate capacity zeroedStorage
      cmsgBufs := List.replicate capacity [] }
  { headers with msgs := linkIovecs 0 headers.msgs }

/-! ## Both branches lead to the same headers -/

def slotHeader (i : Nat) : RecvMsghdr :=
  ⟨some i, storageSize, some i, 1, some i, cmsgBufSize, 0⟩

structure Ready (bufSize first capacity : Nat) (headers : RecvHeaders) :
    Prop where
  msgs : ∀ i, first ≤ i → i < capacity →
    headers.msgs[i]? = some (slotHeader i)
  iovecs : ∀ i, first ≤ i → i < capacity →
    headers.iovecs[i]? = some ⟨i, bufSize⟩
  control : ∀ i header, i < capacity → headers.msgs[i]? = some header →
    header.msgControl = some i
  addrs : capacity ≤ headers.addrs.length
  cmsgBufs : capacity ≤ headers.cmsgBufs.length

def recvStackStep (bufSize i : Nat) (headers : RecvHeaders) : RecvHeaders :=
  recvStackFill bufSize 1 i headers

theorem recvStackFill_succ (bufSize slots i : Nat) (headers : RecvHeaders) :
    recvStackFill bufSize (slots + 1) i headers =
      recvStackFill bufSize slots (i + 1) (recvStackStep bufSize i headers) :=
  rfl

theorem recvStackFill_keeps (bufSize slots : Nat) {i j : Nat} (h : j < i)
    (headers : RecvHeaders) :
    (recvStackFill bufSize slots i headers).msgs[j]? = headers.msgs[j]? ∧
      (recvStackFill bufSize slots i headers).iovecs[j]? =
        headers.iovecs[j]? := by
  induction slots generalizing i headers with
  | zero => exact ⟨rfl, rfl⟩
  | succ slots ih =>
      obtain ⟨hmsgs, hiovecs⟩ := ih (Nat.lt_succ_of_lt h)
        (recvStackStep bufSize i headers)
      have hne : i ≠ j := by omega
      rw [recvStackFill_succ, hmsgs, hiovecs]
      simp [recvStackStep, recvStackFill, hne]

theorem recvStackFill_lengths (bufSize slots i : Nat) (headers : RecvHeaders) :
    (recvStackFill bufSize slots i headers).addrs = headers.addrs ∧
      (recvStackFill bufSize slots i headers).cmsgBufs =
        headers.cmsgBufs := by
  induction slots generalizing i headers with
  | zero => exact ⟨rfl, rfl⟩
  | succ slots ih => exact ih (i + 1) (recvStackStep bufSize i headers)

theorem recvStackFill_at {bufSize slots i j : Nat} {headers : RecvHeaders}
    (hmsgs : ∀ k, i ≤ k → k < i + slots →
      headers.msgs[k]? = some RecvMsghdr.zeroed)
    (hiovecs : i + slots ≤ headers.iovecs.length) (hle : i ≤ j)
    (hlt : j < i + slots) :
    (recvStackFill bufSize slots i headers).msgs[j]? = some (slotHeader j) ∧
      (recvStackFill bufSize slots i headers).iovecs[j]? =
        some ⟨j, bufSize⟩ := by
  induction slots generalizing i headers with
  | zero => omega
  | succ slots ih =>
      rw [recvStackFill_succ]
      rcases Nat.eq_or_lt_of_le hle with rfl | hlt'
      · have hkeep := recvStackFill_keeps bufSize slots
          (Nat.lt_succ_self i) (recvStackStep bufSize i headers)
        rw [hkeep.1, hkeep.2]
        have hi : i < headers.iovecs.length := by omega
        simp [recvStackStep, recvStackFill, hmsgs i (Nat.le_refl i) hlt, hi,
          slotHeader, RecvMsghdr.zeroed]
      · refine ih ?_ ?_ hlt' (by omega)
        · intro k hle' hlt''
          have hne : i ≠ k := by omega
          have hk := hmsgs k (by omega) (by omega)
          simpa [recvStackStep, recvStackFill, hne] using hk
        · simp [recvStackStep, recvStackFill]
          omega

def recvStackHeadersIn (room bufSize capacity : Nat) : RecvHeaders :=
  recvStackFill bufSize capacity 0
    { msgs := List.replicate room .zeroed
      iovecs := List.replicate room ⟨0, 0⟩
      addrs := List.replicate room zeroedStorage
      cmsgBufs := List.replicate room [] }

theorem recvStackHeadersIn_areas (room bufSize capacity : Nat) :
    (recvStackHeadersIn room bufSize capacity).addrs =
        List.replicate room zeroedStorage ∧
      (recvStackHeadersIn room bufSize capacity).cmsgBufs =
        List.replicate room [] :=
  recvStackFill_lengths bufSize capacity 0 _

theorem recvStackHeadersIn_ready (bufSize : Nat) {room capacity : Nat}
    (h : capacity ≤ room) :
    Ready bufSize 0 capacity (recvStackHeadersIn room bufSize capacity) := by
  have hareas := recvStackHeadersIn_areas room bufSize capacity
  have hat : ∀ i < capacity,
      (recvStackHeadersIn room bufSize capacity).msgs[i]? =
          some (slotHeader i) ∧
        (recvStackHeadersIn room bufSize capacity).iovecs[i]? =
          some ⟨i, bufSize⟩ := by
    intro i hi
    refine recvStackFill_at ?_ (by simpa using h) (Nat.zero_le i) (by omega)
    intro k _ hk
    exact List.getElem?_replicate_of_lt (by omega)
  constructor
  case msgs => exact fun i _ hi => (hat i hi).1
  case iovecs => exact fun i _ hi => (hat i hi).2
  case control =>
    intro i header hi hheader
    rw [(hat i hi).1, Option.some.injEq] at hheader
    rw [← hheader]
    rfl
  case addrs => rw [hareas.1, List.length_replicate]; exact h
  case cmsgBufs => rw [hareas.2, List.length_replicate]; exact h

theorem recvStackHeaders_ready (bufSize : Nat) {capacity : Nat}
    (h : capacity ≤ maxStack) :
    Ready bufSize 0 capacity (recvStackHeaders bufSize capacity) :=
  recvStackHeadersIn_ready bufSize h

def unlinkedHeader (i : Nat) : RecvMsghdr :=
  ⟨some i, storageSize, none, 1, some i, cmsgBufSize, 0⟩

theorem recvHeapFill_eq (bufSize slots i : Nat) (headers : RecvHeaders) :
    recvHeapFill bufSize slots i headers =
      { headers with
        iovecs := headers.iovecs ++
          (List.range' i slots).map fun k => ⟨k, bufSize⟩
        msgs := headers.msgs ++
          (List.range' i slots).map unlinkedHeader } := by
  induction slots generalizing i headers with
  | zero => simp [recvHeapFill]
  | succ slots ih =>
      simp [recvHeapFill, ih, List.range'_succ, unlinkedHeader,
        RecvMsghdr.zeroed]

theorem linkIovecs_range (slots i : Nat) :
    linkIovecs i ((List.range' i slots).map unlinkedHeader) =
      (List.range' i slots).map slotHeader := by
  induction slots generalizing i with
  | zero => rfl
  | succ slots ih =>
      simp [List.range'_succ, linkIovecs, ih, slotHeader, unlinkedHeader]

theorem recvHeapHeaders_ready (bufSize capacity : Nat) :
    Ready bufSize 0 capacity (recvHeapHeaders bufSize capacity) := by
  constructor
  case msgs =>
    intro i _ hi
    simp [recvHeapHeaders, recvHeapFill_eq, linkIovecs_range, hi]
  case iovecs =>
    intro i _ hi
    simp [recvHeapHeaders, recvHeapFill_eq, hi]
  case control =>
    intro i header hi hheader
    have hmsg : slotHeader i = header := by
      simpa [recvHeapHeaders, recvHeapFill_eq, linkIovecs_range, hi] using
        hheader
    rw [← hmsg]
    rfl
  case addrs => simp [recvHeapHeaders, recvHeapFill_eq]
  case cmsgBufs => simp [recvHeapHeaders, recvHeapFill_eq]

/-! ## What the kernel writes through the pointers -/

structure Received where
  msgLen : Nat
  addr : SocketAddr
  control : List Cmsg
  deriving DecidableEq

section Deliver

variable {bufSize : Nat} (host : Host)

/-- The kernel delivers a datagram to header `i`: at most `iov_len` bytes go to
the buffer, the source to the storage, and the lengths to the header. -/
def deliver (i : Nat) (datagram : Datagram) (headers : RecvHeaders)
    (batch : RecvBatchRaw bufSize) : RecvHeaders × RecvBatchRaw bufSize :=
  match headers.msgs[i]? with
  | none => (headers, batch)
  | some header =>
      let iovec := header.msgIov.bind fun idx => headers.iovecs[idx]?
      let bytes := match iovec with
        | some iovec => datagram.payload.take iovec.len
        | none => []
      let slots := match iovec with
        | some iovec => batch.slots.modify iovec.base (RecvSlot.writeBuf bytes)
        | none => batch.slots
      let (storage, namelen) :=
        encodeSockaddr host datagram.source zeroedStorage
      ({ headers with
          msgs := headers.msgs.set i
            { header with msgNamelen := namelen, msgLen := bytes.length }
          addrs := match header.msgName with
            | some idx => headers.addrs.set idx storage
            | none => headers.addrs
          cmsgBufs := match header.msgControl with
            | some idx => headers.cmsgBufs.set idx datagram.control
            | none => headers.cmsgBufs },
        { batch with slots := slots })

def deliverAll : List Datagram → Nat → RecvHeaders → RecvBatchRaw bufSize →
    RecvHeaders × RecvBatchRaw bufSize
  | [], _, headers, batch => (headers, batch)
  | datagram :: datagrams, i, headers, batch =>
      let (headers, batch) := deliver host i datagram headers batch
      deliverAll datagrams (i + 1) headers batch

/-- Message `i` as the output loop reads it: `msgs[i]`, `addrs[i]` and the
control buffer that the header points to. -/
def RecvHeaders.received (headers : RecvHeaders) (i : Nat) :
    Option Received := do
  let header ← headers.msgs[i]?
  let storage ← headers.addrs[i]?
  let control ← headers.cmsgBufs[← header.msgControl]?
  return ⟨header.msgLen, decodeSockaddr host storage header.msgNamelen,
    control⟩

def asReceived (bufSize : Nat) (datagram : Datagram) : Received :=
  ⟨min bufSize datagram.payload.length, datagram.source, datagram.control⟩

def landed : List Datagram → List (RecvSlot bufSize) → List (RecvSlot bufSize)
  | datagram :: datagrams, slot :: slots =>
      slot.writeBuf datagram.payload :: landed datagrams slots
  | _, slots => slots

theorem deliver_ready {i capacity : Nat} {headers : RecvHeaders}
    (ready : Ready bufSize i capacity headers) (hi : i < capacity)
    (datagram : Datagram) (batch : RecvBatchRaw bufSize) :
    deliver host i datagram headers batch =
      ({ headers with
          msgs := headers.msgs.set i
            { slotHeader i with
              msgNamelen :=
                (encodeSockaddr host datagram.source zeroedStorage).2
              msgLen := min bufSize datagram.payload.length }
          addrs := headers.addrs.set i
            (encodeSockaddr host datagram.source zeroedStorage).1
          cmsgBufs := headers.cmsgBufs.set i datagram.control },
        { batch with
          slots := batch.slots.modify i
            (RecvSlot.writeBuf datagram.payload) }) := by
  have hiovec := ready.iovecs i (Nat.le_refl i) hi
  simp [deliver, ready.msgs i (Nat.le_refl i) hi, slotHeader, hiovec]

theorem Ready.deliver {i capacity : Nat} {headers : RecvHeaders}
    (ready : Ready bufSize i capacity headers) (hi : i < capacity)
    (datagram : Datagram) (batch : RecvBatchRaw bufSize) :
    Ready bufSize (i + 1) capacity
      (deliver host i datagram headers batch).1 := by
  rw [deliver_ready host ready hi]
  constructor
  case msgs =>
    intro j hle hlt
    have hne : i ≠ j := by omega
    simpa [hne] using ready.msgs j (by omega) hlt
  case iovecs => exact fun j hle hlt => ready.iovecs j (by omega) hlt
  case control =>
    intro j header hlt hheader
    by_cases hne : i = j
    · subst hne
      have hlen : i < headers.msgs.length :=
        (List.getElem?_eq_some_iff.mp (ready.msgs i (Nat.le_refl i) hi)).1
      simp only [List.getElem?_set_self hlen, Option.some.injEq] at hheader
      rw [← hheader]
      rfl
    · rw [List.getElem?_set_ne hne] at hheader
      exact ready.control j header hlt hheader
  case addrs => simpa using ready.addrs
  case cmsgBufs => simpa using ready.cmsgBufs

theorem received_deliver_self {i capacity : Nat} {headers : RecvHeaders}
    (ready : Ready bufSize i capacity headers) (hi : i < capacity)
    (datagram : Datagram) (batch : RecvBatchRaw bufSize) :
    (deliver host i datagram headers batch).1.received host i =
      some (asReceived bufSize datagram) := by
  have hmsgs : i < headers.msgs.length :=
    (List.getElem?_eq_some_iff.mp (ready.msgs i (Nat.le_refl i) hi)).1
  have haddrs := hi.trans_le ready.addrs
  have hbufs := hi.trans_le ready.cmsgBufs
  rw [deliver_ready host ready hi]
  simp [RecvHeaders.received, hmsgs, haddrs, hbufs, slotHeader, asReceived,
    decodeSockaddr_encodeSockaddr]

theorem received_deliver_ne {i j capacity : Nat} {headers : RecvHeaders}
    (ready : Ready bufSize i capacity headers) (hi : i < capacity)
    (hj : j < capacity) (hne : i ≠ j) (datagram : Datagram)
    (batch : RecvBatchRaw bufSize) :
    (deliver host i datagram headers batch).1.received host j =
      headers.received host j := by
  rw [deliver_ready host ready hi]
  simp only [RecvHeaders.received, List.getElem?_set_ne hne]
  cases hheader : headers.msgs[j]? with
  | none => rfl
  | some header =>
      have hcontrol := ready.control j header hj hheader
      simp [hcontrol, List.getElem?_set_ne hne]

theorem received_deliverAll_before {capacity i j : Nat}
    {headers : RecvHeaders} (ready : Ready bufSize i capacity headers)
    (datagrams : List Datagram) (hlen : i + datagrams.length ≤ capacity)
    (hj : j < i) (hcap : j < capacity) (batch : RecvBatchRaw bufSize) :
    (deliverAll host datagrams i headers batch).1.received host j =
      headers.received host j := by
  induction datagrams generalizing i headers batch with
  | nil => rfl
  | cons datagram datagrams ih =>
      rw [List.length_cons] at hlen
      have hi : i < capacity := by omega
      rw [deliverAll]
      refine (ih (ready.deliver host hi datagram batch) (by omega) (by omega)
        _).trans ?_
      exact received_deliver_ne host ready hi hcap (by omega) datagram batch

theorem received_deliverAll {capacity i : Nat} {headers : RecvHeaders}
    (ready : Ready bufSize i capacity headers) (datagrams : List Datagram)
    (hlen : i + datagrams.length ≤ capacity) (batch : RecvBatchRaw bufSize) :
    (List.range' i datagrams.length).filterMap
        ((deliverAll host datagrams i headers batch).1.received host) =
      datagrams.map (asReceived bufSize) := by
  induction datagrams generalizing i headers batch with
  | nil => rfl
  | cons datagram datagrams ih =>
      rw [List.length_cons] at hlen
      have hi : i < capacity := by omega
      have ready' := ready.deliver host hi datagram batch
      have hself := received_deliver_self host ready hi datagram
        batch
      have hbefore := received_deliverAll_before host ready'
        datagrams (by omega) (Nat.lt_succ_self i) hi
        (deliver host i datagram headers batch).2
      rw [List.length_cons, List.range'_succ, deliverAll, List.map_cons]
      rw [List.filterMap_cons_some (hbefore.trans hself)]
      rw [ih ready' (by omega)]

theorem deliverAll_batch {capacity i : Nat} {headers : RecvHeaders}
    (ready : Ready bufSize i capacity headers) (datagrams : List Datagram)
    (hlen : i + datagrams.length ≤ capacity)
    (before : List (RecvSlot bufSize)) (hi : before.length = i)
    {slots : List (RecvSlot bufSize)}
    (hslots : datagrams.length ≤ slots.length) (len : Nat) :
    (deliverAll host datagrams i headers ⟨before ++ slots, len⟩).2 =
      ⟨before ++ landed datagrams slots, len⟩ := by
  induction datagrams generalizing i headers before slots with
  | nil => cases slots <;> rfl
  | cons datagram datagrams ih =>
      rw [List.length_cons] at hlen hslots
      obtain ⟨slot, slots, rfl⟩ : ∃ slot rest, slots = slot :: rest :=
        List.exists_cons_of_ne_nil (by rintro rfl; simp at hslots)
      have hlt : i < capacity := by omega
      have ready' := ready.deliver host hlt datagram
        ⟨before ++ slot :: slots, len⟩
      have hmodify : (before ++ slot :: slots).modify i
          (RecvSlot.writeBuf datagram.payload) =
          (before ++ [slot.writeBuf datagram.payload]) ++ slots := by
        subst hi
        simp [List.modify_eq_take_cons_drop]
      rw [deliverAll]
      rw [deliver_ready host ready hlt] at ready' ⊢
      rw [hmodify, ih ready' (by omega) _ (by simp [hi])
        (by simpa using hslots)]
      simp [landed]

end Deliver

end Binger.Platform
