import Binger.Platform.Gro

/-!
# The two branches of the Linux receive

`try_recv_batch` is written twice: with arrays on the stack for up to
`MAX_STACK` slots, with vectors on the heap for more.  From `recvmmsg` on the
two copies are the same text, so each branch is `recvBranch` applied to its own
headers, and the value of `MAX_STACK` is a parameter.

The kernel may answer anything.  It sees what the headers of the slots it was
given lead to, and it writes back through the pointers it found there.
-/

namespace Binger.Platform.Linux

open Binger.Foundation Binger.Sockaddr

variable {bufSize : Nat}

/-! ## Calling the kernel -/

structure SlotArea where
  buffers : Option Iovec
  iovlen : Nat
  name : Option Storage
  namelen : Nat
  control : Option (List Cmsg)
  controllen : Nat
  deriving DecidableEq

def area (headers : RecvHeaders) (i : Nat) : Option SlotArea :=
  headers.msgs[i]?.map fun header =>
    { buffers := header.msgIov.bind fun idx => headers.iovecs[idx]?
      iovlen := header.msgIovlen
      name := header.msgName.bind fun idx => headers.addrs[idx]?
      namelen := header.msgNamelen
      control := header.msgControl.bind fun idx => headers.cmsgBufs[idx]?
      controllen := header.msgControllen }

structure Reply where
  bytes : List UInt8
  msgLen : Nat
  storage : Storage
  namelen : Nat
  control : List Cmsg

/-- A kernel answers with at most one message for each header, and does not
interrupt a call for ever. -/
structure RecvKernel where
  answer : List (Option SlotArea) → Os → IoResult (List Reply) × Os
  length_le : ∀ areas os replies os',
    answer areas os = (.ok replies, os') → replies.length ≤ areas.length
  interrupted : ∀ areas os error os',
    answer areas os = (.error error, os') → error.kind = .interrupted →
    os'.recvScript.length < os.recvScript.length

def writeReply (i : Nat) (reply : Reply) (headers : RecvHeaders)
    (batch : RecvBatchRaw bufSize) : RecvHeaders × RecvBatchRaw bufSize :=
  match headers.msgs[i]? with
  | none => (headers, batch)
  | some header =>
      ({ headers with
          msgs := headers.msgs.set i
            { header with
              msgNamelen := reply.namelen, msgLen := reply.msgLen }
          addrs := match header.msgName with
            | some idx => headers.addrs.set idx reply.storage
            | none => headers.addrs
          cmsgBufs := match header.msgControl with
            | some idx => headers.cmsgBufs.set idx reply.control
            | none => headers.cmsgBufs },
        { batch with
          slots := match header.msgIov.bind fun idx => headers.iovecs[idx]? with
            | some iovec => batch.slots.modify iovec.base
                (RecvSlot.writeBuf (reply.bytes.take iovec.len))
            | none => batch.slots })

def writeReplies : List Reply → Nat → RecvHeaders → RecvBatchRaw bufSize →
    RecvHeaders × RecvBatchRaw bufSize
  | [], _, headers, batch => (headers, batch)
  | reply :: replies, i, headers, batch =>
      let (headers, batch) := writeReply i reply headers batch
      writeReplies replies (i + 1) headers batch

def callRecvmmsg (kernel : RecvKernel) (headers : RecvHeaders)
    (batch : RecvBatchRaw bufSize) (vlen : Nat) (os : Os) :
    IoResult (Nat × RecvHeaders × RecvBatchRaw bufSize) × Os :=
  match kernel.answer ((List.range vlen).map (area headers)) os with
  | (.ok replies, os) =>
      (.ok (replies.length, writeReplies replies 0 headers batch), os)
  | (.error error, os) => (.error error, os)

theorem callRecvmmsg_interrupted {kernel : RecvKernel} {headers : RecvHeaders}
    {batch : RecvBatchRaw bufSize} {vlen : Nat} {os os' : Os} {error : IoError}
    (h : callRecvmmsg kernel headers batch vlen os = (.error error, os'))
    (hkind : error.kind = .interrupted) :
    os'.recvScript.length < os.recvScript.length := by
  unfold callRecvmmsg at h
  split at h
  · simp at h
  · next error' os'' hanswer =>
      obtain ⟨rfl, rfl⟩ : error' = error ∧ os'' = os' := by simpa using h
      exact kernel.interrupted _ _ _ _ hanswer hkind

/-! ## The branches -/

def recvBranch (features : Features) (host : Host) (kernel : RecvKernel)
    (headers : RecvHeaders) (batch : RecvBatchRaw bufSize) (os : Os) :
    RecvOutcome bufSize × Os :=
  match retryEintr (callRecvmmsg kernel headers batch (vlen batch.capacity))
    (fun os => os.recvScript.length)
    (fun _ _ _ => callRecvmmsg_interrupted) os with
  | (.ok (n, headers, batch), os) => (output features host n headers batch, os)
  | (.error error, os) =>
      if error.rawOsError = some .enosys then fallbackRecv host batch os
      else (.ok (.error error, batch), os)

def stackBranch (maxStack : Nat) (features : Features) (host : Host)
    (kernel : RecvKernel) (batch : RecvBatchRaw bufSize) (os : Os) :
    RecvOutcome bufSize × Os :=
  recvBranch features host kernel
    (recvStackHeadersIn maxStack bufSize batch.capacity) batch os

def heapBranch (features : Features) (host : Host) (kernel : RecvKernel)
    (batch : RecvBatchRaw bufSize) (os : Os) : RecvOutcome bufSize × Os :=
  recvBranch features host kernel (recvHeapHeaders bufSize batch.capacity)
    batch os

/-- `try_recv_batch` with another value for `MAX_STACK`. -/
def tryRecvBatchIn (maxStack : Nat) (features : Features) (host : Host)
    (kernel : RecvKernel) (batch : RecvBatchRaw bufSize) (os : Os) :
    RecvOutcome bufSize × Os :=
  if batch.capacity = 0 then (.ok (.ok 0, batch), os)
  else if batch.capacity ≤ maxStack then
    stackBranch maxStack features host kernel batch os
  else heapBranch features host kernel batch os

/-! ## Headers that agree -/

/-- Two sets of arrays that agree on the first `capacity` elements, where each
header points to the elements of its own slot. -/
structure Agree (capacity : Nat) (first second : RecvHeaders) : Prop where
  msgs : ∀ i < capacity, first.msgs[i]? = second.msgs[i]?
  iovecs : ∀ i < capacity, first.iovecs[i]? = second.iovecs[i]?
  addrs : ∀ i < capacity, first.addrs[i]? = second.addrs[i]?
  cmsgBufs : ∀ i < capacity, first.cmsgBufs[i]? = second.cmsgBufs[i]?
  own : ∀ i < capacity, ∃ header, first.msgs[i]? = some header ∧
    header.msgName = some i ∧ header.msgIov = some i ∧
    header.msgControl = some i

theorem agree_branches (bufSize : Nat) {maxStack capacity : Nat}
    (h : capacity ≤ maxStack) :
    Agree capacity (recvStackHeadersIn maxStack bufSize capacity)
      (recvHeapHeaders bufSize capacity) := by
  have stack := recvStackHeadersIn_ready bufSize h
  have heap := recvHeapHeaders_ready bufSize capacity
  have hareas := recvStackHeadersIn_areas maxStack bufSize capacity
  constructor
  case msgs =>
    intro i hi
    rw [stack.msgs i (Nat.zero_le i) hi, heap.msgs i (Nat.zero_le i) hi]
  case iovecs =>
    intro i hi
    rw [stack.iovecs i (Nat.zero_le i) hi, heap.iovecs i (Nat.zero_le i) hi]
  case addrs =>
    intro i hi
    have hi' : i < maxStack := by omega
    simp [hareas.1, hi, hi', recvHeapHeaders, recvHeapFill_eq]
  case cmsgBufs =>
    intro i hi
    have hi' : i < maxStack := by omega
    simp [hareas.2, hi, hi', recvHeapHeaders, recvHeapFill_eq]
  case own =>
    intro i hi
    exact ⟨slotHeader i, stack.msgs i (Nat.zero_le i) hi, rfl, rfl, rfl⟩

section Agreement

variable {capacity : Nat} {first second : RecvHeaders}

theorem Agree.area_eq (agree : Agree capacity first second) {i : Nat}
    (hi : i < capacity) : area first i = area second i := by
  rcases agree.own i hi with ⟨header, hheader, hname, hiov, hcontrol⟩
  rw [area, area, ← agree.msgs i hi, hheader]
  simp [hname, hiov, hcontrol, agree.iovecs i hi, agree.addrs i hi,
    agree.cmsgBufs i hi]

theorem Agree.received_eq (agree : Agree capacity first second) (host : Host)
    {i : Nat} (hi : i < capacity) :
    first.received host i = second.received host i := by
  rcases agree.own i hi with ⟨header, hheader, -, -, hcontrol⟩
  have hsecond : second.msgs[i]? = some header := by
    rw [← agree.msgs i hi, hheader]
  simp [RecvHeaders.received, hheader, hsecond, hcontrol, agree.addrs i hi,
    agree.cmsgBufs i hi]

theorem getElem?_set_congr {α : Type} {list list' : List α} {j : Nat}
    (h : list[j]? = list'[j]?) (i : Nat) (value : α) :
    (list.set i value)[j]? = (list'.set i value)[j]? := by
  rw [List.getElem?_set', List.getElem?_set', h]

theorem Agree.writeReply (agree : Agree capacity first second) {i : Nat}
    (hi : i < capacity) (reply : Reply) (batch : RecvBatchRaw bufSize) :
    Agree capacity (writeReply i reply first batch).1
        (writeReply i reply second batch).1 ∧
      (writeReply i reply first batch).2 =
        (writeReply i reply second batch).2 := by
  rcases agree.own i hi with ⟨header, hheader, hname, hiov, hcontrol⟩
  have hsecond : second.msgs[i]? = some header := by
    rw [← agree.msgs i hi, hheader]
  simp only [Linux.writeReply, hheader, hsecond, hname, hiov, hcontrol,
    Option.bind_some, agree.iovecs i hi, and_true]
  constructor
  case msgs => exact fun j hj => getElem?_set_congr (agree.msgs j hj) i _
  case iovecs => exact agree.iovecs
  case addrs => exact fun j hj => getElem?_set_congr (agree.addrs j hj) i _
  case cmsgBufs =>
    exact fun j hj => getElem?_set_congr (agree.cmsgBufs j hj) i _
  case own =>
    intro j hj
    by_cases hij : i = j
    · subst hij
      have hlt := (List.getElem?_eq_some_iff.mp hheader).1
      exact ⟨_, List.getElem?_set_self hlt, rfl, rfl, rfl⟩
    · rw [List.getElem?_set_ne hij]
      exact agree.own j hj

theorem Agree.writeReplies (agree : Agree capacity first second)
    (replies : List Reply) {i : Nat} (hlen : i + replies.length ≤ capacity)
    (batch : RecvBatchRaw bufSize) :
    Agree capacity (writeReplies replies i first batch).1
        (writeReplies replies i second batch).1 ∧
      (writeReplies replies i first batch).2 =
        (writeReplies replies i second batch).2 := by
  induction replies generalizing i first second batch with
  | nil => exact ⟨agree, rfl⟩
  | cons reply replies ih =>
      rw [List.length_cons] at hlen
      have hstep := agree.writeReply (show i < capacity by omega) reply batch
      simp only [Linux.writeReplies]
      rw [hstep.2]
      exact ih hstep.1 (by omega) _

theorem Agree.output_eq (agree : Agree capacity first second)
    (features : Features) (host : Host) {n : Nat} (hn : n ≤ capacity)
    (batch : RecvBatchRaw bufSize) :
    output features host n first batch =
      output features host n second batch := by
  have hmessages : (List.range' 0 n).filterMap (first.received host) =
      (List.range' 0 n).filterMap (second.received host) := by
    apply List.filterMap_congr
    intro i hi
    rw [List.mem_range'_1] at hi
    exact agree.received_eq host (by omega)
  rw [output, output, hmessages]

theorem Agree.callRecvmmsg (agree : Agree capacity first second)
    (kernel : RecvKernel) (batch : RecvBatchRaw bufSize) {vlen : Nat}
    (hvlen : vlen ≤ capacity) (os : Os) :
    SameAnswer
      (fun (got got' : Nat × RecvHeaders × RecvBatchRaw bufSize) =>
        got.1 = got'.1 ∧ got.1 ≤ capacity ∧ Agree capacity got.2.1 got'.2.1 ∧
          got.2.2 = got'.2.2)
      (callRecvmmsg kernel first batch vlen os)
      (callRecvmmsg kernel second batch vlen os) := by
  have hareas : (List.range vlen).map (area first) =
      (List.range vlen).map (area second) := by
    apply List.map_congr_left
    intro i hi
    rw [List.mem_range] at hi
    exact agree.area_eq (by omega)
  rw [Linux.callRecvmmsg, Linux.callRecvmmsg, hareas]
  rcases hanswer : kernel.answer ((List.range vlen).map (area second)) os with
    ⟨error | replies, os'⟩
  · exact ⟨rfl, rfl⟩
  · have hle := kernel.length_le _ _ _ _ hanswer
    rw [List.length_map, List.length_range] at hle
    have hlen : 0 + replies.length ≤ capacity := by omega
    have hwritten := agree.writeReplies replies hlen batch
    exact ⟨⟨rfl, by simpa using hlen, hwritten.1, hwritten.2⟩, rfl⟩

end Agreement

theorem recvBranch_congr {batch : RecvBatchRaw bufSize}
    {first second : RecvHeaders} (agree : Agree batch.capacity first second)
    (features : Features) (host : Host) (kernel : RecvKernel) (os : Os) :
    recvBranch features host kernel first batch os =
      recvBranch features host kernel second batch os := by
  have hsame := retryEintr_sameAnswer (fun os => os.recvScript.length)
    (fun _ _ _ => callRecvmmsg_interrupted)
    (fun _ _ _ => callRecvmmsg_interrupted)
    (agree.callRecvmmsg kernel batch (vlen_le batch.capacity)) os
  rw [recvBranch, recvBranch]
  revert hsame
  rcases retryEintr (callRecvmmsg kernel first batch (vlen batch.capacity))
      _ _ os with ⟨error | ⟨n, headers, filled⟩, os'⟩ <;>
    rcases retryEintr (callRecvmmsg kernel second batch (vlen batch.capacity))
      _ _ os with ⟨error' | ⟨n', headers', filled'⟩, os''⟩
  · rintro ⟨rfl, rfl⟩
    rfl
  · exact False.elim
  · exact False.elim
  · rintro ⟨⟨rfl, hn, hagree, rfl⟩, rfl⟩
    simp only [hagree.output_eq features host hn]

/-! ## The kernel that answers from a script -/

def replyTo (host : Host) (area : Option SlotArea) (datagram : Datagram) :
    Reply :=
  let iovec := area.bind SlotArea.buffers
  let bytes := match iovec with
    | some iovec => datagram.payload.take iovec.len
    | none => []
  let (storage, namelen) := encodeSockaddr host datagram.source zeroedStorage
  ⟨bytes, bytes.length, storage, namelen, datagram.control⟩

def scriptedAnswer (host : Host) (areas : List (Option SlotArea)) (os : Os) :
    IoResult (List Reply) × Os :=
  if os.hasRecvmmsg then
    (match recvManyResult areas.length os.recvScript with
      | .error fault => .error fault.error
      | .ok datagrams => .ok (List.zipWith (replyTo host) areas datagrams),
      { os with recvScript := remaining areas.length os.recvScript })
  else (.error (.os .enosys), os)

theorem scriptedAnswer_length_le {host : Host}
    {areas : List (Option SlotArea)} {os os' : Os} {replies : List Reply}
    (h : scriptedAnswer host areas os = (.ok replies, os')) :
    replies.length ≤ areas.length := by
  unfold scriptedAnswer at h
  split at h
  · rw [Prod.mk.injEq] at h
    cases hresult : recvManyResult areas.length os.recvScript with
    | error fault => simp [hresult] at h
    | ok datagrams =>
        obtain rfl : List.zipWith (replyTo host) areas datagrams =
            replies := by
          simpa [hresult] using h.1
        rw [List.length_zipWith]
        exact Nat.min_le_left _ _
  · simp at h

theorem scriptedAnswer_interrupted {host : Host}
    {areas : List (Option SlotArea)} {os os' : Os} {error : IoError}
    (h : scriptedAnswer host areas os = (.error error, os'))
    (hkind : error.kind = .interrupted) :
    os'.recvScript.length < os.recvScript.length := by
  unfold scriptedAnswer at h
  split at h
  · rw [Prod.mk.injEq] at h
    rcases h with ⟨herror, rfl⟩
    cases hresult : recvManyResult areas.length os.recvScript with
    | ok datagrams => simp [hresult] at herror
    | error fault =>
        obtain rfl : fault.error = error := by simpa [hresult] using herror
        rw [Fault.error_kind_interrupted] at hkind
        subst hkind
        rcases recvManyResult_interrupted hresult with ⟨hpos, rest, hscript⟩
        rcases Nat.exists_eq_succ_of_ne_zero hpos.ne' with ⟨n, hn⟩
        simp [hscript, hn, remaining]
  · obtain ⟨rfl, -⟩ : IoError.os .enosys = error ∧ os = os' := by
      simpa using h
    simp [IoError.kind] at hkind

def scriptedKernel (host : Host) : RecvKernel where
  answer := scriptedAnswer host
  length_le _ _ _ _ := scriptedAnswer_length_le
  interrupted _ _ _ _ := scriptedAnswer_interrupted

theorem deliverAll_eq_writeReplies (host : Host) {i capacity : Nat}
    {headers : RecvHeaders} (ready : Ready bufSize i capacity headers)
    (datagrams : List Datagram) (hlen : i + datagrams.length ≤ capacity)
    (areas : List (Option SlotArea))
    (hareas : datagrams.length ≤ areas.length)
    (hbuffers : ∀ k (area : Option SlotArea), areas[k]? = some area →
      area.bind SlotArea.buffers = some ⟨i + k, bufSize⟩)
    (batch : RecvBatchRaw bufSize) :
    deliverAll host datagrams i headers batch =
      writeReplies (List.zipWith (replyTo host) areas datagrams) i headers
        batch := by
  induction datagrams generalizing i headers batch areas with
  | nil => simp [deliverAll, writeReplies]
  | cons datagram datagrams ih =>
      rw [List.length_cons] at hlen hareas
      have hi : i < capacity := by omega
      rcases List.exists_cons_of_length_pos (Nat.zero_lt_of_lt hareas) with
        ⟨area, areas, rfl⟩
      have harea : area.bind SlotArea.buffers = some ⟨i, bufSize⟩ :=
        hbuffers 0 area rfl
      have hstep : deliver host i datagram headers batch =
          writeReply i (replyTo host area datagram) headers batch := by
        have hmsg := ready.msgs i (Nat.le_refl i) hi
        have hiovec := ready.iovecs i (Nat.le_refl i) hi
        simp [deliver, writeReply, replyTo, hmsg, hiovec, harea, slotHeader]
      have ready' := ready.deliver host hi datagram batch
      rw [List.zipWith_cons_cons, deliverAll, writeReplies, ← hstep]
      refine ih ready' (by omega) areas (by simpa using hareas) ?_ _
      intro k area' hk
      rw [Nat.add_assoc, Nat.add_comm 1]
      exact hbuffers (k + 1) area' hk

theorem area_buffers {capacity : Nat} {headers : RecvHeaders}
    (ready : Ready bufSize 0 capacity headers) {i : Nat} (hi : i < capacity) :
    (area headers i).bind SlotArea.buffers = some ⟨i, bufSize⟩ := by
  have hmsg := ready.msgs i (Nat.zero_le i) hi
  have hiovec := ready.iovecs i (Nat.zero_le i) hi
  simp [area, hmsg, slotHeader, hiovec]

theorem callRecvmmsg_scripted (host : Host) {capacity : Nat}
    {headers : RecvHeaders} (ready : Ready bufSize 0 capacity headers)
    (batch : RecvBatchRaw bufSize) {n : Nat} (hn : n ≤ capacity) :
    recvmmsg host headers batch n =
      callRecvmmsg (scriptedKernel host) headers batch n := by
  funext os
  cases hmmsg : os.hasRecvmmsg with
  | false =>
      simp [recvmmsg, callRecvmmsg, scriptedKernel, scriptedAnswer, hmmsg]
  | true =>
      simp only [recvmmsg, callRecvmmsg, scriptedKernel, scriptedAnswer, hmmsg,
        if_true, recvMessages_eq, List.length_map, List.length_range]
      cases hresult : recvManyResult n os.recvScript with
      | error fault => rfl
      | ok datagrams =>
          have hlen := (recvManyResult_length hresult).2
          have hdeliver := deliverAll_eq_writeReplies host ready datagrams
            (by omega) ((List.range n).map (area headers)) (by simpa using hlen)
            (fun k area' hk => by
              rw [List.getElem?_map, Option.map_eq_some_iff] at hk
              rcases hk with ⟨k', hk, rfl⟩
              rcases List.getElem?_eq_some_iff.mp hk with ⟨hk', hget⟩
              rw [List.length_range] at hk'
              rw [List.getElem_range] at hget
              rw [Nat.zero_add, ← hget]
              exact area_buffers ready (by omega)) batch
          simp only [hdeliver, List.length_zipWith, List.length_map,
            List.length_range, Nat.min_eq_right hlen]

/-- The backend is the instance for its own `MAX_STACK` and the scripted
kernel. -/
theorem tryRecvBatch_eq_in (features : Features) (host : Host)
    (batch : RecvBatchRaw bufSize) (os : Os) :
    tryRecvBatch features host batch os =
      tryRecvBatchIn maxStack features host (scriptedKernel host) batch
        os := by
  have hcall := callRecvmmsg_scripted host
    (recvHeaders_ready bufSize batch.capacity) batch (vlen_le batch.capacity)
  have hbranch : tryRecvBatchIn maxStack features host (scriptedKernel host)
      batch os =
      if batch.capacity = 0 then (.ok (.ok 0, batch), os)
      else recvBranch features host (scriptedKernel host)
        (recvHeaders bufSize batch.capacity) batch os := by
    unfold tryRecvBatchIn stackBranch heapBranch recvHeaders
    split
    · rfl
    · split <;> rfl
  rw [hbranch, tryRecvBatch]
  split
  · rfl
  · simp only [hcall]
    rfl

/-! ## Both branches do the same -/

/-- The stack branch, as long as its arrays have room, and the heap branch show
the kernel the same areas and do the same with whatever it answers, so the
receive does not depend on the value of `MAX_STACK`. -/
theorem branches_agree (features : Features) (host : Host)
    (kernel : RecvKernel) (batch : RecvBatchRaw bufSize) (os : Os) :
    (∀ room, batch.capacity ≤ room →
      (∀ i < batch.capacity,
        area (recvStackHeadersIn room bufSize batch.capacity) i =
          some ⟨some ⟨i, bufSize⟩, 1, some zeroedStorage, storageSize,
            some [], cmsgBufSize⟩ ∧
        area (recvHeapHeaders bufSize batch.capacity) i =
          area (recvStackHeadersIn room bufSize batch.capacity) i) ∧
      stackBranch room features host kernel batch os =
        heapBranch features host kernel batch os) ∧
    (∀ room room', tryRecvBatchIn room features host kernel batch os =
      tryRecvBatchIn room' features host kernel batch os) ∧
    tryRecvBatch features host batch os =
      tryRecvBatchIn maxStack features host (scriptedKernel host) batch
        os := by
  have hbranches : ∀ room, batch.capacity ≤ room →
      stackBranch room features host kernel batch os =
        heapBranch features host kernel batch os := by
    intro room hroom
    exact recvBranch_congr (agree_branches bufSize hroom) features host kernel
      os
  have hin : ∀ room, tryRecvBatchIn room features host kernel batch os =
      if batch.capacity = 0 then (.ok (.ok 0, batch), os)
      else heapBranch features host kernel batch os := by
    intro room
    rw [tryRecvBatchIn]
    split
    · rfl
    · split
      · next hroom => exact hbranches room hroom
      · rfl
  refine ⟨?_, ?_, tryRecvBatch_eq_in features host batch os⟩
  · intro room hroom
    refine ⟨?_, hbranches room hroom⟩
    intro i hi
    have agree := agree_branches bufSize hroom
    have stack := recvStackHeadersIn_ready bufSize hroom
    have hareas := recvStackHeadersIn_areas room bufSize batch.capacity
    have hi' : i < room := by omega
    refine ⟨?_, (agree.area_eq hi).symm⟩
    simp [area, stack.msgs i (Nat.zero_le i) hi, slotHeader,
      stack.iovecs i (Nat.zero_le i) hi, hareas.1, hareas.2, hi']
  · intro room room'
    rw [hin, hin]

theorem coalesced_branches_agree :
    RecvBatchRaw.capacity (.withCapacity 3 4) ≤ 64 ∧
      stackBranch 64 groOnly ⟨.linux, .little⟩
          (scriptedKernel ⟨.linux, .little⟩) (.withCapacity 3 4)
          coalescedOs =
        heapBranch groOnly ⟨.linux, .little⟩
          (scriptedKernel ⟨.linux, .little⟩) (.withCapacity 3 4)
          coalescedOs := by
  have hagree := branches_agree groOnly ⟨.linux, .little⟩
    (scriptedKernel ⟨.linux, .little⟩) (.withCapacity 3 4) coalescedOs
  exact ⟨by decide, (hagree.1 64 (by decide)).2⟩

end Binger.Platform.Linux
