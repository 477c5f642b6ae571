import Binger.Kernel

/-!
# Message headers of a batched send

Before a batched send the code lays out three arrays: message headers, I/O
vectors and address storages.  A header refers to the other two by pointer, and
a pointer is modelled by the element it points to.  Up to `MAX_STACK` entries
the arrays live on the stack and the storages are packed by a counter; longer
batches push one storage for every entry and patch the name pointers in a
second pass.
-/

namespace Binger.Platform

open Binger.Foundation Binger.Sockaddr

def maxStack : Nat := 64

/-- A value of `msg_name`.  `temporary` is the address of the `storage` local
of one loop iteration, dead once the iteration ends. -/
inductive NamePtr where
  | null
  | temporary (iteration : Nat)
  | addrs (idx : Nat)
  deriving DecidableEq, Repr

structure Msghdr where
  msgName : NamePtr
  msgNamelen : Nat
  msgIov : Option Nat
  msgIovlen : Nat
  deriving DecidableEq, Repr

def Msghdr.zeroed : Msghdr := ⟨.null, 0, none, 0⟩

structure SendHeaders where
  msgs : List Msghdr
  iovecs : List Slice
  addrs : List Storage

/-! ## What the kernel reads through the pointers -/

inductive Name where
  | null
  | dangling
  | addr (addr : SocketAddr)
  deriving DecidableEq

namespace SendHeaders

def nameOf (host : Host) (headers : SendHeaders) (header : Msghdr) : Name :=
  match header.msgName with
  | .null => .null
  | .temporary _ => .dangling
  | .addrs idx =>
      match headers.addrs[idx]? with
      | some storage => .addr (decodeSockaddr host storage header.msgNamelen)
      | none => .dangling

def iovecOf (headers : SendHeaders) (header : Msghdr) : Option Slice := do
  headers.iovecs[← header.msgIov]?

def message (host : Host) (headers : SendHeaders) (peer : Option SocketAddr)
    (idx : Nat) (header : Msghdr) : Sent where
  entry := idx
  data := ((headers.iovecOf header).map Slice.bytes).getD []
  dest :=
    match headers.nameOf host header with
    | .null => peer
    | .dangling => none
    | .addr addr => some addr

def messages (host : Host) (headers : SendHeaders) (peer : Option SocketAddr)
    (vlen : Nat) : List Sent :=
  ((headers.msgs.take vlen).zipIdx).map fun (header, idx) =>
    headers.message host peer idx header

/-- The headers stand for the entries of a batch: message `i` carries the
payload of entry `i`, has a null name exactly when the entry has no address,
and otherwise names the address of the entry. -/
def Represents (host : Host) (headers : SendHeaders)
    (entries : List SendSlot) : Prop :=
  ∀ i (hi : i < entries.length), ∃ header,
    headers.msgs[i]? = some header ∧
    headers.iovecOf header = some entries[i].data ∧
    header.msgIovlen = 1 ∧
    (header.msgName = .null ↔ entries[i].addr = none) ∧
    ∀ addr, entries[i].addr = some addr →
      headers.nameOf host header = .addr addr

end SendHeaders

/-! ## Heap path -/

/-- The first loop of the heap path: push a storage, an I/O vector and a header
for each entry. -/
def heapFill (host : Host) : List SendSlot → Nat → SendHeaders → SendHeaders
  | [], _, headers => headers
  | entry :: entries, i, headers =>
      let (storage, mhdr) :=
        match entry.addr with
        | some target =>
            let (storage, addrLen) :=
              encodeSockaddr host target zeroedStorage
            (storage, { Msghdr.zeroed with
              msgName := .temporary i, msgNamelen := addrLen })
        | none => (zeroedStorage, Msghdr.zeroed)
      heapFill host entries (i + 1)
        { msgs := headers.msgs ++
            [{ mhdr with msgIov := some i, msgIovlen := 1 }]
          iovecs := headers.iovecs ++ [entry.data]
          addrs := headers.addrs ++ [storage] }

/-- The second loop: `addrIdx` advances on addressed entries only. -/
def patchNames : Nat → Nat → List Msghdr → List SendSlot → List Msghdr
  | i, addrIdx, msg :: msgs, entry :: entries =>
      let msg := { msg with msgIov := some i }
      if entry.addr.isSome then
        { msg with msgName := .addrs addrIdx } ::
          patchNames (i + 1) (addrIdx + 1) msgs entries
      else
        msg :: patchNames (i + 1) addrIdx msgs entries
  | _, _, msgs, _ => msgs

def heapHeaders (host : Host) (batch : SendBatchRaw) : SendHeaders :=
  let headers := heapFill host batch.entries 0 ⟨[], [], []⟩
  { headers with msgs := patchNames 0 0 headers.msgs batch.entries }

def entryStorage (host : Host) (entry : SendSlot) : Storage × Nat :=
  match entry.addr with
  | some target => encodeSockaddr host target zeroedStorage
  | none => (zeroedStorage, 0)

def entryName (i : Nat) (entry : SendSlot) : NamePtr :=
  match entry.addr with
  | some _ => .temporary i
  | none => .null

theorem heapFill_eq (host : Host) (entries : List SendSlot) (i : Nat)
    (headers : SendHeaders) :
    heapFill host entries i headers =
      { msgs := headers.msgs ++ (entries.zipIdx i).map fun (entry, k) =>
          ⟨entryName k entry, (entryStorage host entry).2, some k, 1⟩
        iovecs := headers.iovecs ++ entries.map SendSlot.data
        addrs := headers.addrs ++
          entries.map fun entry => (entryStorage host entry).1 } := by
  induction entries generalizing i headers with
  | nil => simp [heapFill]
  | cons entry entries ih =>
      obtain ⟨data, addr⟩ := entry
      cases addr <;>
        simp [heapFill, ih, entryStorage, entryName, Msghdr.zeroed]

def addressedBefore (entries : List SendSlot) (i : Nat) : Nat :=
  (entries.take i).countP fun entry => entry.addr.isSome

theorem addressedBefore_le (entries : List SendSlot) (i : Nat) :
    addressedBefore entries i ≤ i :=
  (List.countP_le_length).trans (List.length_take_le i entries)

def entryHeader (host : Host) (addrIdx i : Nat) (entry : SendSlot) : Msghdr :=
  ⟨if entry.addr.isSome then .addrs addrIdx else .null,
    (entryStorage host entry).2, some i, 1⟩

theorem patchNames_getElem? (host : Host) (entries : List SendSlot)
    (i addrIdx : Nat) {j : Nat} (hj : j < entries.length) :
    (patchNames i addrIdx
      ((entries.zipIdx i).map fun (entry, k) =>
        ⟨entryName k entry, (entryStorage host entry).2, some k, 1⟩)
      entries)[j]? =
      some (entryHeader host (addrIdx + addressedBefore entries j) (i + j)
        entries[j]) := by
  induction entries generalizing i addrIdx j with
  | nil => simp at hj
  | cons entry entries ih =>
      obtain ⟨data, addr⟩ := entry
      cases j with
      | zero =>
          cases addr <;>
            simp [patchNames, entryHeader, addressedBefore, entryName]
      | succ j =>
          have hj' : j < entries.length := by simpa using hj
          cases addr with
          | none =>
              simp [patchNames, ih (i + 1) addrIdx hj', addressedBefore,
                Nat.add_assoc, Nat.add_comm 1]
          | some target =>
              simp [patchNames, ih (i + 1) (addrIdx + 1) hj', addressedBefore,
                Nat.add_assoc, Nat.add_comm 1]

section Heap

variable (host : Host) (batch : SendBatchRaw)

theorem heapHeaders_msgs {i : Nat} (hi : i < batch.entries.length) :
    (heapHeaders host batch).msgs[i]? =
      some (entryHeader host (addressedBefore batch.entries i) i
        batch.entries[i]) := by
  have h := patchNames_getElem? host batch.entries 0 0 hi
  simpa [heapHeaders, heapFill_eq] using h

@[simp] theorem heapHeaders_iovecs :
    (heapHeaders host batch).iovecs = batch.entries.map SendSlot.data := by
  simp [heapHeaders, heapFill_eq]

@[simp] theorem heapHeaders_addrs :
    (heapHeaders host batch).addrs =
      batch.entries.map fun entry => (entryStorage host entry).1 := by
  simp [heapHeaders, heapFill_eq]

end Heap

theorem decodeSockaddr_entryStorage (host : Host) (entry : SendSlot)
    {len : Nat} (hlen : len ≠ 0) :
    decodeSockaddr host (entryStorage host entry).1 len =
      entry.addr.getD .unspecified := by
  obtain ⟨data, addr⟩ := entry
  cases addr with
  | none => exact decodeSockaddr_zeroedStorage host len
  | some target =>
      rw [decodeSockaddr_len hlen
        (encodeSockaddr_len_ne_zero host target zeroedStorage)]
      exact decodeSockaddr_encodeSockaddr host target zeroedStorage

/-- The address the second loop gives to entry `i`: the one of the entry whose
index is the number of addressed entries in front of `i`. -/
def patchedAddr (entries : List SendSlot) (i : Nat) : SocketAddr :=
  (entries[addressedBefore entries i]?.bind SendSlot.addr).getD .unspecified

theorem heapHeaders_nameOf (host : Host) (batch : SendBatchRaw) {i : Nat}
    (hi : i < batch.entries.length) {addr : SocketAddr}
    (haddr : batch.entries[i].addr = some addr) :
    (heapHeaders host batch).nameOf host
        (entryHeader host (addressedBefore batch.entries i) i
          batch.entries[i]) =
      .addr (patchedAddr batch.entries i) := by
  have hrank := List.getElem?_eq_getElem
    ((addressedBefore_le batch.entries i).trans_lt hi)
  have hlen : (entryStorage host batch.entries[i]).2 ≠ 0 := by
    simpa [entryStorage, haddr] using
      encodeSockaddr_len_ne_zero host addr zeroedStorage
  simp [SendHeaders.nameOf, entryHeader, haddr, hrank, patchedAddr,
    decodeSockaddr_entryStorage host _ hlen]

theorem heapHeaders_represents_iff (host : Host) (batch : SendBatchRaw) :
    (heapHeaders host batch).Represents host batch.entries ↔
      ∀ i (hi : i < batch.entries.length) addr,
        batch.entries[i].addr = some addr →
        patchedAddr batch.entries i = addr := by
  constructor
  · intro h i hi addr haddr
    obtain ⟨header, hheader, -, -, -, hname⟩ := h i hi
    rw [heapHeaders_msgs host batch hi, Option.some.injEq] at hheader
    subst hheader
    have hread := hname addr haddr
    rw [heapHeaders_nameOf host batch hi haddr, Name.addr.injEq] at hread
    exact hread
  · intro h i hi
    refine ⟨_, heapHeaders_msgs host batch hi, ?_, rfl, ?_, ?_⟩
    · simp [SendHeaders.iovecOf, entryHeader, List.getElem?_eq_getElem hi]
    · cases haddr : batch.entries[i].addr <;> simp [entryHeader, haddr]
    · intro addr haddr
      rw [heapHeaders_nameOf host batch hi haddr, h i hi addr haddr]

/-! ## Stack path -/

structure StackArrays where
  msgs : Vector Msghdr maxStack
  iovecs : Vector Slice maxStack
  addrs : Vector Storage maxStack

def StackArrays.zeroed : StackArrays where
  msgs := Vector.replicate maxStack .zeroed
  iovecs := Vector.replicate maxStack ⟨0, []⟩
  addrs := Vector.replicate maxStack zeroedStorage

def stackStep (host : Host) (entry : SendSlot) (i addrIdx : Nat)
    (hi : i < maxStack) (haddr : addrIdx < maxStack) (arrays : StackArrays) :
    StackArrays :=
  match entry.addr with
  | some target =>
      let (storage, addrLen) :=
        encodeSockaddr host target arrays.addrs[addrIdx]
      { msgs := arrays.msgs.set i
          { arrays.msgs[i] with
            msgName := .addrs addrIdx, msgNamelen := addrLen,
            msgIov := some i, msgIovlen := 1 }
        iovecs := arrays.iovecs.set i entry.data
        addrs := arrays.addrs.set addrIdx storage }
  | none =>
      { arrays with
        msgs := arrays.msgs.set i
          { arrays.msgs[i] with msgIov := some i, msgIovlen := 1 }
        iovecs := arrays.iovecs.set i entry.data }

def nextAddrIdx (entry : SendSlot) (addrIdx : Nat) : Nat :=
  if entry.addr.isSome then addrIdx + 1 else addrIdx

theorem nextAddrIdx_le {entry : SendSlot} {addrIdx i : Nat}
    (h : addrIdx ≤ i) : nextAddrIdx entry addrIdx ≤ i + 1 := by
  unfold nextAddrIdx
  split <;> omega

theorem le_nextAddrIdx (entry : SendSlot) (addrIdx : Nat) :
    addrIdx ≤ nextAddrIdx entry addrIdx := by
  unfold nextAddrIdx
  split <;> omega

/-- The loop of the stack path.  `addrIdx` runs behind the message index `i`, so
every index is below `MAX_STACK`. -/
def stackFill (host : Host) : (entries : List SendSlot) → (i addrIdx : Nat) →
    i + entries.length ≤ maxStack → addrIdx ≤ i → StackArrays → StackArrays
  | [], _, _, _, _, arrays => arrays
  | entry :: entries, i, addrIdx, hi, haddr, arrays =>
      have hlt : i < maxStack := by simp at hi; omega
      stackFill host entries (i + 1) (nextAddrIdx entry addrIdx)
        (by simp at hi; omega) (nextAddrIdx_le haddr)
        (stackStep host entry i addrIdx hlt (by omega) arrays)

def StackArrays.headers (arrays : StackArrays) : SendHeaders :=
  ⟨arrays.msgs.toList, arrays.iovecs.toList, arrays.addrs.toList⟩

theorem entries_fit_stack {batch : SendBatchRaw} (h : batch.len ≤ maxStack) :
    0 + batch.entries.length ≤ maxStack := by
  rw [Nat.zero_add, batch.entries_length]
  exact h

theorem first_addrIdx_le : 0 ≤ 0 := Nat.le_refl 0

def stackHeaders (host : Host) (batch : SendBatchRaw)
    (h : batch.len ≤ maxStack) : SendHeaders :=
  (stackFill host batch.entries 0 0 (entries_fit_stack h) first_addrIdx_le
    .zeroed).headers

section Step

variable (host : Host) (entry : SendSlot) {i addrIdx : Nat}
  (hi : i < maxStack) (haddr : addrIdx < maxStack) (arrays : StackArrays)

theorem stackStep_msgs (j : Nat) (hzero : arrays.msgs[i] = .zeroed) :
    (stackStep host entry i addrIdx hi haddr arrays).msgs[j]? =
      if i = j then some (entryHeader host addrIdx i entry)
      else arrays.msgs[j]? := by
  obtain ⟨data, addr⟩ := entry
  cases addr with
  | none =>
      simp [stackStep, Vector.getElem?_set, entryHeader, entryStorage,
        hzero, Msghdr.zeroed]
  | some target =>
      simp [stackStep, Vector.getElem?_set, entryHeader, entryStorage,
        encodeSockaddr_len host target zeroedStorage]

theorem stackStep_iovecs (j : Nat) :
    (stackStep host entry i addrIdx hi haddr arrays).iovecs[j]? =
      if i = j then some entry.data else arrays.iovecs[j]? := by
  obtain ⟨data, addr⟩ := entry
  cases addr <;> simp [stackStep, Vector.getElem?_set]

theorem stackStep_addrs_ne {k : Nat} (hne : addrIdx ≠ k) :
    (stackStep host entry i addrIdx hi haddr arrays).addrs[k]? =
      arrays.addrs[k]? := by
  obtain ⟨data, addr⟩ := entry
  cases addr <;> simp [stackStep, hne]

theorem stackStep_addrs {addr : SocketAddr} (h : entry.addr = some addr) :
    (stackStep host entry i addrIdx hi haddr arrays).addrs[addrIdx]? =
      some (encodeSockaddr host addr arrays.addrs[addrIdx]).1 := by
  simp [stackStep, h]

end Step

theorem nextAddrIdx_add (entry : SendSlot) (entries : List SendSlot)
    (addrIdx j : Nat) :
    nextAddrIdx entry addrIdx + addressedBefore entries j =
      addrIdx + addressedBefore (entry :: entries) (j + 1) := by
  cases h : entry.addr.isSome
  · simp [nextAddrIdx, addressedBefore, h]
  · simp [nextAddrIdx, addressedBefore, h]
    omega

structure StackFilled (host : Host) (entries : List SendSlot)
    (i addrIdx : Nat) (arrays out : StackArrays) : Prop where
  msgs_before : ∀ j < i, out.msgs[j]? = arrays.msgs[j]?
  iovecs_before : ∀ j < i, out.iovecs[j]? = arrays.iovecs[j]?
  addrs_before : ∀ k < addrIdx, out.addrs[k]? = arrays.addrs[k]?
  msgs_at : ∀ j (hj : j < entries.length),
    out.msgs[i + j]? = some (entryHeader host
      (addrIdx + addressedBefore entries j) (i + j) entries[j])
  iovecs_at : ∀ j (hj : j < entries.length),
    out.iovecs[i + j]? = some entries[j].data
  addrs_at : ∀ j (hj : j < entries.length) addr,
    entries[j].addr = some addr →
    ∃ storage, out.addrs[addrIdx + addressedBefore entries j]? = some storage ∧
      ∀ len ≠ 0, decodeSockaddr host storage len = addr

theorem StackFilled.cons {host : Host} {entry : SendSlot}
    {entries : List SendSlot} {i addrIdx : Nat} {arrays out : StackArrays}
    (hi : i < maxStack) (haddr : addrIdx < maxStack)
    (hzero : arrays.msgs[i] = .zeroed)
    (tail : StackFilled host entries (i + 1) (nextAddrIdx entry addrIdx)
      (stackStep host entry i addrIdx hi haddr arrays) out) :
    StackFilled host (entry :: entries) i addrIdx arrays out := by
  have hmsgs := fun j => stackStep_msgs host entry hi haddr arrays j hzero
  have hiovecs := stackStep_iovecs host entry hi haddr arrays
  constructor
  case msgs_before =>
    intro j hj
    rw [tail.msgs_before j (by omega), hmsgs, if_neg (by omega)]
  case iovecs_before =>
    intro j hj
    rw [tail.iovecs_before j (by omega), hiovecs, if_neg (by omega)]
  case addrs_before =>
    intro k hk
    rw [tail.addrs_before k (hk.trans_le (le_nextAddrIdx entry addrIdx)),
      stackStep_addrs_ne host entry hi haddr arrays (by omega)]
  case msgs_at =>
    intro j hj
    cases j with
    | zero =>
        rw [Nat.add_zero, tail.msgs_before i (by omega), hmsgs, if_pos rfl]
        simp [addressedBefore]
    | succ j =>
        have h := tail.msgs_at j (by simpa using hj)
        rw [nextAddrIdx_add, Nat.add_assoc, Nat.add_comm 1] at h
        exact h
  case iovecs_at =>
    intro j hj
    cases j with
    | zero =>
        rw [Nat.add_zero, tail.iovecs_before i (by omega), hiovecs, if_pos rfl]
        rfl
    | succ j =>
        have h := tail.iovecs_at j (by simpa using hj)
        rw [Nat.add_assoc, Nat.add_comm 1] at h
        exact h
  case addrs_at =>
    intro j hj addr hsome
    cases j with
    | zero =>
        have hentry : entry.addr = some addr := hsome
        have hnext : addrIdx < nextAddrIdx entry addrIdx := by
          simp [nextAddrIdx, hentry]
        refine ⟨(encodeSockaddr host addr arrays.addrs[addrIdx]).1, ?_, ?_⟩
        · simp only [addressedBefore, List.take_zero, List.countP_nil,
            Nat.add_zero]
          rw [tail.addrs_before addrIdx hnext]
          exact stackStep_addrs host entry hi haddr arrays hentry
        · intro len hlen
          rw [decodeSockaddr_len hlen
            (encodeSockaddr_len_ne_zero host addr arrays.addrs[addrIdx])]
          exact decodeSockaddr_encodeSockaddr host addr _
    | succ j =>
        have h := tail.addrs_at j (by simpa using hj) addr hsome
        rwa [nextAddrIdx_add] at h

theorem stackFill_filled (host : Host) (entries : List SendSlot)
    {i addrIdx : Nat} (hi : i + entries.length ≤ maxStack)
    (haddr : addrIdx ≤ i) (arrays : StackArrays)
    (hzero : ∀ j (hj : j < maxStack), i ≤ j → arrays.msgs[j] = .zeroed) :
    StackFilled host entries i addrIdx arrays
      (stackFill host entries i addrIdx hi haddr arrays) := by
  induction entries generalizing i addrIdx arrays with
  | nil => constructor <;> simp [stackFill]
  | cons entry entries ih =>
      have hlt : i < maxStack := by simp at hi; omega
      have hidx : addrIdx < maxStack := by omega
      have hhead := hzero i hlt (Nat.le_refl i)
      refine StackFilled.cons hlt hidx hhead (ih _ _ _ ?_)
      intro j hj hij
      have h := stackStep_msgs host entry hlt hidx arrays j hhead
      rw [if_neg (by omega), Vector.getElem?_eq_getElem hj,
        Vector.getElem?_eq_getElem hj, Option.some.injEq] at h
      rw [h, hzero j hj (by omega)]

theorem stackHeaders_filled (host : Host) (batch : SendBatchRaw)
    (h : batch.len ≤ maxStack) :
    StackFilled host batch.entries 0 0 .zeroed
      (stackFill host batch.entries 0 0 (entries_fit_stack h)
        first_addrIdx_le .zeroed) :=
  stackFill_filled host batch.entries _ _ .zeroed
    (by simp [StackArrays.zeroed])

theorem stackHeaders_msgs (host : Host) {batch : SendBatchRaw}
    (h : batch.len ≤ maxStack) {i : Nat} (hi : i < batch.entries.length) :
    (stackHeaders host batch h).msgs[i]? =
      some (entryHeader host (addressedBefore batch.entries i) i
        batch.entries[i]) := by
  have hmsgs := (stackHeaders_filled host batch h).msgs_at i hi
  simp only [Nat.zero_add] at hmsgs
  simpa [stackHeaders, StackArrays.headers] using hmsgs

theorem stackHeaders_represents (host : Host) (batch : SendBatchRaw)
    (h : batch.len ≤ maxStack) :
    (stackHeaders host batch h).Represents host batch.entries := by
  have filled := stackHeaders_filled host batch h
  intro i hi
  have hiovecs := filled.iovecs_at i hi
  simp only [Nat.zero_add] at hiovecs
  refine ⟨entryHeader host (addressedBefore batch.entries i) i
    batch.entries[i], stackHeaders_msgs host h hi, ?_, rfl, ?_, ?_⟩
  · simpa [SendHeaders.iovecOf, stackHeaders, StackArrays.headers,
      entryHeader] using hiovecs
  · cases haddr : batch.entries[i].addr <;> simp [entryHeader, haddr]
  · intro addr haddr
    obtain ⟨storage, hstorage, hdecode⟩ := filled.addrs_at i hi addr haddr
    have hlen : (entryStorage host batch.entries[i]).2 ≠ 0 := by
      simpa [entryStorage, haddr] using
        encodeSockaddr_len_ne_zero host addr zeroedStorage
    simp only [Nat.zero_add] at hstorage
    have hlist : (stackHeaders host batch h).addrs[
        addressedBefore batch.entries i]? = some storage := by
      simpa [stackHeaders, StackArrays.headers] using hstorage
    simp [SendHeaders.nameOf, entryHeader, haddr, hlist, hdecode _ hlen]

end Binger.Platform
