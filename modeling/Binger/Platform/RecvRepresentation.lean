import Binger.Platform.RecvLoops

/-!
# The representation of a receive batch

`iter` indexes the slots up to `len` and slices each buffer up to the recorded
length, so it needs both to stay within bounds.  Every backend keeps them
there: a receive never changes the number of slots, records at most the length
of the buffer and counts at most the slots it has filled.
-/

namespace Binger

open Binger.Foundation

variable {bufSize : Nat}

def RecvSlot.Fits (slot : RecvSlot bufSize) : Prop :=
  slot.recvLen.toNat ≤ bufSize

theorem fits_of_le {slot : RecvSlot bufSize} {n : Nat} (hn : n ≤ bufSize)
    (h : slot.recvLen = UInt16.ofNat n) : slot.Fits := by
  rw [RecvSlot.Fits, h]
  exact RecvBatchRaw.recordedLen_le hn

namespace RecvBatchRaw

structure Valid (batch : RecvBatchRaw bufSize) : Prop where
  len_le : batch.len ≤ batch.capacity
  fits : ∀ slot ∈ batch.slots, slot.Fits

theorem valid_withCapacity (capacity bufSize : Nat) :
    (withCapacity capacity bufSize).Valid := by
  refine ⟨Nat.zero_le _, ?_⟩
  intro slot hmem
  rw [List.eq_of_mem_replicate hmem]
  exact Nat.zero_le bufSize

theorem Valid.iter_eq {batch : RecvBatchRaw bufSize} (valid : batch.Valid) :
    ∃ items, batch.iter = .ok items ∧ items.length = batch.len := by
  have hlength : (batch.slots.take batch.len).length = batch.len := by
    rw [List.length_take]
    exact Nat.min_eq_left valid.len_le
  have hread := read_eq (batch.slots.take batch.len)
    (batch.slots.drop batch.len) batch.len
    (fun slot hmem => valid.fits slot (List.mem_of_mem_take hmem))
  rw [hlength, List.take_append_drop] at hread
  exact ⟨_, hread, by rw [List.length_map, hlength]⟩

structure Keeps (batch batch' : RecvBatchRaw bufSize) : Prop where
  capacity_eq : batch'.capacity = batch.capacity
  valid : batch.Valid → batch'.Valid

theorem Keeps.refl (batch : RecvBatchRaw bufSize) : batch.Keeps batch :=
  ⟨rfl, id⟩

theorem Keeps.trans {first second third : RecvBatchRaw bufSize}
    (h : first.Keeps second) (h' : second.Keeps third) : first.Keeps third :=
  ⟨h'.capacity_eq.trans h.capacity_eq, h'.valid ∘ h.valid⟩

theorem keeps_modifySlot {batch batch' : RecvBatchRaw bufSize} {idx : Nat}
    {update : RecvSlot bufSize → RecvSlot bufSize}
    (hfits : ∀ slot : RecvSlot bufSize, slot.Fits → (update slot).Fits)
    (h : batch.modifySlot idx update = .ok batch') : batch.Keeps batch' := by
  unfold modifySlot at h
  split at h
  · cases h
    refine ⟨by simp [capacity], ?_⟩
    rintro ⟨hlen, hslots⟩
    refine ⟨by simpa [capacity] using hlen, ?_⟩
    intro slot hmem
    rcases List.mem_iff_getElem?.mp hmem with ⟨i, hi⟩
    rw [List.getElem?_modify] at hi
    rcases Option.map_eq_some_iff.mp hi with ⟨old, hold, rfl⟩
    have hmem' := List.mem_of_getElem? hold
    split
    · exact hfits old (hslots old hmem')
    · exact hslots old hmem'
  · cases h

theorem keeps_setRecvLen {batch batch' : RecvBatchRaw bufSize} {idx n : Nat}
    (hn : n ≤ bufSize) (h : batch.setRecvLen idx n = .ok batch') :
    batch.Keeps batch' :=
  keeps_modifySlot (fun _ _ => fits_of_le hn rfl) h

theorem keeps_setAddr {batch batch' : RecvBatchRaw bufSize} {idx : Nat}
    {addr : SocketAddr} (h : batch.setAddr idx addr = .ok batch') :
    batch.Keeps batch' := by
  refine keeps_modifySlot ?_ h
  intro slot hfits
  exact hfits

theorem keeps_clear (batch : RecvBatchRaw bufSize) :
    batch.Keeps batch.clear := by
  refine ⟨by simp [capacity, clear], ?_⟩
  intro _
  refine ⟨Nat.zero_le _, ?_⟩
  intro slot hmem
  rcases List.mem_map.mp hmem with ⟨old, -, rfl⟩
  exact Nat.zero_le bufSize

theorem keeps_setLen {batch : RecvBatchRaw bufSize} {len : Nat}
    (h : len ≤ batch.capacity) : batch.Keeps (batch.setLen len) :=
  ⟨rfl, fun valid => ⟨h, valid.fits⟩⟩

end RecvBatchRaw

namespace Platform

open Binger.Sockaddr

/-! ## The loops -/

theorem stored_fits (datagrams : List Datagram)
    (slots : List (RecvSlot bufSize)) :
    (stored datagrams slots).length = slots.length ∧
      ((∀ slot ∈ slots, slot.Fits) →
        ∀ slot ∈ stored datagrams slots, slot.Fits) := by
  induction datagrams generalizing slots with
  | nil => cases slots <;> exact ⟨rfl, id⟩
  | cons datagram datagrams ih =>
      cases slots with
      | nil => exact ⟨rfl, id⟩
      | cons slot slots =>
          rcases ih slots with ⟨hlength, hfits⟩
          refine ⟨by simp [stored, hlength], ?_⟩
          intro hslots
          rw [List.forall_mem_cons] at hslots
          rw [stored, List.forall_mem_cons]
          exact ⟨fits_of_le (Nat.min_le_left _ _) rfl, hfits hslots.2⟩

theorem wsaStored_fits (script : List (Except Fault Datagram))
    (slots : List (RecvSlot bufSize)) :
    (wsaStored script slots).length = slots.length ∧
      ((∀ slot ∈ slots, slot.Fits) →
        ∀ slot ∈ wsaStored script slots, slot.Fits) := by
  fun_induction wsaStored script slots with
  | case1 datagram script slot slots hle ih =>
      refine ⟨by simp [ih.1], ?_⟩
      intro hslots
      rw [List.forall_mem_cons] at hslots ⊢
      exact ⟨fits_of_le (Nat.min_le_left _ _) rfl, ih.2 hslots.2⟩
  | case2 datagram script slot slots hle =>
      refine ⟨rfl, ?_⟩
      intro hslots
      rw [List.forall_mem_cons] at hslots ⊢
      exact hslots
  | case3 => exact ⟨rfl, id⟩

theorem keeps_perPacket {batch batch' : RecvBatchRaw bufSize}
    {slots : List (RecvSlot bufSize)} {answers : List (Except Fault Datagram)}
    {result : IoResult Nat} (hlength : slots.length = batch.slots.length)
    (hfits : (∀ slot ∈ batch.slots, slot.Fits) → ∀ slot ∈ slots, slot.Fits)
    (h : perPacketOutcome batch slots answers = .ok (result, batch')) :
    batch.Keeps batch' := by
  rw [perPacketOutcome, Except.ok.injEq, Prod.mk.injEq] at h
  rcases h with ⟨-, rfl⟩
  refine ⟨hlength, ?_⟩
  intro valid
  refine ⟨?_, hfits valid.fits⟩
  change (if granted batch.capacity answers = [] then batch.len
    else (granted batch.capacity answers).length) ≤ slots.length
  rw [hlength]
  split
  · exact valid.len_le
  · exact granted_length_le batch.capacity answers

/-! ## The output loop of the Linux backend -/

theorem emit_rest_fits (features : Features) {message : Received}
    (hlen : message.msgLen ≤ bufSize) {slot : RecvSlot bufSize}
    {rest : List (RecvSlot bufSize)} (hrest : ∀ slot ∈ rest, slot.Fits) :
    ∀ left ∈ (emit features message slot rest).2, left.Fits := by
  rw [emit]
  split
  · exact hrest
  · split
    · rw [List.forall_mem_cons]
      exact ⟨fits_of_le hlen rfl, hrest⟩
    · intro left hmem
      exact hrest left (List.mem_of_mem_drop hmem)

theorem emitAll_rest_fits (features : Features) {messages : List Received}
    (hlen : ∀ message ∈ messages, message.msgLen ≤ bufSize)
    {slots out rest : List (RecvSlot bufSize)}
    (h : emitAll features messages slots = some (out, rest))
    (hslots : ∀ slot ∈ slots, slot.Fits) : ∀ slot ∈ rest, slot.Fits := by
  induction messages generalizing slots out rest with
  | nil =>
      obtain ⟨rfl, rfl⟩ : [] = out ∧ slots = rest := by
        simpa [emitAll] using h
      exact hslots
  | cons message messages ih =>
      cases slots with
      | nil => simp [emitAll] at h
      | cons slot slots =>
          simp only [emitAll, Option.map_eq_some_iff, Prod.mk.injEq] at h
          rcases h with ⟨⟨tail, rest'⟩, htail, -, rfl⟩
          rw [List.forall_mem_cons] at hslots hlen
          exact ih hlen.2 htail (emit_rest_fits features hlen.1 hslots.2)

theorem landed_fits (datagrams : List Datagram)
    {slots : List (RecvSlot bufSize)} (hslots : ∀ slot ∈ slots, slot.Fits) :
    ∀ slot ∈ landed datagrams slots, slot.Fits := by
  induction datagrams generalizing slots with
  | nil => cases slots <;> exact hslots
  | cons datagram datagrams ih =>
      cases slots with
      | nil => exact hslots
      | cons slot slots =>
          rw [List.forall_mem_cons] at hslots
          rw [landed, List.forall_mem_cons]
          exact ⟨hslots.1, ih hslots.2⟩

theorem Linux.keeps_delivered {features : Features}
    {batch batch' : RecvBatchRaw bufSize} {datagrams : List Datagram}
    {result : IoResult Nat}
    (h : delivered features batch datagrams = .ok (result, batch')) :
    batch.Keeps batch' := by
  unfold delivered at h
  split at h
  · next out rest hemit =>
      rw [Except.ok.injEq, Prod.mk.injEq] at h
      rcases h with ⟨-, rfl⟩
      have hmessages : ∀ message ∈ datagrams.map (asReceived bufSize),
          message.msgLen ≤ bufSize := by
        simp [asReceived]
      have hlength := emitAll_length features hmessages hemit
      rw [landed_length] at hlength
      have hout := (emitAll_entries features hmessages hemit).2
      refine ⟨by simp [RecvBatchRaw.capacity, hlength], ?_⟩
      intro valid
      refine ⟨by simp [RecvBatchRaw.capacity], ?_⟩
      have hrest := emitAll_rest_fits features hmessages hemit
        (landed_fits datagrams valid.fits)
      intro slot hmem
      rcases List.mem_append.mp hmem with hmem | hmem
      · exact hout slot hmem
      · exact hrest slot hmem
  · cases h

/-! ## The macOS backend -/

namespace Macos

structure Bounded (bufSize : Nat) (headers : RecvHeaders) : Prop where
  iovecs : ∀ iovec ∈ headers.iovecs, iovec.len ≤ bufSize
  msgs : ∀ header ∈ headers.msgs, header.msgLen ≤ bufSize

theorem bounded_recvHeaders (bufSize capacity : Nat) :
    Bounded bufSize (recvHeaders bufSize capacity) := by
  constructor
  · simp [recvHeaders, recvHeapHeaders, recvHeapFill_eq]
  · simp [recvHeaders, recvHeapHeaders, recvHeapFill_eq, linkIovecs_range,
      slotHeader]

theorem Bounded.deliver {headers : RecvHeaders}
    (bounded : Bounded bufSize headers) (host : Host) (i : Nat)
    (datagram : Datagram) (batch : RecvBatchRaw bufSize) :
    Bounded bufSize (deliver host i datagram headers batch).1 ∧
      batch.Keeps (deliver host i datagram headers batch).2 := by
  rw [Platform.deliver]
  split
  · exact ⟨bounded, .refl batch⟩
  · next header hheader =>
      have hslots : ∀ (idx : Nat) (bytes : List UInt8),
          batch.Keeps { batch with
            slots := batch.slots.modify idx (RecvSlot.writeBuf bytes) } := by
        intro idx bytes
        by_cases hidx : idx < batch.slots.length
        · refine RecvBatchRaw.keeps_modifySlot ?_ (if_pos hidx)
          intro slot hfits
          exact hfits
        · rw [List.modify_eq_self (by omega)]
          exact .refl batch
      cases hiovec : header.msgIov.bind fun idx => headers.iovecs[idx]? with
      | none =>
          refine ⟨⟨bounded.iovecs, ?_⟩, .refl batch⟩
          intro msg hmem
          rcases List.mem_or_eq_of_mem_set hmem with hmem | rfl
          · exact bounded.msgs msg hmem
          · exact Nat.zero_le bufSize
      | some iovec =>
          rcases Option.bind_eq_some_iff.mp hiovec with ⟨idx, -, hidx⟩
          have hle := bounded.iovecs iovec (List.mem_of_getElem? hidx)
          refine ⟨⟨bounded.iovecs, ?_⟩, hslots _ _⟩
          intro msg hmem
          rcases List.mem_or_eq_of_mem_set hmem with hmem | rfl
          · exact bounded.msgs msg hmem
          · exact (List.length_take_le _ _).trans hle

theorem Bounded.deliverAll {headers : RecvHeaders}
    (bounded : Bounded bufSize headers) (host : Host)
    (datagrams : List Datagram) (i : Nat) (batch : RecvBatchRaw bufSize) :
    Bounded bufSize (deliverAll host datagrams i headers batch).1 ∧
      batch.Keeps (deliverAll host datagrams i headers batch).2 := by
  induction datagrams generalizing i headers batch with
  | nil => exact ⟨bounded, .refl batch⟩
  | cons datagram datagrams ih =>
      rcases bounded.deliver host i datagram batch with ⟨hbounded, hkeeps⟩
      rcases ih hbounded (i + 1)
        (Platform.deliver host i datagram headers batch).2 with
        ⟨hbounded', hkeeps'⟩
      exact ⟨hbounded', hkeeps.trans hkeeps'⟩

theorem keeps_storeMessages {messages : List (Nat × SocketAddr)}
    (hlen : ∀ message ∈ messages, message.1 ≤ bufSize) {i : Nat}
    {batch batch' : RecvBatchRaw bufSize}
    (h : storeMessages messages i batch = .ok batch') :
    batch.Keeps batch' := by
  induction messages generalizing i batch with
  | nil =>
      obtain rfl : batch = batch' := by
        simpa [storeMessages, pure, Except.pure] using h
      exact .refl batch
  | cons message messages ih =>
      rcases message with ⟨recvLen, addr⟩
      rw [List.forall_mem_cons] at hlen
      rw [storeMessages] at h
      cases hfirst : batch.setRecvLen i recvLen with
      | error panic => simp [hfirst, bind, Except.bind] at h
      | ok first =>
          cases hsecond : first.setAddr i addr with
          | error panic => simp [hfirst, hsecond, bind, Except.bind] at h
          | ok second =>
              simp only [hfirst, hsecond, bind, Except.bind] at h
              exact ((RecvBatchRaw.keeps_setRecvLen hlen.1 hfirst).trans
                (RecvBatchRaw.keeps_setAddr hsecond)).trans (ih hlen.2 h)

theorem keeps_output {host : Host} {n : Nat} {headers : RecvHeaders}
    (bounded : Bounded bufSize headers) {batch batch' : RecvBatchRaw bufSize}
    (hn : n ≤ batch.capacity) {result : IoResult Nat}
    (h : output host n headers batch = .ok (result, batch')) :
    batch.Keeps batch' := by
  have hlen : ∀ message ∈
      (List.range' 0 n).filterMap (received host headers),
      message.1 ≤ bufSize := by
    intro message hmem
    rcases List.mem_filterMap.mp hmem with ⟨i, -, hi⟩
    simp only [received, bind, Option.bind_eq_some_iff] at hi
    rcases hi with ⟨header, hheader, storage, -, hmessage⟩
    cases hmessage
    exact bounded.msgs header (List.mem_of_getElem? hheader)
  unfold output at h
  cases hstore : storeMessages
      ((List.range' 0 n).filterMap (received host headers)) 0 batch with
  | error panic => simp [hstore, bind, Except.bind] at h
  | ok filled =>
      obtain ⟨-, rfl⟩ : .ok n = result ∧ filled.setLen n = batch' := by
        simpa [hstore, bind, Except.bind, pure, Except.pure] using h
      have hfilled := keeps_storeMessages hlen hstore
      exact hfilled.trans (RecvBatchRaw.keeps_setLen
        (hn.trans_eq hfilled.capacity_eq.symm))

end Macos

/-! ## Every backend -/

theorem Linux.tryRecvBatch_keeps {features : Features} {host : Host}
    {batch batch' : RecvBatchRaw bufSize} {os : Os} {result : IoResult Nat}
    (h : (tryRecvBatch features host batch os).1 = .ok (result, batch')) :
    batch.Keeps batch' := by
  rcases Nat.eq_zero_or_pos batch.capacity with hzero | hcap
  · obtain ⟨-, rfl⟩ : .ok 0 = result ∧ batch = batch' := by
      simpa [tryRecvBatch, hzero] using h
    exact .refl batch
  · cases hmmsg : os.hasRecvmmsg with
    | false =>
        rw [tryRecvBatch_of_enosys features host hcap hmmsg, fallbackRecv,
          perPacketRecv_outcome] at h
        have hstored := stored_fits
          (granted batch.capacity os.recvScript) batch.slots
        exact keeps_perPacket hstored.1 hstored.2 h
    | true =>
        rw [tryRecvBatch_of_recvmmsg features host hcap hmmsg] at h
        cases hresult : recvManyResult (vlen batch.capacity)
            (recvAnswers batch os) with
        | error fault =>
            obtain ⟨-, rfl⟩ : .error fault.error = result ∧ batch = batch' := by
              simpa [hresult] using h
            exact .refl batch
        | ok datagrams =>
            simp only [hresult] at h
            exact keeps_delivered h

theorem Macos.tryRecvBatch_keeps {host : Host}
    {batch batch' : RecvBatchRaw bufSize} {os : Os} {result : IoResult Nat}
    (h : (tryRecvBatch host batch os).1 = .ok (result, batch')) :
    batch.Keeps batch' := by
  cases hmsgx : os.hasRecvmsgX with
  | false =>
      rw [tryRecvBatch_of_recvfrom host batch hmsgx,
        perPacketRecv_outcome] at h
      have hstored := stored_fits
        (granted batch.capacity os.recvScript) batch.slots
      exact keeps_perPacket hstored.1 hstored.2 h
  | true =>
      rcases Nat.eq_zero_or_pos batch.capacity with hzero | hcap
      · obtain ⟨-, rfl⟩ : .ok 0 = result ∧ batch = batch' := by
          simpa [tryRecvBatch, hzero] using h
        exact .refl batch
      · rw [tryRecvBatch_of_recvmsgX host hcap hmsgx] at h
        cases hresult : recvManyResult (vlen batch.capacity)
            (Linux.recvAnswers batch os) with
        | error fault =>
            obtain ⟨-, rfl⟩ : .error fault.error = result ∧ batch = batch' := by
              simpa [hresult] using h
            exact .refl batch
        | ok datagrams =>
            simp only [hresult] at h
            have hlen := (Linux.recvManyResult_length hresult).2.trans
              (vlen_le batch.capacity)
            rcases (bounded_recvHeaders bufSize batch.capacity).deliverAll host
              datagrams 0 batch with ⟨hbounded, hkeeps⟩
            exact hkeeps.trans (keeps_output hbounded
              (hlen.trans_eq hkeeps.capacity_eq.symm) h)

theorem tryRecvBatch_keeps {backend : Backend} {features : Features}
    {host : Host} {batch batch' : RecvBatchRaw bufSize} {os : Os}
    {result : IoResult Nat}
    (h : (tryRecvBatch backend features host batch os).1 =
      .ok (result, batch')) : batch.Keeps batch' := by
  cases backend with
  | linux => exact Linux.tryRecvBatch_keeps h
  | macos => exact Macos.tryRecvBatch_keeps h
  | windows =>
      rw [tryRecvBatch, Windows.tryRecvBatch_eq] at h
      have hstored := wsaStored_fits os.recvScript batch.slots
      exact keeps_perPacket hstored.1 hstored.2 h
  | fallback =>
      rw [tryRecvBatch, Fallback.tryRecvBatch, perPacketRecv_outcome] at h
      have hstored := stored_fits
        (granted batch.capacity os.recvScript) batch.slots
      exact keeps_perPacket hstored.1 hstored.2 h

end Platform

end Binger
