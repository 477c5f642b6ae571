import Binger.Platform.Leftovers
import Binger.Platform.NotReady

/-!
# Taking datagrams off the queue

For the caller it matters what a receive does to the pending datagrams.  On
every backend, as long as nothing is split and no loop is cut off by an error, a
receive takes some datagrams off the front of the queue, returns their number
and shows each one in its own slot, cut to the buffer; a receive that reports
nothing took nothing.  The macOS batch call is described here for the first
time: it fills the slots as the loops do.
-/

namespace Binger.Foundation

variable {α ε : Type*}

theorem granted_append_stock (n : Nat) (script : List (Except ε α)) :
    granted n script ++ stock (remaining n script) = stock script := by
  fun_induction granted n script with
  | case1 | case2 => simp [remaining]
  | case3 n value script ih =>
      simpa [remaining, stock, List.filterMap_cons, Except.toOption] using ih
  | case4 n error script =>
      simp [remaining, stock, List.filterMap_cons, Except.toOption]

theorem remaining_suffix (n : Nat) (script : List (Except ε α)) :
    remaining n script <:+ script := by
  rw [remaining_eq_drop]
  exact List.drop_suffix _ _

theorem refusal_mem {idle error : ε} {n : Nat} {script : List (Except ε α)}
    (h : refusal idle n script = some error) :
    error = idle ∨ .error error ∈ script := by
  fun_induction refusal idle n script with
  | case1 => cases h
  | case2 n =>
      cases h
      exact .inl rfl
  | case3 n value script ih =>
      exact (ih h).imp_right (List.mem_cons_of_mem _)
  | case4 n error' script =>
      cases h
      exact .inr List.mem_cons_self

end Binger.Foundation

namespace Binger.Platform

open Binger.Foundation Binger.Sockaddr

variable {bufSize : Nat}

/-- What a slot shows of a datagram: the recorded length has 16 bits. -/
def cutEntry (bufSize : Nat) (datagram : Datagram) :
    List UInt8 × SocketAddr :=
  ((datagram.payload.take bufSize).take
    (min bufSize datagram.payload.length % 2 ^ 16), datagram.source)

/-! ## Slots that show a datagram -/

def FillsEntry (bufSize : Nat)
    (fill : Datagram → RecvSlot bufSize → RecvSlot bufSize) : Prop :=
  ∀ datagram slot, (fill datagram slot).entry = cutEntry bufSize datagram ∧
    (fill datagram slot).recvLen.toNat ≤ bufSize

theorem datagramSlot_fillsEntry : FillsEntry bufSize datagramSlot := by
  intro datagram slot
  have hlen : (UInt16.ofNat (min bufSize datagram.payload.length)).toNat =
      min bufSize datagram.payload.length % 2 ^ 16 := UInt16.toNat_ofNat'
  have hle := Nat.mod_le (min bufSize datagram.payload.length) (2 ^ 16)
  have hfront : min bufSize datagram.payload.length % 2 ^ 16 ≤
      (datagram.payload.take bufSize).length := by
    rw [List.length_take]
    exact hle
  constructor
  · simp only [datagramSlot, RecvSlot.entry, RecvSlot.payload,
      RecvSlot.writeBuf, hlen, writePrefix,
      List.take_append_of_le_length hfront, cutEntry]
  · rw [datagramSlot, hlen]
    exact hle.trans (Nat.min_le_left _ _)

theorem plainSlot_fillsEntry (features : Features) :
    FillsEntry bufSize (plainSlot features) :=
  fun datagram slot => datagramSlot_fillsEntry datagram slot

theorem read_fillSlots
    {fill : Datagram → RecvSlot bufSize → RecvSlot bufSize}
    (hfill : FillsEntry bufSize fill) {datagrams : List Datagram}
    {slots : List (RecvSlot bufSize)}
    (hlen : datagrams.length ≤ slots.length) (len : Nat) :
    RecvBatchRaw.read ⟨fillSlots fill datagrams slots, len⟩ datagrams.length =
      .ok (datagrams.map (cutEntry bufSize)) := by
  have hlength : (List.zipWith fill datagrams slots).length =
      datagrams.length := by
    simpa using hlen
  have hentries : (List.zipWith fill datagrams slots).map RecvSlot.entry =
      datagrams.map (cutEntry bufSize) ∧
      ∀ slot ∈ List.zipWith fill datagrams slots,
        slot.recvLen.toNat ≤ bufSize := by
    clear hlength
    induction datagrams generalizing slots with
    | nil => simp
    | cons datagram datagrams ih =>
        cases slots with
        | nil => simp at hlen
        | cons slot slots =>
            obtain ⟨hentry, hfits⟩ := hfill datagram slot
            obtain ⟨htail, hrest⟩ := ih (Nat.le_of_succ_le_succ hlen)
            simp only [List.zipWith_cons_cons, List.map_cons, hentry, htail,
              true_and, List.mem_cons, forall_eq_or_imp]
            exact ⟨hfits, hrest⟩
  have hread := RecvBatchRaw.read_eq (List.zipWith fill datagrams slots)
    (slots.drop datagrams.length) len hentries.2
  rw [hlength, hentries.1] at hread
  exact hread

/-! ## The macOS batch call -/

namespace Macos

def stripControl (headers : RecvHeaders) : RecvHeaders :=
  { headers with
    msgs := headers.msgs.map fun msg =>
      { msg with msgControl := none, msgControllen := 0 }
    cmsgBufs := [] }

theorem deliver_stripControl (host : Host) (i : Nat) (datagram : Datagram)
    (headers : RecvHeaders) (batch : RecvBatchRaw bufSize) :
    deliver host i datagram (stripControl headers) batch =
      (stripControl (deliver host i datagram headers batch).1,
        (deliver host i datagram headers batch).2) := by
  cases hheader : headers.msgs[i]? with
  | none => simp [deliver, stripControl, hheader]
  | some header => simp [deliver, stripControl, hheader, List.map_set]

theorem deliverAll_stripControl (host : Host) (datagrams : List Datagram)
    (i : Nat) (headers : RecvHeaders) (batch : RecvBatchRaw bufSize) :
    deliverAll host datagrams i (stripControl headers) batch =
      (stripControl (deliverAll host datagrams i headers batch).1,
        (deliverAll host datagrams i headers batch).2) := by
  induction datagrams generalizing i headers batch with
  | nil => rfl
  | cons datagram datagrams ih =>
      simp only [deliverAll, deliver_stripControl, ih]

theorem received_stripControl (host : Host) {headers : RecvHeaders} {i : Nat}
    {message : Received} (h : headers.received host i = some message) :
    received host (stripControl headers) i =
      some (message.msgLen, message.addr) := by
  simp only [RecvHeaders.received, bind, Option.bind_eq_some_iff, pure,
    Option.some.injEq] at h
  obtain ⟨header, hheader, storage, hstorage, -, -, -, -, rfl⟩ := h
  simp [received, stripControl, hheader, hstorage]

theorem storeMessages_landed (datagrams : List Datagram)
    (before slots : List (RecvSlot bufSize)) (len : Nat)
    (hlen : datagrams.length ≤ slots.length) :
    storeMessages (datagrams.map fun datagram =>
        (min bufSize datagram.payload.length, datagram.source)) before.length
        ⟨before ++ landed datagrams slots, len⟩ =
      .ok ⟨before ++ stored datagrams slots, len⟩ := by
  induction datagrams generalizing before slots with
  | nil => cases slots <;> rfl
  | cons datagram datagrams ih =>
      cases slots with
      | nil => simp at hlen
      | cons slot slots =>
          have htail := ih (before ++ [datagramSlot datagram slot]) slots
            (Nat.le_of_succ_le_succ hlen)
          simp only [List.append_assoc, List.cons_append, List.nil_append,
            List.length_append, List.length_cons, List.length_nil,
            Nat.zero_add] at htail
          simpa [storeMessages, landed, RecvBatchRaw.setRecvLen,
            RecvBatchRaw.setAddr, bind, Except.bind, stored,
            datagramSlot] using htail

theorem output_eq (host : Host) {batch : RecvBatchRaw bufSize}
    {datagrams : List Datagram} (h : datagrams.length ≤ batch.capacity) :
    output host datagrams.length
        (deliverAll host datagrams 0 (recvHeaders bufSize batch.capacity)
          batch).1
        (deliverAll host datagrams 0 (recvHeaders bufSize batch.capacity)
          batch).2 =
      .ok (.ok datagrams.length,
        ⟨stored datagrams batch.slots, datagrams.length⟩) := by
  have ready := recvHeapHeaders_ready bufSize batch.capacity
  have hreceived := received_deliverAll host ready datagrams (by omega) batch
  have hbatch : (deliverAll host datagrams 0
      (recvHeapHeaders bufSize batch.capacity) batch).2 =
      ⟨[] ++ landed datagrams batch.slots, batch.len⟩ :=
    deliverAll_batch host ready datagrams (by omega) [] rfl h batch.len
  have hstrip : recvHeaders bufSize batch.capacity =
      stripControl (recvHeapHeaders bufSize batch.capacity) := rfl
  -- every index below the count has a message
  have hall : ∀ i ∈ List.range' 0 datagrams.length,
      ((deliverAll host datagrams 0 (recvHeapHeaders bufSize batch.capacity)
        batch).1.received host i).isSome := by
    rw [← List.filterMap_length_eq_length, hreceived]
    simp
  have hmessages : (List.range' 0 datagrams.length).filterMap
      (received host (stripControl (deliverAll host datagrams 0
        (recvHeapHeaders bufSize batch.capacity) batch).1)) =
      datagrams.map fun datagram =>
        (min bufSize datagram.payload.length, datagram.source) := by
    have hmap := congrArg
      (List.map fun message : Received => (message.msgLen, message.addr))
      hreceived
    rw [List.map_filterMap, List.map_map] at hmap
    refine (List.filterMap_congr ?_).trans hmap
    intro i hi
    obtain ⟨message, hmessage⟩ := Option.isSome_iff_exists.mp (hall i hi)
    rw [received_stripControl host hmessage, hmessage]
    rfl
  have hstore := storeMessages_landed datagrams [] batch.slots batch.len h
  rw [hstrip, deliverAll_stripControl, output, hmessages, hbatch,
    ← List.length_nil, hstore]
  rfl

theorem tryRecvBatch_stored (host : Host) {batch : RecvBatchRaw bufSize}
    (hcap : 0 < batch.capacity) {os : Os} (h : os.hasRecvmsgX = true) :
    tryRecvBatch host batch os =
      (match recvManyResult (vlen batch.capacity)
          (Linux.recvAnswers batch os) with
        | .error fault => .ok (.error fault.error, batch)
        | .ok datagrams => .ok (.ok datagrams.length,
            ⟨stored datagrams batch.slots, datagrams.length⟩),
        { os with
          recvScript := remaining (vlen batch.capacity)
            (Linux.recvAnswers batch os) }) := by
  rw [tryRecvBatch_of_recvmsgX host hcap h]
  cases hresult : recvManyResult (vlen batch.capacity)
      (Linux.recvAnswers batch os) with
  | error fault => rfl
  | ok datagrams =>
      have hlength := (Linux.recvManyResult_length hresult).2.trans
        (vlen_le batch.capacity)
      exact Prod.ext (output_eq host hlength) rfl

end Macos

/-! ## Every backend -/

/-- What the receives of a run rely on: on Linux nothing is coalesced, the
loops meet no error but `WouldBlock`, and on Windows every datagram fits the
buffer. -/
structure Undisturbed (backend : Backend) (features : Features)
    (bufSize : Nat) (os : Os) : Prop where
  plain : backend = .linux → os.hasRecvmmsg = true → ∀ datagram,
    .ok datagram ∈ os.recvScript → groSize features datagram.control = 0
  ready : usesBatchedRecv backend os = false → ∀ fault,
    .error fault ∈ os.recvScript → fault = .wouldBlock
  fits : backend = .windows → ∀ datagram, .ok datagram ∈ os.recvScript →
    datagram.payload.length ≤ wsaBufLen bufSize

/-- A receive took `taken` off the queue: it returned and showed these
datagrams, or it reported nothing and took nothing. -/
structure Takes (batch : RecvBatchRaw bufSize) (os : Os)
    (taken : List Datagram) (result : IoResult Nat)
    (batch' : RecvBatchRaw bufSize) (os' : Os) : Prop where
  queue : stock os.recvScript = taken ++ stock os'.recvScript
  kernel : os' = { os with recvScript := os'.recvScript }
  suffix : os'.recvScript <:+ os.recvScript
  count : ∀ n, result = .ok n → n = taken.length
  shown : batch'.read taken.length = .ok (taken.map (cutEntry bufSize))
  failed : ∀ error, result = .error error → taken = []
  room : taken.length ≤ batch.capacity

theorem Undisturbed.of_suffix {backend : Backend} {features : Features}
    {os os' : Os} (h : Undisturbed backend features bufSize os)
    (hkernel : os' = { os with recvScript := os'.recvScript })
    (hsuffix : os'.recvScript <:+ os.recvScript) :
    Undisturbed backend features bufSize os' := by
  have hmmsg : os'.hasRecvmmsg = os.hasRecvmmsg := by rw [hkernel]
  have hbatched : usesBatchedRecv backend os' = usesBatchedRecv backend os := by
    rw [hkernel]
    cases backend <;> rfl
  constructor
  case plain =>
    intro hlinux hhas datagram hmem
    exact h.plain hlinux (hmmsg ▸ hhas) datagram (hsuffix.subset hmem)
  case ready =>
    intro hloop fault hmem
    exact h.ready (hbatched ▸ hloop) fault (hsuffix.subset hmem)
  case fits =>
    intro hwindows datagram hmem
    exact h.fits hwindows datagram (hsuffix.subset hmem)

def CallTakes (batch : RecvBatchRaw bufSize) (os : Os)
    (call : RecvOutcome bufSize × Os) : Prop :=
  ∃ result batch' os' taken, call = (.ok (result, batch'), os') ∧
    Takes batch os taken result batch' os'

theorem takes_nothing (os : Os) (batch : RecvBatchRaw bufSize) :
    Takes batch os [] (.ok 0) batch os :=
  ⟨rfl, rfl, List.suffix_rfl, by simp, rfl, by simp, Nat.zero_le _⟩

theorem stock_skipInterrupted {α : Type} (n : Nat)
    (script : List (Except Fault α)) :
    stock (skipInterrupted n script) = stock script := by
  rw [skipInterrupted]
  split
  · rfl
  · induction script with
    | nil => rfl
    | cons answer script ih =>
        cases hanswer : isInterrupted answer with
        | false => rw [List.dropWhile_cons_of_neg (by simp [hanswer])]
        | true =>
            obtain rfl : answer = .error .interrupted := by
              unfold isInterrupted at hanswer
              split at hanswer <;> simp_all
            rw [List.dropWhile_cons_of_pos hanswer, ih]
            rfl

theorem skipInterrupted_suffix {α : Type} (n : Nat)
    (script : List (Except Fault α)) : skipInterrupted n script <:+ script := by
  rw [skipInterrupted]
  split
  · exact List.suffix_rfl
  · exact List.dropWhile_suffix _

theorem batched_callTakes (batch : RecvBatchRaw bufSize) (os : Os)
    {fill : Datagram → RecvSlot bufSize → RecvSlot bufSize}
    (hfill : FillsEntry bufSize fill) :
    CallTakes batch os
      (match recvManyResult (vlen batch.capacity)
          (Linux.recvAnswers batch os) with
        | .error fault => .ok (.error fault.error, batch)
        | .ok datagrams => .ok (.ok datagrams.length,
            ⟨fillSlots fill datagrams batch.slots, datagrams.length⟩),
        { os with
          recvScript := remaining (vlen batch.capacity)
            (Linux.recvAnswers batch os) }) := by
  have hstock := granted_append_stock (vlen batch.capacity)
    (Linux.recvAnswers batch os)
  have hanswers : stock (Linux.recvAnswers batch os) = stock os.recvScript :=
    stock_skipInterrupted _ _
  have hsuffix := (remaining_suffix (vlen batch.capacity)
    (Linux.recvAnswers batch os)).trans (skipInterrupted_suffix _ _)
  rw [hanswers] at hstock
  cases hresult : recvManyResult (vlen batch.capacity)
      (Linux.recvAnswers batch os) with
  | error fault =>
      rw [(Linux.recvManyResult_error hresult).1] at hstock
      exact ⟨_, _, _, [], rfl, hstock.symm, rfl, hsuffix, by simp, rfl,
        by simp, Nat.zero_le _⟩
  | ok datagrams =>
      obtain ⟨rfl, hlength⟩ := Linux.recvManyResult_length hresult
      have hroom := hlength.trans (vlen_le batch.capacity)
      refine ⟨_, _, _, _, rfl, hstock.symm, rfl, hsuffix, ?_,
        read_fillSlots hfill hroom _, by simp, hroom⟩
      intro n hn
      exact (Except.ok.inj hn).symm

theorem perPacket_callTakes (batch : RecvBatchRaw bufSize) {os : Os}
    (hready : ∀ fault, .error fault ∈ os.recvScript → fault = .wouldBlock) :
    CallTakes batch os (perPacketOutcome batch
        (stored (granted batch.capacity os.recvScript) batch.slots)
        os.recvScript,
      { os with recvScript := remaining batch.capacity os.recvScript }) := by
  have hresult : perPacketRecvResult 0 batch.capacity os.recvScript =
      .ok (granted batch.capacity os.recvScript).length := by
    rw [perPacketRecvResult]
    split
    · simp
    · simp
    · next fault hfault hrefusal =>
        rcases refusal_mem hrefusal with rfl | hmem
        · exact absurd rfl hfault
        · exact absurd (hready fault hmem) hfault
  rw [perPacketOutcome, hresult]
  refine ⟨_, _, _, granted batch.capacity os.recvScript, rfl,
    (granted_append_stock _ _).symm, rfl, remaining_suffix _ _, ?_, ?_,
    by simp, granted_length_le _ _⟩
  · intro n hn
    exact (Except.ok.inj hn).symm
  · rw [stored_eq_fillSlots]
    exact read_fillSlots datagramSlot_fillsEntry (granted_length_le _ _) _

theorem wsaStored_eq {script : List (Except Fault Datagram)}
    (hfits : ∀ datagram, .ok datagram ∈ script →
      datagram.payload.length ≤ wsaBufLen bufSize)
    (slots : List (RecvSlot bufSize)) :
    wsaStored script slots = stored (granted slots.length script) slots := by
  induction script generalizing slots with
  | nil => cases slots <;> simp [wsaStored, granted, stored]
  | cons answer script ih =>
      cases slots with
      | nil => simp [stored]
      | cons slot slots =>
          cases answer with
          | error fault => simp [wsaStored, granted, stored]
          | ok datagram =>
              rw [List.length_cons, granted, wsaStored, stored,
                if_pos (hfits datagram List.mem_cons_self),
                ih fun datagram hmem =>
                  hfits datagram (List.mem_cons_of_mem _ hmem)]

theorem map_wsaAnswer {script : List (Except Fault Datagram)}
    (hfits : ∀ datagram, .ok datagram ∈ script →
      datagram.payload.length ≤ wsaBufLen bufSize) :
    script.map (wsaAnswer bufSize) = script := by
  refine (List.map_congr_left ?_).trans script.map_id
  intro answer hmem
  cases answer with
  | error fault => rfl
  | ok datagram => exact if_pos (hfits datagram hmem)

theorem Linux.tryRecvBatch_callTakes {features : Features} (host : Host)
    {batch : RecvBatchRaw bufSize} (hcap : 0 < batch.capacity) {os : Os}
    (hmmsg : os.hasRecvmmsg = true)
    (hplain : ∀ datagram, .ok datagram ∈ os.recvScript →
      groSize features datagram.control = 0) :
    CallTakes batch os (Linux.tryRecvBatch features host batch os) := by
  have htakes := batched_callTakes batch os (plainSlot_fillsEntry features)
  rw [Linux.tryRecvBatch_of_recvmmsg features host hcap hmmsg]
  cases hresult : recvManyResult (vlen batch.capacity)
      (Linux.recvAnswers batch os) with
  | error fault =>
      rw [hresult] at htakes
      exact htakes
  | ok datagrams =>
      obtain ⟨hgranted, hlength⟩ := Linux.recvManyResult_length hresult
      have hpending : ∀ datagram ∈ datagrams,
          groSize features datagram.control = 0 := by
        intro datagram hmem
        rw [hgranted] at hmem
        exact hplain datagram
          ((skipInterrupted_suffix _ _).subset (mem_of_mem_granted hmem))
      rw [hresult] at htakes
      simp only [Linux.delivered_plain features hpending
        (hlength.trans (vlen_le batch.capacity))]
      exact htakes

theorem Macos.tryRecvBatch_callTakes (host : Host)
    {batch : RecvBatchRaw bufSize} (hcap : 0 < batch.capacity) {os : Os}
    (hmsgx : os.hasRecvmsgX = true) :
    CallTakes batch os (Macos.tryRecvBatch host batch os) := by
  have htakes := batched_callTakes batch os datagramSlot_fillsEntry
  rw [Macos.tryRecvBatch_stored host hcap hmsgx]
  simpa only [stored_eq_fillSlots] using htakes

theorem Windows.tryRecvBatch_callTakes (host : Host)
    (batch : RecvBatchRaw bufSize) {os : Os}
    (hready : ∀ fault, .error fault ∈ os.recvScript → fault = .wouldBlock)
    (hfits : ∀ datagram, .ok datagram ∈ os.recvScript →
      datagram.payload.length ≤ wsaBufLen bufSize) :
    CallTakes batch os (Windows.tryRecvBatch host batch os) := by
  rw [Windows.tryRecvBatch_eq, map_wsaAnswer hfits, wsaStored_eq hfits,
    ← remaining_eq_drop]
  exact perPacket_callTakes batch hready

/-- On every backend an undisturbed receive does not panic, and it takes the
datagrams off the queue that it shows. -/
theorem tryRecvBatch_takes {backend : Backend} {features : Features}
    (host : Host) (batch : RecvBatchRaw bufSize) {os : Os}
    (h : Undisturbed backend features bufSize os) :
    CallTakes batch os (tryRecvBatch backend features host batch os) := by
  rcases Nat.eq_zero_or_pos batch.capacity with hzero | hcap
  · exact ⟨_, _, _, [], tryRecvBatch_no_slots backend features host hzero os,
      takes_nothing os batch⟩
  have hloop : usesBatchedRecv backend os = false →
      CallTakes batch os (perPacketRecv host batch.capacity 0 0 batch os) := by
    intro hbatched
    rw [perPacketRecv_outcome]
    exact perPacket_callTakes batch (h.ready hbatched)
  cases backend with
  | linux =>
      rw [tryRecvBatch]
      cases hmmsg : os.hasRecvmmsg with
      | false =>
          rw [Linux.tryRecvBatch_of_enosys features host hcap hmmsg]
          exact hloop hmmsg
      | true =>
          exact Linux.tryRecvBatch_callTakes host hcap hmmsg
            (h.plain rfl hmmsg)
  | macos =>
      rw [tryRecvBatch]
      cases hmsgx : os.hasRecvmsgX with
      | false =>
          rw [Macos.tryRecvBatch_of_recvfrom host batch hmsgx]
          exact hloop hmsgx
      | true => exact Macos.tryRecvBatch_callTakes host hcap hmsgx
  | windows =>
      exact Windows.tryRecvBatch_callTakes host batch (h.ready rfl)
        (h.fits rfl)
  | fallback => exact hloop rfl

end Binger.Platform
