import Binger.Platform.Gro

/-!
# Receiving plain messages on Linux

Without coalescing every message fills exactly its own slot, and the fallback
for `ENOSYS` writes the same slots one call at a time.  What differs is how the
end of a series is reported: the fallback turns `WouldBlock` into a count of
zero, passes `EINTR` on, and drops the count in front of a hard error.
-/

namespace Binger.Platform

open Binger.Foundation Binger.Sockaddr

variable {bufSize : Nat}

/-! ## Plain messages -/

def plainSlot (features : Features) (datagram : Datagram)
    (slot : RecvSlot bufSize) : RecvSlot bufSize :=
  messageSlot features (asReceived bufSize datagram)
    (slot.writeBuf datagram.payload)

def fillSlots (fill : Datagram → RecvSlot bufSize → RecvSlot bufSize)
    (datagrams : List Datagram) (slots : List (RecvSlot bufSize)) :
    List (RecvSlot bufSize) :=
  List.zipWith fill datagrams slots ++ slots.drop datagrams.length

@[simp] theorem fillSlots_nil
    (fill : Datagram → RecvSlot bufSize → RecvSlot bufSize)
    (slots : List (RecvSlot bufSize)) : fillSlots fill [] slots = slots := by
  simp [fillSlots]

theorem stored_eq_fillSlots (datagrams : List Datagram)
    (slots : List (RecvSlot bufSize)) :
    stored datagrams slots = fillSlots datagramSlot datagrams slots := by
  induction datagrams generalizing slots with
  | nil => cases slots <;> rfl
  | cons datagram datagrams ih =>
      cases slots with
      | nil => rfl
      | cons slot slots => simp [stored, ih, fillSlots]

theorem plainSlot_eq_datagramSlot (features : Features) {datagram : Datagram}
    (h : datagram.control = []) :
    (plainSlot features datagram : RecvSlot bufSize → RecvSlot bufSize) =
      datagramSlot datagram := by
  funext slot
  simp [plainSlot, messageSlot, asReceived, h, datagramSlot]

theorem zipWith_plainSlot (features : Features) {datagrams : List Datagram}
    (h : ∀ datagram ∈ datagrams, datagram.control = [])
    (slots : List (RecvSlot bufSize)) :
    List.zipWith (plainSlot features) datagrams slots =
      List.zipWith datagramSlot datagrams slots := by
  induction datagrams generalizing slots with
  | nil => rfl
  | cons datagram datagrams ih =>
      cases slots with
      | nil => rfl
      | cons slot slots =>
          rw [List.zipWith_cons_cons, List.zipWith_cons_cons,
            plainSlot_eq_datagramSlot features (h _ List.mem_cons_self),
            ih fun datagram hmem => h _ (List.mem_cons_of_mem _ hmem)]

namespace Linux

theorem emitAll_plain (features : Features) {datagrams : List Datagram}
    (h : ∀ datagram ∈ datagrams, groSize features datagram.control = 0)
    {slots : List (RecvSlot bufSize)}
    (hlen : datagrams.length ≤ slots.length) :
    emitAll features (datagrams.map (asReceived bufSize))
        (landed datagrams slots) =
      some (List.zipWith (plainSlot features) datagrams slots,
        slots.drop datagrams.length) := by
  induction datagrams generalizing slots with
  | nil => cases slots <;> rfl
  | cons datagram datagrams ih =>
      cases slots with
      | nil => simp at hlen
      | cons slot slots =>
          have hsize : groSize features
              (asReceived bufSize datagram).control = 0 :=
            h datagram List.mem_cons_self
          have htail := ih
            (fun datagram hmem => h datagram (List.mem_cons_of_mem _ hmem))
            (Nat.le_of_succ_le_succ hlen)
          simp [landed, emitAll, emit, hsize, htail, plainSlot]

theorem delivered_plain (features : Features) {datagrams : List Datagram}
    (h : ∀ datagram ∈ datagrams, groSize features datagram.control = 0)
    {batch : RecvBatchRaw bufSize}
    (hlen : datagrams.length ≤ batch.capacity) :
    delivered features batch datagrams =
      .ok (.ok datagrams.length,
        ⟨fillSlots (plainSlot features) datagrams batch.slots,
          datagrams.length⟩) := by
  rw [RecvBatchRaw.capacity] at hlen
  simp [delivered, emitAll_plain features h hlen, fillSlots,
    Nat.min_eq_left hlen]

/-! ## The fallback for `ENOSYS` -/

structure SameView (first second : RecvBatchRaw bufSize) : Prop where
  len : first.len = second.len
  data : ∀ i < first.len, first.data i = second.data i
  addr : ∀ i < first.len, first.addr i = second.addr i

theorem SameView.refl (batch : RecvBatchRaw bufSize) : SameView batch batch :=
  ⟨rfl, fun _ _ => rfl, fun _ _ => rfl⟩

def SameRecv (first second : RecvOutcome bufSize) : Prop :=
  ∃ result batch batch', first = .ok (result, batch) ∧
    second = .ok (result, batch') ∧ SameView batch batch'

@[simp] theorem sameRecv_ok_iff {result result' : IoResult Nat}
    {batch batch' : RecvBatchRaw bufSize} :
    SameRecv (.ok (result, batch)) (.ok (result', batch')) ↔
      result = result' ∧ SameView batch batch' := by
  constructor
  · rintro ⟨_, _, _, hfirst, hsecond, hview⟩
    obtain ⟨rfl, rfl⟩ : _ ∧ _ := by simpa using hfirst
    obtain ⟨rfl, rfl⟩ : _ ∧ _ := by simpa using hsecond
    exact ⟨rfl, hview⟩
  · rintro ⟨rfl, hview⟩
    exact ⟨_, _, _, rfl, rfl, hview⟩

/-- When the fallback does what `recvmmsg` does.  The first answer is a hard
error; or it is a datagram, the 32-bit count covers the datagrams in front of
the first refusal, and that refusal, if the batch has a slot left for it, is
`WouldBlock`.  With a count that wrapped to zero, there is no datagram at all
and the batch was empty. -/
def ReceivesAlike (batch : RecvBatchRaw bufSize)
    (script : List (Except Fault Datagram)) : Prop :=
  if vlen batch.capacity = 0 then
    (ask .wouldBlock script).1 = .error .wouldBlock ∧ batch.len = 0
  else
    (∃ code, (ask .wouldBlock script).1 = .error (.hard code)) ∨
    (granted batch.capacity script ≠ [] ∧
      (granted batch.capacity script).length ≤ vlen batch.capacity ∧
      ∀ fault, refusal .wouldBlock batch.capacity script = some fault →
        fault = .wouldBlock)

theorem perPacketRecvResult_eq_ok_iff {n m : Nat}
    {script : List (Except Fault Datagram)} :
    perPacketRecvResult 0 n script = .ok m ↔
      (granted n script).length = m ∧
      ∀ fault, refusal .wouldBlock n script = some fault →
        fault = .wouldBlock := by
  unfold perPacketRecvResult
  split
  · next h => simp [h]
  · next h => simp [h]
  · next fault hne h =>
      simp only [h, reduceCtorEq, Option.some.injEq, forall_eq', false_iff,
        not_and]
      intro _ hfault
      exact hne hfault

theorem perPacketRecvResult_fails_iff {received n : Nat}
    {script : List (Except Fault Datagram)} :
    (∃ error, perPacketRecvResult received n script = .error error) ↔
      ¬ ∀ fault, refusal .wouldBlock n script = some fault →
        fault = .wouldBlock := by
  unfold perPacketRecvResult
  split
  · next h => simp [h]
  · next h => simp [h]
  · next fault hne h =>
      simp only [h, Except.error.injEq, exists_eq', Option.some.injEq,
        forall_eq', true_iff]
      exact hne

theorem isInterrupted_error {fault : Fault} (h : fault ≠ .interrupted) :
    isInterrupted (.error fault : Except Fault Datagram) = false := by
  cases fault with
  | interrupted => exact absurd rfl h
  | wouldBlock | hard => rfl

theorem tryRecvBatch_not_interrupted (features : Features) (host : Host)
    {batch : RecvBatchRaw bufSize} (hcap : 0 < batch.capacity) {os : Os}
    (h : os.hasRecvmmsg = true) (batch' : RecvBatchRaw bufSize) :
    (tryRecvBatch features host batch os).1 ≠
      .ok (.error Fault.interrupted.error, batch') := by
  rw [tryRecvBatch_of_recvmmsg features host hcap h]
  cases hresult : recvManyResult (vlen batch.capacity)
      (recvAnswers batch os) with
  | error fault =>
      intro hsame
      obtain ⟨herror, -⟩ : fault.error = Fault.interrupted.error ∧
          batch = batch' := by simpa using hsame
      obtain rfl := Fault.error_injective herror
      obtain ⟨hpos, rest, hrest⟩ := recvManyResult_interrupted hresult
      have hhead := List.head?_dropWhile_not isInterrupted os.recvScript
      rw [recvAnswers, skipInterrupted, if_neg (by omega)] at hrest
      simp [hrest, isInterrupted] at hhead
  | ok datagrams =>
      simp only [delivered]
      split <;> simp

theorem sameRecv_of_datagram (features : Features) (host : Host)
    {batch : RecvBatchRaw bufSize} (hcap : 0 < batch.capacity) (os : Os)
    (h : os.hasRecvmmsg = true) (hvlen : vlen batch.capacity ≠ 0)
    (hplain : ∀ datagram, .ok datagram ∈ os.recvScript →
      datagram.control = [])
    {datagram : Datagram} {script : List (Except Fault Datagram)}
    (hscript : os.recvScript = .ok datagram :: script) :
    SameRecv (fallbackRecv host batch os).1
        (tryRecvBatch features host batch os).1 ↔
      (granted batch.capacity os.recvScript).length ≤ vlen batch.capacity ∧
      ∀ fault, refusal .wouldBlock batch.capacity os.recvScript =
        some fault → fault = .wouldBlock := by
  have hgranted : ∀ n, ∀ datagram ∈ granted n os.recvScript,
      datagram.control = [] :=
    fun n datagram hmem => hplain datagram (mem_of_mem_granted hmem)
  have hanswers : recvAnswers batch os = os.recvScript := by
    rw [recvAnswers, hscript]
    exact skipInterrupted_of_not _ rfl _
  have hmore : ∀ n, n ≠ 0 → granted n os.recvScript ≠ [] := by
    intro n hn
    obtain ⟨n, rfl⟩ := Nat.exists_eq_succ_of_ne_zero hn
    simp [hscript, granted]
  have hresult : recvManyResult (vlen batch.capacity) os.recvScript =
      .ok (granted (vlen batch.capacity) os.recvScript) := by
    unfold recvManyResult
    split
    · next hnil => exact absurd hnil (hmore _ hvlen)
    · rfl
  have hcount := (granted_length_le (vlen batch.capacity)
    os.recvScript).trans (vlen_le batch.capacity)
  rw [fallbackRecv_eq, tryRecvBatch_of_recvmmsg features host hcap h,
    hanswers, hresult]
  simp only
  rw [delivered_plain features
    (fun datagram hmem => by
      rw [hgranted _ datagram hmem, groSize_nil]) hcount,
    sameRecv_ok_iff, perPacketRecvResult_eq_ok_iff,
    if_neg (hmore _ (by omega)), stored_eq_fillSlots]
  have hfront := granted_of_le (vlen_le batch.capacity) os.recvScript
  constructor
  · rintro ⟨⟨hlength, hrefusal⟩, -⟩
    exact ⟨hlength ▸ granted_length_le _ _, hrefusal⟩
  · rintro ⟨hle, hrefusal⟩
    rw [List.take_of_length_le hle] at hfront
    rw [hfront, fillSlots, fillSlots,
      zipWith_plainSlot features (hgranted batch.capacity)]
    exact ⟨⟨rfl, hrefusal⟩, .refl _⟩

theorem sameRecv_of_refused (features : Features) (host : Host)
    {batch : RecvBatchRaw bufSize} (hcap : 0 < batch.capacity) (os : Os)
    (h : os.hasRecvmmsg = true) (hvlen : vlen batch.capacity ≠ 0)
    {fault : Fault}
    (hfault : (ask .wouldBlock os.recvScript).1 = .error fault) :
    SameRecv (fallbackRecv host batch os).1
        (tryRecvBatch features host batch os).1 ↔
      ∃ code, fault = .hard code := by
  obtain ⟨hgranted, hrefusal⟩ := refused_at_once hfault batch.capacity
  have hfallback : (fallbackRecv host batch os).1 =
      .ok (perPacketRecvResult 0 batch.capacity os.recvScript, batch) := by
    rw [fallbackRecv_eq, if_pos hgranted, hgranted, stored_eq_fillSlots,
      fillSlots_nil]
  have hfast : fault ≠ .interrupted →
      (tryRecvBatch features host batch os).1 =
        .ok (.error fault.error, batch) := by
    intro hne
    have hanswers : recvAnswers batch os = os.recvScript := by
      rw [recvAnswers]
      cases hscript : os.recvScript with
      | nil => simp [skipInterrupted]
      | cons answer script =>
          obtain rfl : answer = .error fault := by
            simpa [hscript, ask] using hfault
          exact skipInterrupted_of_not _ (isInterrupted_error hne) _
    obtain ⟨hnone, hsome⟩ := refused_at_once hfault (vlen batch.capacity)
    rw [tryRecvBatch_of_recvmmsg features host hcap h, hanswers,
      recvManyResult, hnone, hsome hvlen]
  rw [hfallback, perPacketRecvResult, hrefusal (by omega)]
  cases fault with
  | wouldBlock =>
      rw [hfast (by simp)]
      simp
  | interrupted =>
      simp only [reduceCtorEq, exists_false, iff_false]
      rintro ⟨result, _, batch', hresult, hsame, -⟩
      obtain ⟨rfl, -⟩ : _ ∧ _ := by simpa using hresult
      exact tryRecvBatch_not_interrupted features host hcap h batch' hsame
  | hard code =>
      rw [hfast (by simp)]
      simp [SameView.refl]

theorem sameRecv_of_vlen_zero (features : Features) (host : Host)
    {batch : RecvBatchRaw bufSize} (hcap : 0 < batch.capacity) (os : Os)
    (h : os.hasRecvmmsg = true) (hvlen : vlen batch.capacity = 0) :
    SameRecv (fallbackRecv host batch os).1
        (tryRecvBatch features host batch os).1 ↔
      (ask .wouldBlock os.recvScript).1 = .error .wouldBlock ∧
        batch.len = 0 := by
  have hempty : delivered features batch [] =
      .ok (.ok 0, ⟨batch.slots, 0⟩) := by
    rw [delivered_plain features (by simp) (Nat.zero_le _), fillSlots_nil]
    rfl
  rw [fallbackRecv_eq, tryRecvBatch_of_recvmmsg features host hcap h]
  simp only [hvlen, recvManyResult, refusal_zero, granted_zero, hempty,
    sameRecv_ok_iff, perPacketRecvResult_eq_ok_iff, List.length_eq_zero_iff]
  constructor
  · rintro ⟨⟨hgranted, hrefusal⟩, hview⟩
    have hlen := hview.len
    rw [if_pos hgranted] at hlen
    cases hfirst : refusal .wouldBlock batch.capacity os.recvScript with
    | none =>
        rw [refusal_eq_none_iff, hgranted, List.length_nil] at hfirst
        omega
    | some fault =>
        obtain rfl := hrefusal fault hfirst
        exact ⟨(refusal_of_granted_nil hfirst hgranted).1, hlen⟩
  · rintro ⟨hfault, hlen⟩
    obtain ⟨hgranted, hrefusal⟩ := refused_at_once hfault batch.capacity
    simp [hgranted, hrefusal (by omega), hlen, stored_eq_fillSlots,
      SameView.refl]

/-- The fallback returns the same result and leaves the same view of the batch
as the `recvmmsg` path exactly under `ReceivesAlike`. -/
theorem fallbackRecv_same_iff (features : Features) (host : Host)
    {batch : RecvBatchRaw bufSize} (hcap : 0 < batch.capacity) {os : Os}
    (hplain : ∀ datagram, .ok datagram ∈ os.recvScript →
      datagram.control = []) :
    SameRecv (fallbackRecv host batch os).1
        (tryRecvBatch features host batch { os with hasRecvmmsg := true }).1 ↔
      ReceivesAlike batch os.recvScript := by
  have hfallback : (fallbackRecv host batch os).1 =
      (fallbackRecv host batch { os with hasRecvmmsg := true }).1 := by
    simp only [fallbackRecv_eq]
  rw [hfallback, ReceivesAlike]
  split
  · next hvlen =>
      exact sameRecv_of_vlen_zero features host hcap
        { os with hasRecvmmsg := true } rfl hvlen
  · next hvlen =>
      cases hfirst : (ask .wouldBlock os.recvScript).1 with
      | error fault =>
          have hnone := (refused_at_once hfirst batch.capacity).1
          rw [sameRecv_of_refused features host hcap
            { os with hasRecvmmsg := true } rfl hvlen hfirst]
          simp [hnone]
      | ok datagram =>
          obtain ⟨script, hscript⟩ :
              ∃ script, os.recvScript = .ok datagram :: script := by
            cases hscript : os.recvScript with
            | nil => simp [hscript, ask] at hfirst
            | cons answer script =>
                exact ⟨script, by simpa [hscript, ask] using hfirst⟩
          have hsome : granted batch.capacity os.recvScript ≠ [] := by
            obtain ⟨n, hn⟩ := Nat.exists_eq_succ_of_ne_zero
              (Nat.ne_of_gt hcap)
            simp [hn, hscript, granted]
          rw [sameRecv_of_datagram features host hcap
            { os with hasRecvmmsg := true } rfl hvlen hplain hscript]
          simp [hsome]

def failingOs : Os where
  peer := none
  hasSendmmsg := true
  hasRecvmmsg := false
  hasSendmsgX := false
  hasRecvmsgX := false
  sendScript := []
  recvScript := [.ok ⟨[1], loopbackSource, []⟩, .error (.hard 111)]
  wire := []

theorem two_datagrams_received_alike :
    SameRecv
      (fallbackRecv ⟨.linux, .little⟩ (.withCapacity 3 4)
        { plainOs with hasRecvmmsg := false }).1
      (tryRecvBatch groOnly ⟨.linux, .little⟩ (.withCapacity 3 4) plainOs).1 :=
  (@fallbackRecv_same_iff 4 groOnly ⟨.linux, .little⟩ (.withCapacity 3 4)
    (by decide) { plainOs with hasRecvmmsg := false }
    (by simp [plainOs])).mpr (.inr ⟨by decide, by decide, by decide⟩)

/-- An error behind a datagram: the fallback reports the error, and `recvmmsg`
the datagram. -/
theorem fallbackRecv_drops_count :
    ¬ SameRecv
      (fallbackRecv ⟨.linux, .little⟩ (.withCapacity 2 4) failingOs).1
      (tryRecvBatch groOnly ⟨.linux, .little⟩ (.withCapacity 2 4)
        { failingOs with hasRecvmmsg := true }).1 := by
  have hcap : 0 < RecvBatchRaw.capacity (.withCapacity 2 4) := by decide
  have hslow := fallbackRecv_eq ⟨.linux, .little⟩ (.withCapacity 2 4) failingOs
  have hfast := tryRecvBatch_of_recvmmsg groOnly ⟨.linux, .little⟩ hcap
    (show ({ failingOs with hasRecvmmsg := true } : Os).hasRecvmmsg = true
      from rfl)
  rw [hslow, hfast]
  exact fun hsame => absurd (sameRecv_ok_iff.mp hsame).1 (by decide)

end Linux

end Binger.Platform
