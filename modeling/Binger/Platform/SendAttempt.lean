import Binger.Platform.SendSpec

/-!
# A send attempt as a function of the kernel's answers

For the questions of a retry loop the names and header arrays do not matter:
what an attempt returns, how many entries it gets accepted and which answers it
leaves depend only on the path taken, the length of the batch and the script.
`trySendBatch_performs` is the link to the backends.
-/

namespace Binger.Platform

open Binger.Foundation Binger.Sockaddr

/-- How a backend hands a batch to the kernel. -/
inductive SendPath where
  | perPacket
  | wsa
  | batched
  | batchedRetry
  deriving DecidableEq, Repr

def sendPath (backend : Backend) (os : Os) : SendPath :=
  match backend with
  | .linux => if os.hasSendmmsg then .batched else .perPacket
  | .macos =>
      if os.isConnected then .perPacket
      else if os.hasSendmsgX then .batchedRetry
      else .perPacket
  | .windows => .wsa
  | .fallback => .perPacket

structure Attempt where
  result : IoResult Nat
  accepted : Nat
  rest : List (Except Fault Unit)

def batchedAttempt (n : Nat) (script : List (Except Fault Unit)) : Attempt :=
  ⟨batchedResult n script, (granted n script).length, remaining n script⟩

def attempt (path : SendPath) (len : Nat) (script : List (Except Fault Unit)) :
    Attempt :=
  match path with
  | .perPacket =>
      ⟨perPacketResult 0 len script, (granted len script).length,
        remaining len script⟩
  | .wsa =>
      ⟨wsaResult 0 len script, (granted len script).length,
        remaining len script⟩
  | .batched => batchedAttempt (vlen len) script
  | .batchedRetry =>
      batchedAttempt (vlen len) (skipInterrupted (vlen len) script)

/-! ## What an attempt can report -/

theorem batchedResult_eq_ok {n accepted : Nat}
    {script : List (Except Fault Unit)}
    (h : batchedResult n script = .ok accepted) :
    accepted = (granted n script).length := by
  unfold batchedResult Os.sendManyResult at h
  split at h
  · next sent hsent =>
      split at hsent
      · simp at hsent
      · simp_all
  · simp at h

theorem batchedResult_eq_error {n : Nat} {script : List (Except Fault Unit)}
    {error : IoError} (h : batchedResult n script = .error error) :
    granted n script = [] ∧
      ∃ fault, refusal .wouldBlock n script = some fault ∧
        fault.error = error := by
  unfold batchedResult at h
  split at h
  · simp at h
  · next fault hfault =>
      obtain ⟨hrefusal, hgranted⟩ := Os.sendManyResult_error_iff.mp hfault
      exact ⟨hgranted, fault, hrefusal, by simpa using h⟩

theorem perPacketResult_eq_ok {n sent accepted : Nat}
    {script : List (Except Fault Unit)}
    (h : perPacketResult sent n script = .ok accepted) :
    accepted = sent + (granted n script).length := by
  unfold perPacketResult at h
  split at h <;> simp_all

theorem perPacketResult_ne_wouldBlock {n sent : Nat}
    {script : List (Except Fault Unit)} {error : IoError}
    (h : perPacketResult sent n script = .error error) :
    error.kind ≠ .wouldBlock := by
  unfold perPacketResult at h
  split at h
  · simp at h
  · simp at h
  · next fault hne hrefusal =>
      obtain rfl : fault.error = error := by simpa using h
      rw [Ne, Fault.error_kind_wouldBlock]
      rintro rfl
      exact hne rfl

theorem wsaResult_eq_ok {n sent accepted : Nat}
    {script : List (Except Fault Unit)}
    (h : wsaResult sent n script = .ok accepted) :
    accepted = sent + (granted n script).length := by
  unfold wsaResult at h
  split at h
  · simp_all
  · simp_all
  · split at h <;> simp_all

theorem wsaResult_eq_error {n sent : Nat} {script : List (Except Fault Unit)}
    {error : IoError} (h : wsaResult sent n script = .error error) :
    granted n script = [] := by
  unfold wsaResult at h
  split at h
  · simp at h
  · simp at h
  · split at h
    · simp at h
    · next hsent =>
        apply List.eq_nil_of_length_eq_zero
        omega

theorem wsaResult_fault {n sent : Nat} {script : List (Except Fault Unit)}
    {error : IoError} (h : wsaResult sent n script = .error error) :
    ∃ fault, refusal .wouldBlock n script = some fault ∧
      error = fault.error := by
  unfold wsaResult at h
  split at h
  · simp at h
  · simp at h
  · next fault hne hrefusal =>
      split at h
      · simp at h
      · obtain rfl : fault.error = error := by simpa using h
        exact ⟨fault, hrefusal, rfl⟩

theorem wsaResult_ne_wouldBlock {n sent : Nat}
    {script : List (Except Fault Unit)} {error : IoError}
    (h : wsaResult sent n script = .error error) :
    error.kind ≠ .wouldBlock := by
  unfold wsaResult at h
  split at h
  · simp at h
  · simp at h
  · next fault hne hrefusal =>
      split at h
      · simp at h
      · obtain rfl : fault.error = error := by simpa using h
        rw [Ne, Fault.error_kind_wouldBlock]
        rintro rfl
        exact hne rfl

section Attempt

variable (path : SendPath) (len : Nat) (script : List (Except Fault Unit))

theorem attempt_accepted_le : (attempt path len script).accepted ≤ len := by
  cases path with
  | perPacket => exact granted_length_le len script
  | wsa => exact granted_length_le len script
  | batched => exact (granted_length_le _ script).trans (vlen_le len)
  | batchedRetry => exact (granted_length_le _ _).trans (vlen_le len)

theorem attempt_ok {sent : Nat}
    (h : (attempt path len script).result = .ok sent) :
    sent = (attempt path len script).accepted := by
  cases path with
  | perPacket => simpa [attempt] using perPacketResult_eq_ok h
  | wsa => simpa [attempt] using wsaResult_eq_ok h
  | batched => exact batchedResult_eq_ok h
  | batchedRetry => exact batchedResult_eq_ok h

theorem attempt_wouldBlock {error : IoError}
    (h : (attempt path len script).result = .error error)
    (hkind : error.kind = .wouldBlock) :
    (attempt path len script).accepted = 0 := by
  cases path with
  | perPacket => exact absurd hkind (perPacketResult_ne_wouldBlock h)
  | wsa => exact absurd hkind (wsaResult_ne_wouldBlock h)
  | batched => simp [attempt, batchedAttempt, (batchedResult_eq_error h).1]
  | batchedRetry =>
      simp [attempt, batchedAttempt, (batchedResult_eq_error h).1]

end Attempt

/-! ## The backends perform attempts -/

def sentPayload (backend : Backend) : SendSlot → List UInt8 :=
  match backend with
  | .windows => wsaPayload
  | _ => wholePayload

def items (backend : Backend) (batch : SendBatchRaw) :
    List (Nat × List UInt8) :=
  batch.entries.zipIdx.map fun (entry, i) => (i, sentPayload backend entry)

@[simp] theorem items_length (backend : Backend) (batch : SendBatchRaw) :
    (items backend batch).length = batch.len := by
  simp [items]

theorem map_fst_items (backend : Backend) (batch : SendBatchRaw) :
    (items backend batch).map Prod.fst = List.range batch.len := by
  simp [items, Function.comp_def, List.range_eq_range']

theorem map_item_outgoing (route : Nat → SendSlot → Option SocketAddr)
    (cut : SendSlot → List UInt8) (peer : Option SocketAddr)
    (entries : List SendSlot) (i : Nat) :
    (outgoing route cut peer entries i).map Sent.item =
      (entries.zipIdx i).map fun (entry, k) => (k, cut entry) := by
  simp [outgoing, Function.comp_def, Sent.item]

structure Performs (backend : Backend) (batch : SendBatchRaw) (os : Os)
    (out : IoResult Nat × Os) (done : Attempt) : Prop where
  result : out.1 = done.result
  wire : ∃ accepted, out.2.wire = os.wire ++ accepted ∧
    accepted.map Sent.item = (items backend batch).take done.accepted
  script : out.2.sendScript = done.rest
  path : sendPath backend out.2 = sendPath backend os

theorem performs_of_offering {backend : Backend} {batch : SendBatchRaw}
    {os : Os} {script : List (Except Fault Unit)} {result : IoResult Nat}
    {route : Nat → SendSlot → Option SocketAddr} {n : Nat} (hn : n ≤ batch.len)
    {messages : List Sent}
    (hmessages : messages = (outgoing route (sentPayload backend) os.peer
      batch.entries 0).take n) :
    Performs backend batch os
      (result, Os.afterOffering { os with sendScript := script } messages)
      ⟨result, (granted n script).length, remaining n script⟩ := by
  have hlength : messages.length = n := by simp [hmessages, hn]
  constructor
  case result => rfl
  case wire =>
    have hle := granted_length_le n script
    refine ⟨messages.take (granted n script).length, ?_, ?_⟩
    · simp [Os.afterOffering, hlength]
    · simp [hmessages, List.take_take, List.map_take, map_item_outgoing, items,
        Nat.min_eq_left hle]
  case script => simp [Os.afterOffering, hlength]
  case path => rfl

theorem outgoing_take_len (route : Nat → SendSlot → Option SocketAddr)
    (cut : SendSlot → List UInt8) (peer : Option SocketAddr)
    (batch : SendBatchRaw) :
    outgoing route cut peer batch.entries 0 =
      (outgoing route cut peer batch.entries 0).take batch.len := by
  rw [List.take_of_length_le]
  simp

theorem trySendBatch_performs (backend : Backend) (host : Host)
    (batch : SendBatchRaw) (os : Os) :
    Performs backend batch os (trySendBatch backend host batch os)
      (attempt (sendPath backend os) batch.len os.sendScript) := by
  cases backend with
  | linux =>
      cases h : os.hasSendmmsg with
      | true =>
          simp only [trySendBatch, Linux.trySendBatch_of_sendmmsg host batch h,
            sendPath, h, if_true]
          exact performs_of_offering (vlen_le batch.len) rfl
      | false =>
          simp only [trySendBatch, Linux.trySendBatch_of_enosys host batch h,
            Linux.fallbackSend_eq, sendPath, h, Bool.false_eq_true, if_false]
          exact performs_of_offering (Nat.le_refl _) (outgoing_take_len ..)
  | macos =>
      by_cases h : os.isConnected = true ∨ os.hasSendmsgX = false
      · have hpath : sendPath .macos os = .perPacket := by
          rcases h with h | h <;> simp [sendPath, h]
        simp only [trySendBatch, Macos.trySendBatch_of_loop host batch h,
          hpath]
        exact performs_of_offering (Nat.le_refl _) (outgoing_take_len ..)
      · simp only [not_or, Bool.not_eq_true, Bool.not_eq_false] at h
        have hpath : sendPath .macos os = .batchedRetry := by
          simp [sendPath, h]
        simp only [trySendBatch,
          Macos.trySendBatch_of_sendmsgX host batch h.1 h.2, hpath]
        exact performs_of_offering (vlen_le batch.len) rfl
  | windows =>
      simp only [trySendBatch, Windows.trySendBatch_eq, sendPath]
      exact performs_of_offering (Nat.le_refl _) (outgoing_take_len ..)
  | fallback =>
      have hbatch := perPacketSend_batch host os.isConnected batch os
      simp only [trySendBatch, Fallback.trySendBatch, hbatch, sendPath]
      exact performs_of_offering (Nat.le_refl _) (outgoing_take_len ..)

theorem trySendBatch_sent (backend : Backend) (host : Host)
    (batch : SendBatchRaw) (os : Os) :
    ∃ sent,
      (trySendBatch backend host batch os).2.wire = os.wire ++ sent ∧
      sent.map Sent.data <+: (items backend batch).map Prod.snd ∧
      sent.length =
        (attempt (sendPath backend os) batch.len os.sendScript).accepted := by
  obtain ⟨sent, hwire, hitems⟩ :=
    (trySendBatch_performs backend host batch os).wire
  have hdata : sent.map Sent.data = (sent.map Sent.item).map Prod.snd := by
    simp [Function.comp_def, Sent.item]
  refine ⟨sent, hwire, ?_, ?_⟩
  · rw [hdata, hitems]
    exact (List.take_prefix _ _).map _
  · have hlength := congrArg List.length hitems
    rwa [List.length_map, List.length_take, items_length,
      Nat.min_eq_left (attempt_accepted_le _ _ _)] at hlength

end Binger.Platform
