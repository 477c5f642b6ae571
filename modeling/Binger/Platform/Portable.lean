import Binger.Platform.LinuxSend
import Binger.Platform.RecvTakes
import Binger.Platform.SendAttempt

/-!
# The backends against the generic one

`fallback.rs` makes one call for each packet and defines what the other backends
are meant to do faster.  A caller cannot tell them apart as long as the batched
calls have no reason of their own to do something else: the count fits its
32-bit parameter, the names in the headers are those of the batch, and the
kernel stops the series where the loops report the same.  The conditions below
are per path, and a loop that is the generic one has none.
-/

namespace Binger.Platform

open Binger.Foundation Binger.Sockaddr

variable {bufSize : Nat}

theorem vlen_of_lt {n : Nat} (h : n < 2 ^ 32) : vlen n = n :=
  Nat.mod_eq_of_lt h

/-! ## Sending -/

/-- What a batched send relies on.  It reports a full buffer as `WouldBlock`
unless a datagram went before, and an error only at the first one. -/
structure PlainSend (batch : SendBatchRaw) (os : Os) : Prop where
  count : batch.len < 2 ^ 32
  aligned : Linux.AddressesAligned batch.entries
  peer : ∀ entry ∈ batch.entries, ∀ addr, entry.addr = some addr →
    os.peer.getD addr = addr
  stop : ∀ fault, refusal .wouldBlock batch.len os.sendScript = some fault →
    fault ≠ .interrupted ∧
      (fault = .wouldBlock ↔ granted batch.len os.sendScript ≠ [])

/-- `WSASendMsg` takes a 32-bit length, and its loop keeps quiet about an error
behind the first datagram. -/
structure PlainWsaSend (batch : SendBatchRaw) (os : Os) : Prop where
  length : ∀ entry ∈ batch.entries, entry.data.bytes.length < 2 ^ 32
  stop : ∀ fault, refusal .wouldBlock batch.len os.sendScript = some fault →
    fault = .wouldBlock ∨ granted batch.len os.sendScript = []

def PortableSend (backend : Backend) (batch : SendBatchRaw) (os : Os) : Prop :=
  match sendPath backend os with
  | .perPacket => True
  | .wsa => PlainWsaSend batch os
  | .batched | .batchedRetry => PlainSend batch os

theorem Fallback.trySendBatch_eq (host : Host) (batch : SendBatchRaw)
    (os : Os) :
    Fallback.trySendBatch host batch os =
      (perPacketResult 0 batch.len os.sendScript,
        os.afterOffering (outgoing (perPacketRoute os.isConnected) wholePayload
          os.peer batch.entries 0)) :=
  perPacketSend_batch host os.isConnected batch os

theorem outgoing_eq_of_entries {first second : Nat → SendSlot →
    Option SocketAddr} {cut cut' : SendSlot → List UInt8}
    {peer : Option SocketAddr} {entries : List SendSlot}
    (hroute : ∀ i (hi : i < entries.length),
      (first i entries[i] <|> peer) = (second i entries[i] <|> peer))
    (hcut : ∀ entry ∈ entries, cut entry = cut' entry) :
    outgoing first cut peer entries 0 =
      outgoing second cut' peer entries 0 := by
  apply List.map_congr_left
  rintro ⟨entry, k⟩ hmem
  obtain ⟨hk, hentry⟩ := List.mem_zipIdx' hmem
  simp only [hentry, hroute k hk, hcut _ (List.getElem_mem hk)]

namespace PlainSend

variable {batch : SendBatchRaw} {os : Os}

theorem result_eq (h : PlainSend batch os) :
    batchedResult batch.len os.sendScript =
      perPacketResult 0 batch.len os.sendScript := by
  rw [batchedResult, Os.sendManyResult, perPacketResult]
  cases hrefusal : refusal .wouldBlock batch.len os.sendScript with
  | none => simp
  | some fault =>
      obtain ⟨-, hstop⟩ := h.stop fault hrefusal
      cases hgranted : granted batch.len os.sendScript with
      | nil =>
          rw [hgranted] at hstop
          cases fault with
          | wouldBlock => simp at hstop
          | interrupted | hard => rfl
      | cons value rest =>
          rw [hgranted] at hstop
          obtain rfl := hstop.mpr (by simp)
          simp

theorem skipInterrupted_eq (h : PlainSend batch os) :
    skipInterrupted batch.len os.sendScript = os.sendScript := by
  rcases Nat.eq_zero_or_pos batch.len with hzero | hpos
  · simp [skipInterrupted, hzero]
  · apply skipInterrupted_of_first
    intro hfirst
    have hrefusal := (refused_at_once hfirst batch.len).2 (by omega)
    exact (h.stop _ hrefusal).1 rfl

theorem heapRoute_eq (h : PlainSend batch os) {i : Nat}
    (hi : i < batch.entries.length) :
    (heapRoute batch.entries i batch.entries[i] <|> os.peer) =
      (perPacketRoute os.isConnected i batch.entries[i] <|> os.peer) := by
  have hmem := List.getElem_mem hi
  cases haddr : batch.entries[i].addr with
  | none => simp [heapRoute, perPacketRoute, haddr]
  | some addr =>
      have halign := h.aligned i hi addr haddr
      have hpeer := h.peer _ hmem addr haddr
      cases hos : os.peer with
      | none =>
          simp [heapRoute, perPacketRoute, haddr, halign, Os.isConnected, hos]
      | some peer =>
          obtain rfl : peer = addr := by simpa [hos] using hpeer
          simp [heapRoute, perPacketRoute, haddr, halign, Os.isConnected, hos]

theorem route_eq (h : PlainSend batch os) {i : Nat}
    (hi : i < batch.entries.length) :
    Linux.route batch i batch.entries[i] =
      heapRoute batch.entries i batch.entries[i] := by
  rw [Linux.route]
  split
  · cases haddr : batch.entries[i].addr with
    | none => simp [heapRoute, haddr]
    | some addr => simp [heapRoute, haddr, h.aligned i hi addr haddr]
  · rfl

end PlainSend

theorem outgoing_all (route : Nat → SendSlot → Option SocketAddr)
    (batch : SendBatchRaw) (os : Os) :
    (outgoing route wholePayload os.peer batch.entries 0).take batch.len =
      outgoing route wholePayload os.peer batch.entries 0 := by
  apply List.take_of_length_le
  rw [outgoing_length, batch.entries_length]

theorem Linux.trySendBatch_portable (host : Host) {batch : SendBatchRaw}
    {os : Os} (h : os.hasSendmmsg = true → PlainSend batch os) :
    Linux.trySendBatch host batch os = Fallback.trySendBatch host batch os := by
  rw [Fallback.trySendBatch_eq]
  cases hmmsg : os.hasSendmmsg with
  | false =>
      rw [Linux.trySendBatch_of_enosys host batch hmmsg,
        Linux.fallbackSend_eq]
  | true =>
      have hplain := h hmmsg
      rw [Linux.trySendBatch_of_sendmmsg host batch hmmsg,
        vlen_of_lt hplain.count, hplain.result_eq, outgoing_all]
      congr 2
      apply outgoing_eq_of_entries _ fun _ _ => rfl
      intro i hi
      rw [hplain.route_eq hi, hplain.heapRoute_eq hi]

theorem Macos.trySendBatch_portable (host : Host) {batch : SendBatchRaw}
    {os : Os} (h : os.isConnected = false → os.hasSendmsgX = true →
      PlainSend batch os) :
    Macos.trySendBatch host batch os = Fallback.trySendBatch host batch os := by
  rw [Fallback.trySendBatch_eq]
  by_cases hloop : os.isConnected = true ∨ os.hasSendmsgX = false
  · rw [Macos.trySendBatch_of_loop host batch hloop]
  · simp only [not_or, Bool.not_eq_true, Bool.not_eq_false] at hloop
    obtain ⟨hconn, hmsgx⟩ := hloop
    have hplain := h hconn hmsgx
    rw [Macos.trySendBatch_of_sendmsgX host batch hconn hmsgx,
      vlen_of_lt hplain.count, hplain.skipInterrupted_eq, hplain.result_eq,
      outgoing_all]
    congr 2
    apply outgoing_eq_of_entries _ fun _ _ => rfl
    intro i hi
    exact hplain.heapRoute_eq hi

theorem Windows.trySendBatch_portable (host : Host) {batch : SendBatchRaw}
    {os : Os} (h : PlainWsaSend batch os) :
    Windows.trySendBatch host batch os =
      Fallback.trySendBatch host batch os := by
  have hresult : wsaResult 0 batch.len os.sendScript =
      perPacketResult 0 batch.len os.sendScript := by
    rw [wsaResult, perPacketResult]
    split
    · rfl
    · rfl
    · next fault hfault hrefusal =>
        rcases h.stop fault hrefusal with rfl | hgranted
        · exact absurd rfl hfault
        · simp [hgranted]
  have hcut : ∀ entry ∈ batch.entries,
      wsaPayload entry = wholePayload entry := by
    intro entry hmem
    rw [wsaPayload, Nat.mod_eq_of_lt (h.length entry hmem), List.take_length]
    rfl
  rw [Fallback.trySendBatch_eq, Windows.trySendBatch_eq, hresult,
    outgoing_eq_of_entries (fun _ _ => rfl) hcut]

/-- Where nothing sets a backend apart it sends as the generic one does. -/
theorem trySendBatch_portable {backend : Backend} (host : Host)
    {batch : SendBatchRaw} {os : Os} (h : PortableSend backend batch os) :
    trySendBatch backend host batch os =
      trySendBatch .fallback host batch os := by
  rw [PortableSend] at h
  cases backend with
  | linux =>
      apply Linux.trySendBatch_portable host
      intro hmmsg
      simpa only [sendPath, hmmsg, if_true] using h
  | macos =>
      apply Macos.trySendBatch_portable host
      intro hconn hmsgx
      simpa only [sendPath, hconn, hmsgx, Bool.false_eq_true, if_false,
        if_true] using h
  | windows => exact Windows.trySendBatch_portable host h
  | fallback => rfl

/-! ## Receiving -/

/-- What a batched receive relies on.  It reports an error only when it has
nothing to show, and starts again behind an interruption. -/
structure PlainRecv (batch : RecvBatchRaw bufSize) (os : Os) : Prop where
  count : batch.capacity < 2 ^ 32
  stop : ∀ fault,
    refusal .wouldBlock batch.capacity os.recvScript = some fault →
    fault = .wouldBlock ∨
      fault ≠ .interrupted ∧ granted batch.capacity os.recvScript = []

def PortableRecv (backend : Backend) (features : Features)
    (batch : RecvBatchRaw bufSize) (os : Os) : Prop :=
  match backend with
  | .linux => os.hasRecvmmsg = true → PlainRecv batch os ∧
      ∀ datagram ∈ granted batch.capacity os.recvScript,
        groSize features datagram.control = 0
  | .macos => os.hasRecvmsgX = true → PlainRecv batch os
  | .windows => ∀ datagram, .ok datagram ∈ os.recvScript →
      datagram.payload.length ≤ wsaBufLen bufSize
  | .fallback => True

/-- Two outcomes of a receive into `batch` that show a caller the same.  Where
nothing is pending the loops return zero and the batched calls fail, and a
packet may come with metadata on one side only. -/
inductive ShowsAlike (batch : RecvBatchRaw bufSize) :
    RecvOutcome bufSize × Os → RecvOutcome bufSize × Os → Prop
  | same (call : RecvOutcome bufSize × Os) : ShowsAlike batch call call
  | idle (os : Os) : ShowsAlike batch
      (.ok (.error Fault.wouldBlock.error, batch), os)
      (.ok (.ok 0, batch), os)
  | took {n : Nat} {first second : RecvBatchRaw bufSize}
      {entry : List UInt8 × SocketAddr}
      {entries : List (List UInt8 × SocketAddr)} (os : Os)
      (hfirst : first.read (n + 1) = .ok (entry :: entries))
      (hsecond : second.read (n + 1) = .ok (entry :: entries)) :
      ShowsAlike batch (.ok (.ok (n + 1), first), os)
        (.ok (.ok (n + 1), second), os)

theorem PlainRecv.recvAnswers_eq {batch : RecvBatchRaw bufSize} {os : Os}
    (hcap : 0 < batch.capacity) (h : PlainRecv batch os) :
    Linux.recvAnswers batch os = os.recvScript := by
  rw [Linux.recvAnswers]
  apply skipInterrupted_of_first
  intro hfirst
  have hrefusal := (refused_at_once hfirst batch.capacity).2 (by omega)
  rcases h.stop _ hrefusal with hfault | ⟨hne, -⟩
  · cases hfault
  · exact hne rfl

theorem PlainRecv.showsAlike {batch : RecvBatchRaw bufSize} {os : Os}
    (hcap : 0 < batch.capacity) (h : PlainRecv batch os)
    {fill : Datagram → RecvSlot bufSize → RecvSlot bufSize}
    (hfill : FillsEntry bufSize fill) :
    ShowsAlike batch
      (match recvManyResult (vlen batch.capacity)
          (Linux.recvAnswers batch os) with
        | .error fault => .ok (.error fault.error, batch)
        | .ok datagrams => .ok (.ok datagrams.length,
            ⟨fillSlots fill datagrams batch.slots, datagrams.length⟩),
        { os with
          recvScript := remaining (vlen batch.capacity)
            (Linux.recvAnswers batch os) })
      (perPacketOutcome batch
          (stored (granted batch.capacity os.recvScript) batch.slots)
          os.recvScript,
        { os with recvScript := remaining batch.capacity os.recvScript }) := by
  have hlength := granted_length_le batch.capacity os.recvScript
  rw [vlen_of_lt h.count, h.recvAnswers_eq hcap, perPacketOutcome,
    stored_eq_fillSlots]
  cases hgranted : granted batch.capacity os.recvScript with
  | nil =>
      -- the refusal is the first answer, and both sides leave the batch alone
      obtain ⟨fault, hrefusal⟩ : ∃ fault,
          refusal .wouldBlock batch.capacity os.recvScript = some fault := by
        rw [← Option.ne_none_iff_exists', Ne, refusal_eq_none_iff, hgranted]
        exact Nat.ne_of_lt hcap
      have hmany : recvManyResult batch.capacity os.recvScript =
          .error fault := by
        rw [recvManyResult, hrefusal, hgranted]
      rw [hmany, perPacketRecvResult, hrefusal, hgranted]
      simp only [fillSlots_nil, if_true]
      cases fault with
      | wouldBlock => exact .idle _
      | interrupted | hard => exact .same _
  | cons datagram datagrams =>
      rw [hgranted] at hlength
      have hmany : recvManyResult batch.capacity os.recvScript =
          .ok (datagram :: datagrams) := by
        rw [recvManyResult, hgranted]
        cases refusal .wouldBlock batch.capacity os.recvScript <;> rfl
      have hloop : perPacketRecvResult 0 batch.capacity os.recvScript =
          .ok (datagrams.length + 1) := by
        rw [Linux.perPacketRecvResult_eq_ok_iff, hgranted]
        refine ⟨rfl, fun fault hrefusal => ?_⟩
        rcases h.stop fault hrefusal with hfault | ⟨-, hnil⟩
        · exact hfault
        · rw [hgranted] at hnil
          cases hnil
      rw [hmany, hloop]
      exact .took _ (read_fillSlots hfill hlength _)
        (read_fillSlots datagramSlot_fillsEntry hlength _)

theorem Fallback.tryRecvBatch_eq (host : Host) (batch : RecvBatchRaw bufSize)
    (os : Os) :
    Fallback.tryRecvBatch host batch os =
      (perPacketOutcome batch
          (stored (granted batch.capacity os.recvScript) batch.slots)
          os.recvScript,
        { os with recvScript := remaining batch.capacity os.recvScript }) :=
  perPacketRecv_outcome host batch os

theorem Linux.tryRecvBatch_portable {features : Features} (host : Host)
    {batch : RecvBatchRaw bufSize} (hcap : 0 < batch.capacity) {os : Os}
    (h : os.hasRecvmmsg = true → PlainRecv batch os ∧
      ∀ datagram ∈ granted batch.capacity os.recvScript,
        groSize features datagram.control = 0) :
    ShowsAlike batch (Linux.tryRecvBatch features host batch os)
      (Fallback.tryRecvBatch host batch os) := by
  cases hmmsg : os.hasRecvmmsg with
  | false =>
      rw [Linux.tryRecvBatch_of_enosys features host hcap hmmsg]
      exact .same _
  | true =>
      obtain ⟨hplain, hwhole⟩ := h hmmsg
      have halike := hplain.showsAlike hcap (plainSlot_fillsEntry features)
      rw [Fallback.tryRecvBatch_eq,
        Linux.tryRecvBatch_of_recvmmsg features host hcap hmmsg]
      cases hresult : recvManyResult (vlen batch.capacity)
          (Linux.recvAnswers batch os) with
      | error fault =>
          rw [hresult] at halike
          exact halike
      | ok datagrams =>
          rw [hresult] at halike
          obtain ⟨hgranted, hlength⟩ := Linux.recvManyResult_length hresult
          rw [hplain.recvAnswers_eq hcap, vlen_of_lt hplain.count] at hgranted
          subst hgranted
          simp only [Linux.delivered_plain features hwhole
            (hlength.trans (vlen_le batch.capacity))]
          exact halike

theorem Macos.tryRecvBatch_portable (host : Host)
    {batch : RecvBatchRaw bufSize} (hcap : 0 < batch.capacity) {os : Os}
    (h : os.hasRecvmsgX = true → PlainRecv batch os) :
    ShowsAlike batch (Macos.tryRecvBatch host batch os)
      (Fallback.tryRecvBatch host batch os) := by
  cases hmsgx : os.hasRecvmsgX with
  | false =>
      rw [Macos.tryRecvBatch_of_recvfrom host batch hmsgx]
      exact .same _
  | true =>
      have halike := (h hmsgx).showsAlike hcap datagramSlot_fillsEntry
      rw [Fallback.tryRecvBatch_eq, Macos.tryRecvBatch_stored host hcap hmsgx]
      simp only [stored_eq_fillSlots] at halike ⊢
      exact halike

/-- Where nothing sets a backend apart a caller receives the same as from the
generic one. -/
theorem tryRecvBatch_portable {backend : Backend} {features : Features}
    (host : Host) {batch : RecvBatchRaw bufSize} {os : Os}
    (h : PortableRecv backend features batch os) :
    ShowsAlike batch (tryRecvBatch backend features host batch os)
      (tryRecvBatch .fallback features host batch os) := by
  rcases Nat.eq_zero_or_pos batch.capacity with hzero | hcap
  · rw [tryRecvBatch_no_slots backend features host hzero,
      tryRecvBatch_no_slots .fallback features host hzero]
    exact .same _
  cases backend with
  | linux => exact Linux.tryRecvBatch_portable host hcap h
  | macos => exact Macos.tryRecvBatch_portable host hcap h
  | windows =>
      rw [tryRecvBatch, tryRecvBatch, Fallback.tryRecvBatch_eq,
        Windows.tryRecvBatch_eq, map_wsaAnswer h, wsaStored_eq h,
        ← remaining_eq_drop]
      exact .same _
  | fallback => exact .same _

end Binger.Platform
