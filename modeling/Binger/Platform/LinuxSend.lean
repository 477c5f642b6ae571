import Mathlib.Data.List.TakeDrop
import Binger.Platform.SendSpec

/-!
# Sending on Linux

Two comparisons.  The headers of a batch of more than `MAX_STACK` entries are
compared with the batch, and the `ENOSYS` fallback is compared with the
`sendmmsg` path it stands in for.
-/

namespace Binger.Platform.Linux

open Binger.Foundation Binger.Sockaddr

/-! ## The heap path -/

/-- Every addressed entry has the address of the entry whose index is the
number of addressed entries in front of it. -/
def AddressesAligned (entries : List SendSlot) : Prop :=
  ∀ i (hi : i < entries.length) addr, entries[i].addr = some addr →
    patchedAddr entries i = addr

theorem sendHeaders_represents_iff (host : Host) (batch : SendBatchRaw)
    (h : maxStack < batch.len) :
    (sendHeaders host batch).Represents host batch.entries ↔
      AddressesAligned batch.entries := by
  have hheap : sendHeaders host batch = heapHeaders host batch := by
    simp [sendHeaders, Nat.not_le.mpr h]
  rw [hheap]
  exact heapHeaders_represents_iff host batch

theorem addressesAligned_replicate (n : Nat) (data : Slice)
    (target : SocketAddr) :
    AddressesAligned (List.replicate n ⟨data, some target⟩) := by
  intro i hi addr haddr
  rw [List.getElem_replicate, Option.some.injEq] at haddr
  have hrank := (addressedBefore_le (List.replicate n
    ⟨data, some target⟩) i).trans_lt hi
  rw [List.length_replicate] at hrank
  rw [patchedAddr, List.getElem?_replicate_of_lt hrank, ← haddr]
  rfl

def loopbackPeer : SocketAddr := .v4 .loopback 9

def uniformBatch : SendBatchRaw :=
  .ofEntries (List.replicate 65 ⟨⟨0, [1]⟩, some loopbackPeer⟩)

theorem uniformBatch_represented :
    maxStack < uniformBatch.len ∧
      (sendHeaders ⟨.linux, .little⟩ uniformBatch).Represents
        ⟨.linux, .little⟩ uniformBatch.entries :=
  ⟨by decide, (sendHeaders_represents_iff _ uniformBatch (by decide)).mpr
    (by
      rw [uniformBatch, SendBatchRaw.entries_ofEntries]
      exact addressesAligned_replicate 65 _ _)⟩

def mixedBatch : SendBatchRaw :=
  .ofEntries (⟨⟨0, [1]⟩, none⟩ ::
    List.replicate 64 ⟨⟨0, [1]⟩, some loopbackPeer⟩)

/-- The second entry is sent to the address of the first one, which has
none. -/
theorem mixedBatch_not_represented :
    maxStack < mixedBatch.len ∧
      ¬ (sendHeaders ⟨.linux, .little⟩ mixedBatch).Represents
        ⟨.linux, .little⟩ mixedBatch.entries := by
  have hheap : sendHeaders ⟨.linux, .little⟩ mixedBatch =
      heapHeaders ⟨.linux, .little⟩ mixedBatch := by
    simp [sendHeaders, mixedBatch, SendBatchRaw.ofEntries, maxStack]
  refine ⟨by decide, ?_⟩
  rw [hheap, heapHeaders_represents_iff]
  intro h
  exact absurd (h 1 (by decide) loopbackPeer (by decide)) (by decide)

/-! ## The fallback for `ENOSYS` -/

def SameSend (first second : IoResult Nat × Os) : Prop :=
  first.1 = second.1 ∧ first.2.wire = second.2.wire

def namedAddr (batch : SendBatchRaw) (i : Nat) (addr : SocketAddr) :
    SocketAddr :=
  if batch.len ≤ maxStack then addr else patchedAddr batch.entries i

/-- When the fallback does what `sendmmsg` does.  The kernel accepts `f`
entries: the 32-bit count covers them, each addressed one of them is named
where the fallback sends it, and the refusal that follows, if any, is one that
both paths report alike. -/
def SendsAlike (batch : SendBatchRaw) (os : Os) : Prop :=
  let f := (granted batch.len os.sendScript).length
  f ≤ vlen batch.len ∧
  (∀ i (hi : i < batch.entries.length), i < f → ∀ addr,
    batch.entries[i].addr = some addr →
    namedAddr batch i addr = os.peer.getD addr) ∧
  match refusal .wouldBlock batch.len os.sendScript with
  | none => True
  | some .wouldBlock => 0 < f ∨ vlen batch.len = 0
  | some _ => f = 0 ∧ 0 < vlen batch.len

theorem destinations_eq_iff (batch : SendBatchRaw) (os : Os) (i : Nat)
    (entry : SendSlot) :
    (perPacketRoute os.isConnected i entry <|> os.peer) =
        (route batch i entry <|> os.peer) ↔
      ∀ addr, entry.addr = some addr →
        namedAddr batch i addr = os.peer.getD addr := by
  obtain ⟨data, addr⟩ := entry
  cases addr with
  | none => simp [perPacketRoute, route, heapRoute]
  | some addr =>
      have hroute : route batch i ⟨data, some addr⟩ =
          some (namedAddr batch i addr) := by
        unfold route namedAddr
        split <;> simp [heapRoute]
      cases hpeer : os.peer <;>
        simp [perPacketRoute, Os.isConnected, hpeer, hroute, eq_comm]

theorem outgoing_take_eq_iff {first second : Nat → SendSlot → Option SocketAddr}
    {peer : Option SocketAddr} {entries : List SendSlot} (n : Nat) :
    (outgoing first wholePayload peer entries 0).take n =
        (outgoing second wholePayload peer entries 0).take n ↔
      ∀ i (hi : i < entries.length), i < n →
        (first i entries[i] <|> peer) = (second i entries[i] <|> peer) := by
  constructor
  · intro h i hi hn
    have hget := congrArg (fun messages => messages[i]?) h
    simpa [outgoing, hn, List.getElem?_eq_getElem hi] using hget
  · intro h
    apply List.ext_getElem?
    intro i
    by_cases hn : i < n
    · by_cases hi : i < entries.length
      · simpa [outgoing, hn, List.getElem?_eq_getElem hi] using h i hi hn
      · simp [outgoing, hi]
    · simp [hn]

theorem results_eq_iff {len : Nat} {script : List (Except Fault Unit)}
    (hle : (granted len script).length ≤ vlen len) :
    perPacketResult 0 len script = batchedResult (vlen len) script ↔
      match refusal .wouldBlock len script with
      | none => True
      | some .wouldBlock => 0 < (granted len script).length ∨ vlen len = 0
      | some _ => (granted len script).length = 0 ∧ 0 < vlen len := by
  have hgranted : granted (vlen len) script = granted len script := by
    rw [granted_of_le (vlen_le len), List.take_of_length_le hle]
  have hnone := refusal_eq_none_iff (α := Unit) Fault.wouldBlock (vlen len)
    script
  rw [hgranted] at hnone
  generalize hcount : (granted len script).length = f at hle hnone ⊢
  rcases hrefusal : refusal .wouldBlock (vlen len) script with - | fault
  · -- the batched call ran to its end, which may be short of the batch
    have hfull := hnone.mp hrefusal
    have hbatched : batchedResult (vlen len) script = .ok f := by
      simp [batchedResult, Os.sendManyResult, hrefusal, hgranted, hcount]
    rw [hbatched]
    rcases hlen : refusal .wouldBlock len script with - | (- | - | code) <;>
      simp [perPacketResult, hlen, hcount] <;> omega
  · have hlen := refusal_of_le (vlen_le len) hrefusal
    have hshort : f ≠ vlen len := by
      rw [Ne, ← hnone, hrefusal]
      simp
    rcases f with - | f
    · have hbatched : batchedResult (vlen len) script =
          .error fault.error := by
        simp [batchedResult, Os.sendManyResult, hrefusal, hgranted, hcount]
      rw [hbatched]
      cases fault <;> simp [perPacketResult, hlen, hcount] <;> omega
    · have hbatched : batchedResult (vlen len) script = .ok (f + 1) := by
        simp [batchedResult, Os.sendManyResult, hrefusal, hgranted, hcount]
      rw [hbatched]
      cases fault <;> simp [perPacketResult, hlen, hcount]

theorem wires_eq_iff (batch : SendBatchRaw) (os : Os) :
    (outgoing (perPacketRoute os.isConnected) wholePayload os.peer
        batch.entries 0).take (granted batch.len os.sendScript).length =
      ((outgoing (route batch) wholePayload os.peer batch.entries 0).take
        (vlen batch.len)).take
          (granted (vlen batch.len) os.sendScript).length ↔
      (granted batch.len os.sendScript).length ≤ vlen batch.len ∧
      ∀ i (hi : i < batch.entries.length),
        i < (granted batch.len os.sendScript).length → ∀ addr,
        batch.entries[i].addr = some addr →
        namedAddr batch i addr = os.peer.getD addr := by
  have hcount := granted_length_le batch.len os.sendScript
  rw [granted_of_le (vlen_le batch.len), List.length_take, List.take_take,
    Nat.min_eq_left (Nat.min_le_left _ _)]
  constructor
  · intro h
    have hlength := congrArg List.length h
    simp only [List.length_take, outgoing_length, batch.entries_length]
      at hlength
    have hle : (granted batch.len os.sendScript).length ≤ vlen batch.len := by
      omega
    refine ⟨hle, fun i hi hf => ?_⟩
    rw [Nat.min_eq_right hle, outgoing_take_eq_iff] at h
    exact (destinations_eq_iff batch os i _).mp (h i hi hf)
  · rintro ⟨hle, hnames⟩
    rw [Nat.min_eq_right hle, outgoing_take_eq_iff]
    intro i hi hf
    exact (destinations_eq_iff batch os i _).mpr (hnames i hi hf)

/-- The fallback leaves the same datagrams and returns the same result as the
`sendmmsg` path exactly under `SendsAlike`. -/
theorem fallbackSend_same_iff (host : Host) (batch : SendBatchRaw) (os : Os) :
    SameSend (fallbackSend host batch os)
        (trySendBatch host batch { os with hasSendmmsg := true }) ↔
      SendsAlike batch os := by
  have hfast := @trySendBatch_of_sendmmsg host batch
    { os with hasSendmmsg := true } rfl
  rw [fallbackSend_eq, hfast]
  simp only [SameSend, Os.afterOffering, outgoing_length, List.length_take,
    batch.entries_length, Nat.min_eq_left (vlen_le batch.len),
    List.append_cancel_left_eq, wires_eq_iff, SendsAlike]
  constructor
  · rintro ⟨hresult, hle, hnames⟩
    exact ⟨hle, hnames, (results_eq_iff hle).mp hresult⟩
  · rintro ⟨hle, hnames, hresult⟩
    exact ⟨(results_eq_iff hle).mpr hresult, hle, hnames⟩

def fullBufferOs : Os where
  peer := some loopbackPeer
  hasSendmmsg := false
  hasRecvmmsg := true
  hasSendmsgX := false
  hasRecvmsgX := false
  sendScript := [.error .wouldBlock]
  recvScript := []
  wire := []

/-- On a full buffer the fallback reports `Ok(0)` where `sendmmsg` reports
`WouldBlock`. -/
theorem fallbackSend_full_buffer :
    ¬ SameSend
      (fallbackSend ⟨.linux, .little⟩ (.ofEntries [⟨⟨0, [1]⟩, none⟩])
        fullBufferOs)
      (trySendBatch ⟨.linux, .little⟩ (.ofEntries [⟨⟨0, [1]⟩, none⟩])
        { fullBufferOs with hasSendmmsg := true }) := by
  intro h
  exact absurd h.1 (by decide)

end Binger.Platform.Linux
