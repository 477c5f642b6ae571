import Binger.Platform.GroKept
import Binger.Socket.State

/-!
# Receiving through the socket

The retry loop of `recv_batch` goes around on an empty receive as well as on
`WouldBlock`.  `recv_from` is `recv_batch` on a fresh batch of one slot, so a
coalesced message loses everything behind its first segment there.
-/

namespace Binger.Socket

open Binger.Foundation Binger.Platform Binger.Sockaddr

theorem recvArm_eq_none_iff {result : IoResult Nat} :
    recvArm result = none ↔
      result = .ok 0 ∨
        ∃ error, result = .error error ∧ error.kind = .wouldBlock := by
  rcases result with error | (- | n) <;> simp [recvArm]

theorem recvArm_eq_some {result final : IoResult Nat}
    (h : recvArm result = some final) :
    final = result ∧ result ≠ .ok 0 ∧
      ∀ error, result = .error error → error.kind ≠ .wouldBlock := by
  rcases result with error | (- | n)
  · simp only [recvArm] at h
    split at h
    · cases h
    · next hkind =>
        cases h
        exact ⟨rfl, by simp, by rintro _ ⟨⟩; exact hkind⟩
  · cases h
  · cases h
    exact ⟨rfl, by simp, by simp⟩

namespace BingerUdp

variable {bufSize : Nat}

section Platform

-- `crate::platform::try_recv_batch`, selected at compile time
variable (platform : RecvBatchRaw bufSize → Os → RecvOutcome bufSize × Os)

def tryRecvBatch (socket : BingerUdp) (batch : RecvBatchRaw bufSize)
    (os : Os) :
    Except Panic (IoResult Nat × BingerUdp × RecvBatchRaw bufSize) × Os :=
  match platform batch os with
  | (.error panic, os) => (.error panic, os)
  | (.ok (.error error, batch), os) =>
      (.ok (.error error,
        { socket with metrics := socket.metrics.map (countRecvError error) },
        batch), os)
  | (.ok (.ok received, batch), os) =>
      (.ok (.ok received,
        { socket with
          adaptiveRecv := socket.adaptiveRecv.map AdaptiveState.recordEvent
          metrics := socket.metrics.map (countReceived received) },
        batch), os)

def noteRecvWouldBlock (now : Nat) (socket : BingerUdp) : BingerUdp :=
  { socket with
    adaptiveRecv := socket.adaptiveRecv.map fun state =>
      state.recordWouldBlock.maybeAdjust now }

/-- `recv_batch` under a list of waits.  A list that ran out leaves the call
pending behind its last attempt. -/
def recvBatch : List Wait → BingerUdp → RecvBatchRaw bufSize → Os →
    Except Panic (Poll (IoResult Nat) × BingerUdp × RecvBatchRaw bufSize) × Os
  | waits, socket, batch, os =>
      match socket.tryRecvBatch platform batch os with
      | (.error panic, os) => (.error panic, os)
      | (.ok (result, socket, batch), os) =>
          match recvArm result, waits with
          | some result, _ => (.ok (.ready result, socket, batch), os)
          | none, [] => (.ok (.pending, socket, batch), os)
          | none, wait :: waits =>
              let socket := socket.noteRecvWouldBlock wait.now
              if socket.tokio then
                match wait.outcome with
                | .ok () => recvBatch waits socket batch os
                | .error error =>
                    (.ok (.ready (.error error), socket, batch), os)
              else (.ok (.ready (.error tokioDisabled), socket, batch), os)

end Platform

/-! ## One round of the loop -/

section Loop

variable {platform : RecvBatchRaw bufSize → Os → RecvOutcome bufSize × Os}
  {waits : List Wait} {socket socket' : BingerUdp}
  {batch batch' : RecvBatchRaw bufSize} {os os' : Os} {tried : IoResult Nat}

theorem tryRecvBatch_of_platform (socket : BingerUdp)
    (h : platform batch os = (.ok (tried, batch'), os')) :
    ∃ socket', socket.tryRecvBatch platform batch os =
      (.ok (tried, socket', batch'), os') := by
  cases tried <;> simp [tryRecvBatch, h]

theorem platform_of_tryRecvBatch
    (h : socket.tryRecvBatch platform batch os =
      (.ok (tried, socket', batch'), os')) :
    platform batch os = (.ok (tried, batch'), os') := by
  rw [tryRecvBatch] at h
  split at h
  · cases h
  · next hcall =>
      cases h
      exact hcall
  · next hcall =>
      cases h
      exact hcall

theorem recvBatch_ends (socket : BingerUdp) {final : IoResult Nat}
    (h : platform batch os = (.ok (tried, batch'), os'))
    (harm : recvArm tried = some final) :
    ∃ socket', ∀ waits, recvBatch platform waits socket batch os =
      (.ok (.ready final, socket', batch'), os') := by
  rcases tryRecvBatch_of_platform socket h with ⟨socket', hcall⟩
  refine ⟨socket', ?_⟩
  intro waits
  unfold recvBatch
  simp [hcall, harm]

theorem recvBatch_waits (socket : BingerUdp)
    (h : platform batch os = (.ok (tried, batch'), os'))
    (harm : recvArm tried = none) :
    ∃ socket', recvBatch platform [] socket batch os =
      (.ok (.pending, socket', batch'), os') := by
  rcases tryRecvBatch_of_platform socket h with ⟨socket', hcall⟩
  refine ⟨socket', ?_⟩
  rw [recvBatch]
  simp [hcall, harm]

theorem recvBatch_attempt_cases {poll : Poll (IoResult Nat)}
    (h : recvBatch platform waits socket batch os =
      (.ok (poll, socket', batch'), os')) :
    ∃ tried socket₁ batch₁ os₁,
      socket.tryRecvBatch platform batch os =
        (.ok (tried, socket₁, batch₁), os₁) ∧
      ((recvArm tried = some tried ∧ poll = .ready tried ∧
          socket' = socket₁ ∧ batch' = batch₁ ∧ os' = os₁) ∨
        recvArm tried = none) := by
  rcases hcall : socket.tryRecvBatch platform batch os with
    ⟨panic | ⟨tried, socket₁, batch₁⟩, os₁⟩
  · rw [recvBatch] at h
    simp [hcall] at h
  refine ⟨tried, socket₁, batch₁, os₁, rfl, ?_⟩
  cases harm : recvArm tried with
  | none => exact .inr rfl
  | some final =>
      left
      rcases recvArm_eq_some harm with ⟨rfl, -⟩
      rw [recvBatch] at h
      simp only [hcall, harm, Prod.mk.injEq, Except.ok.injEq] at h
      rcases h with ⟨⟨rfl, rfl, rfl⟩, rfl⟩
      exact ⟨rfl, rfl, rfl, rfl, rfl⟩

theorem recvBatch_wait_cases {poll : Poll (IoResult Nat)} {wait : Wait}
    {socket₁ : BingerUdp} {batch₁ : RecvBatchRaw bufSize} {os₁ : Os}
    (hcall : socket.tryRecvBatch platform batch os =
      (.ok (tried, socket₁, batch₁), os₁)) (harm : recvArm tried = none)
    (h : recvBatch platform (wait :: waits) socket batch os =
      (.ok (poll, socket', batch'), os')) :
    (socket' = socket₁.noteRecvWouldBlock wait.now ∧ batch' = batch₁ ∧
      os' = os₁ ∧ (poll = .ready (.error tokioDisabled) ∨
        ∃ error, wait.outcome = .error error ∧
          poll = .ready (.error error))) ∨
      ∀ waits, recvBatch platform (wait :: waits) socket batch os =
        recvBatch platform waits (socket₁.noteRecvWouldBlock wait.now) batch₁
          os₁ := by
  cases htokio : (socket₁.noteRecvWouldBlock wait.now).tokio with
  | false =>
      left
      rw [recvBatch] at h
      simp only [hcall, harm, htokio, Bool.false_eq_true, if_false,
        Prod.mk.injEq, Except.ok.injEq] at h
      rcases h with ⟨⟨rfl, rfl, rfl⟩, rfl⟩
      exact ⟨rfl, rfl, rfl, .inl rfl⟩
  | true =>
      cases houtcome : wait.outcome with
      | error error =>
          left
          rw [recvBatch] at h
          simp only [hcall, harm, htokio, houtcome, if_true, Prod.mk.injEq,
            Except.ok.injEq] at h
          rcases h with ⟨⟨rfl, rfl, rfl⟩, rfl⟩
          exact ⟨rfl, rfl, rfl, .inr ⟨error, rfl, rfl⟩⟩
      | ok _ =>
          right
          intro waits
          rw [recvBatch]
          simp [hcall, harm, htokio, houtcome]

/-- What holds of a call that ends with its attempt, of one that ends in a
wait, and of one that goes on if it holds of the rest, holds of every call that
does not panic. -/
theorem recvBatch_rule {poll : Poll (IoResult Nat)}
    {motive : List Wait → BingerUdp → RecvBatchRaw bufSize → Os → Prop}
    (ends : ∀ waits socket batch os tried os₁,
      platform batch os = (.ok (tried, batch'), os₁) →
      recvArm tried = some tried → poll = .ready tried →
      motive waits socket batch os)
    (stops : ∀ waits socket batch os tried os₁,
      platform batch os = (.ok (tried, batch'), os₁) →
      recvArm tried = none →
      (poll = .pending ∨ poll = .ready (.error tokioDisabled) ∨
        ∃ wait rest error, waits = wait :: rest ∧
          wait.outcome = .error error ∧ poll = .ready (.error error)) →
      motive waits socket batch os)
    (goes : ∀ wait waits socket batch os tried socket₁ batch₁ os₁,
      platform batch os = (.ok (tried, batch₁), os₁) →
      (∀ waits, recvBatch platform (wait :: waits) socket batch os =
        recvBatch platform waits socket₁ batch₁ os₁) →
      motive waits socket₁ batch₁ os₁ →
      motive (wait :: waits) socket batch os)
    (h : recvBatch platform waits socket batch os =
      (.ok (poll, socket', batch'), os')) :
    motive waits socket batch os := by
  induction waits generalizing socket batch os with
  | nil =>
      rcases recvBatch_attempt_cases h with
        ⟨tried, socket₁, batch₁, os₁, hcall, ⟨harm, hpoll, -, rfl, -⟩ | harm⟩
      · exact ends _ _ _ _ _ _ (platform_of_tryRecvBatch hcall) harm hpoll
      · rw [recvBatch] at h
        simp only [hcall, harm, Prod.mk.injEq, Except.ok.injEq] at h
        rcases h with ⟨⟨hpoll, -, rfl⟩, -⟩
        exact stops _ _ _ _ _ _ (platform_of_tryRecvBatch hcall) harm
          (.inl hpoll.symm)
  | cons wait waits ih =>
      rcases recvBatch_attempt_cases h with
        ⟨tried, socket₁, batch₁, os₁, hcall, ⟨harm, hpoll, -, rfl, -⟩ | harm⟩
      · exact ends _ _ _ _ _ _ (platform_of_tryRecvBatch hcall) harm hpoll
      · have hplatform := platform_of_tryRecvBatch hcall
        rcases recvBatch_wait_cases hcall harm h with
          ⟨-, rfl, -, hpoll | ⟨error, houtcome, hpoll⟩⟩ | hnext
        · exact stops _ _ _ _ _ _ hplatform harm (.inr (.inl hpoll))
        · exact stops _ _ _ _ _ _ hplatform harm
            (.inr (.inr ⟨wait, waits, error, rfl, houtcome, hpoll⟩))
        · rw [hnext] at h
          exact goes _ _ _ _ _ _ _ _ _ hplatform hnext (ih h)

end Loop

/-- `recv_from` with a caller's buffer of `bufLen` bytes: the bytes copied to
it and the source. -/
def recvFrom (bufLen : Nat)
    (platform : RecvBatchRaw bufLen → Os → RecvOutcome bufLen × Os)
    (waits : List Wait) (socket : BingerUdp) (os : Os) :
    Except Panic (Poll (IoResult (List UInt8 × SocketAddr)) × BingerUdp) ×
      Os :=
  match recvBatch platform waits socket (.withCapacity 1 bufLen) os with
  | (.error panic, os) => (.error panic, os)
  | (.ok (.pending, socket, _), os) => (.ok (.pending, socket), os)
  | (.ok (.ready (.error error), socket, _), os) =>
      (.ok (.ready (.error error), socket), os)
  | (.ok (.ready (.ok _), socket, batch), os) =>
      (do
        let data ← batch.data 0
        let addr ← batch.addr 0
        return (.ready (.ok (data.take (min data.length bufLen), addr)),
          socket), os)

/-! ## Coalesced messages and `recv_from` -/

theorem delivered_one_slot (features : Features) {datagram : Datagram}
    (h : 0 < slotsOf features bufSize datagram) :
    ∃ filled rest,
      Linux.delivered features (.withCapacity 1 bufSize) [datagram] =
        .ok (.ok 1, ⟨filled :: rest, 1⟩) ∧
      filled.recvLen.toNat ≤ bufSize ∧
      [filled.entry] =
        ((pieces features (asReceived bufSize datagram)
          ((RecvSlot.zeroed bufSize).writeBuf datagram.payload).buf.1).take
            1).map fun piece => (piece, datagram.source) := by
  have hmessage : (asReceived bufSize datagram).msgLen ≤ bufSize := by
    simp [asReceived]
  generalize hslot : (RecvSlot.zeroed bufSize).writeBuf datagram.payload = slot
  have hlengths := (emit_lengths features hmessage slot []).1
  rw [List.length_nil, Nat.zero_add,
    Nat.min_eq_right (show 1 ≤ slotCount _ _ from h),
    List.length_eq_one_iff] at hlengths
  obtain ⟨filled, hfilled⟩ := hlengths
  have hentries := emit_entries features (asReceived bufSize datagram) slot []
  have hfits := emit_fits features hmessage slot [] filled
  rw [hfilled] at hentries hfits
  refine ⟨filled, (emit features (asReceived bufSize datagram) slot []).2,
    ?_, hfits List.mem_cons_self, hentries⟩
  simp [Linux.delivered, RecvBatchRaw.withCapacity, landed, emitAll, hslot,
    hfilled]

theorem recvFrom_first_piece (features : Features) (host : Host)
    (waits : List Wait) (socket : BingerUdp) {os : Os}
    (hmmsg : os.hasRecvmmsg = true) {datagram : Datagram}
    {rest : List (Except Fault Datagram)}
    (hfirst : Linux.recvAnswers (.withCapacity 1 bufSize) os =
      .ok datagram :: rest)
    (h : 0 < slotsOf features bufSize datagram) :
    ∃ entry socket' os',
      recvFrom bufSize (Linux.tryRecvBatch features host) waits socket os =
        (.ok (.ready (.ok entry), socket'), os') ∧
      [entry] =
        ((pieces features (asReceived bufSize datagram)
          ((RecvSlot.zeroed bufSize).writeBuf datagram.payload).buf.1).take
            1).map fun piece => (piece, datagram.source) := by
  obtain ⟨filled, others, hdelivered, hfits, hentry⟩ :=
    delivered_one_slot features h
  have hcap := RecvBatchRaw.capacity_withCapacity 1 bufSize
  have hresult : recvManyResult (vlen 1)
      (Linux.recvAnswers (.withCapacity 1 bufSize) os) = .ok [datagram] := by
    simp [hfirst, vlen, recvManyResult, granted, refusal]
  have hpos : 0 < RecvBatchRaw.capacity (.withCapacity 1 bufSize) := by
    rw [hcap]
    decide
  have hcall := Linux.tryRecvBatch_of_recvmmsg features host hpos hmmsg
  rw [hcap, hresult] at hcall
  simp only [hdelivered] at hcall
  generalize hos : ({ os with recvScript := _ } : Os) = os' at hcall
  rcases recvBatch_ends socket hcall rfl with ⟨socket', hends⟩
  have hbatch := hends waits
  have hread := RecvBatchRaw.slot_split [] others filled 1
  have hpayload : filled.payload.length ≤ bufSize := by
    simp [RecvSlot.payload, filled.buf.2]
  refine ⟨filled.entry, socket', os', ?_, hentry⟩
  simp only [List.nil_append, List.length_nil] at hread
  simp [recvFrom, hbatch, RecvBatchRaw.data, RecvBatchRaw.addr, hread, hfits,
    bind, Except.bind, pure, Except.pure, RecvSlot.entry,
    List.take_of_length_le, hpayload]

theorem first_piece_subperm_iff (features : Features) {datagram : Datagram}
    (h : 0 < slotsOf features bufSize datagram)
    {entry : List UInt8 × SocketAddr}
    (hentry : [entry] =
      ((pieces features (asReceived bufSize datagram)
        ((RecvSlot.zeroed bufSize).writeBuf datagram.payload).buf.1).take
          1).map fun piece => (piece, datagram.source)) :
    (packetsOf features bufSize datagram).Subperm [entry] ↔
      slotsOf features bufSize datagram ≤ 1 ∧
      (groSize features datagram.control = 0 →
        (returned bufSize datagram).length < 2 ^ 16) := by
  generalize hslot : (RecvSlot.zeroed bufSize).writeBuf datagram.payload = slot
    at hentry
  have hbuf : slot.buf.1.take (returned bufSize datagram).length =
      returned bufSize datagram := by
    rw [← hslot]
    exact take_writePrefix _ _
  have hpieces := pieces_eq_iff features datagram slot.buf.2
  have hlength : (pieces features (asReceived bufSize datagram)
      slot.buf.1).length = slotsOf features bufSize datagram :=
    pieces_length features (by simp [asReceived, slot.buf.2])
  have hone : slotsOf features bufSize datagram ≤ 1 →
      [entry] = (pieces features (asReceived bufSize datagram)
        slot.buf.1).map fun piece => (piece, datagram.source) := by
    intro hle
    rw [hentry, List.take_of_length_le (by omega)]
  constructor
  · intro hsub
    have hle : slotsOf features bufSize datagram ≤ 1 := by
      simpa [packetsOf_length] using hsub.length_le
    have hperm := hsub.perm_of_length_le (by
      rw [packetsOf_length, List.length_singleton]
      exact h)
    rw [List.perm_singleton, hone hle, eq_comm] at hperm
    exact ⟨hle, (hpieces.mp hperm).1⟩
  · rintro ⟨hle, hsmall⟩
    rw [hone hle, hpieces.mpr ⟨hsmall, hbuf⟩]

/-- A successful receive keeps all packets of its messages when there is a slot
for each of them and every message is read in place, and otherwise only if a
packet occurs in another slot as well; `recv_from` keeps its message exactly
when that is one packet, of a length below 65536 when it is not split. -/
theorem coalesced_kept_when (features : Features) (host : Host) :
    (∀ (bufSize : Nat) (batch batch' : RecvBatchRaw bufSize) (os os' : Os)
      (m : Nat), 0 < batch.capacity → os.hasRecvmmsg = true →
      Linux.tryRecvBatch features host batch os =
        (.ok (.ok m, batch'), os') →
      (totalSlots features bufSize (Linux.recvDatagrams batch os) ≤
          batch.capacity →
        InPlace features bufSize (Linux.recvDatagrams batch os)
          (landedBufs (Linux.recvDatagrams batch os) batch) →
        ∃ packets, batch'.iter = .ok packets ∧
          (packetsOfAll features bufSize
            (Linux.recvDatagrams batch os)).Subperm packets) ∧
      ((∃ packets, batch'.iter = .ok packets ∧
          (packetsOfAll features bufSize
            (Linux.recvDatagrams batch os)).Subperm packets) →
        totalSlots features bufSize (Linux.recvDatagrams batch os) ≤
          batch.capacity ∧
        (Apart features bufSize (Linux.recvDatagrams batch os)
            (landedBufs (Linux.recvDatagrams batch os) batch) →
          InPlace features bufSize (Linux.recvDatagrams batch os)
            (landedBufs (Linux.recvDatagrams batch os) batch)))) ∧
    (∀ (bufLen : Nat) (waits : List Wait) (socket : BingerUdp) (os : Os)
      (datagram : Datagram) (rest : List (Except Fault Datagram)),
      os.hasRecvmmsg = true →
      Linux.recvAnswers (.withCapacity 1 bufLen) os = .ok datagram :: rest →
      0 < slotsOf features bufLen datagram →
      ∃ entry socket' os',
        recvFrom bufLen (Linux.tryRecvBatch features host) waits socket os =
          (.ok (.ready (.ok entry), socket'), os') ∧
        ((packetsOf features bufLen datagram).Subperm [entry] ↔
          slotsOf features bufLen datagram ≤ 1 ∧
          (groSize features datagram.control = 0 →
            (returned bufLen datagram).length < 2 ^ 16))) := by
  refine ⟨?_, ?_⟩
  · intro bufSize batch batch' os os' m hcap h hok
    exact Linux.tryRecvBatch_keeps_packets hcap h hok
  · intro bufLen waits socket os datagram rest h hfirst hslots
    obtain ⟨entry, socket', os', hcall, hentry⟩ :=
      recvFrom_first_piece features host waits socket h hfirst hslots
    exact ⟨entry, socket', os', hcall,
      first_piece_subperm_iff features hslots hentry⟩

theorem plain_kept_coalesced_missed :
    (∃ batch' os',
      Linux.tryRecvBatch Linux.groOnly ⟨.linux, .little⟩ (.withCapacity 3 4)
        Linux.plainOs = (.ok (.ok 2, batch'), os') ∧
      ∃ packets, batch'.iter = .ok packets ∧
        (packetsOfAll Linux.groOnly 4 (Linux.recvDatagrams
          (.withCapacity 3 4) Linux.plainOs)).Subperm packets) ∧
    (∃ batch' os',
      Linux.tryRecvBatch Linux.groOnly ⟨.linux, .little⟩ (.withCapacity 3 4)
        Linux.coalescedOs = (.ok (.ok 3, batch'), os') ∧
      ¬ ∃ packets, batch'.iter = .ok packets ∧
        (packetsOfAll Linux.groOnly 4 (Linux.recvDatagrams
          (.withCapacity 3 4) Linux.coalescedOs)).Subperm packets) ∧
    ∃ entry socket' os',
      recvFrom 4 (Linux.tryRecvBatch Linux.groOnly ⟨.linux, .little⟩) []
        (plainSocket .linux) Linux.plainOs =
          (.ok (.ready (.ok entry), socket'), os') ∧
      (packetsOf Linux.groOnly 4
        ⟨[1, 2], Linux.loopbackSource, []⟩).Subperm [entry] := by
  have hcap : 0 < RecvBatchRaw.capacity (.withCapacity 3 4) := by decide
  obtain ⟨hbatch, hfrom⟩ :=
    coalesced_kept_when Linux.groOnly ⟨.linux, .little⟩
  refine ⟨?_, ?_, ?_⟩
  · have hcall := Linux.tryRecvBatch_of_recvmmsg Linux.groOnly
      ⟨.linux, .little⟩ hcap (show Linux.plainOs.hasRecvmmsg = true from rfl)
    have hplace : InPlace Linux.groOnly 4
        (Linux.recvDatagrams (.withCapacity 3 4) Linux.plainOs)
        (landedBufs (Linux.recvDatagrams (.withCapacity 3 4) Linux.plainOs)
          (.withCapacity 3 4)) :=
      Linux.inPlace_landedBufs Linux.groOnly (by decide) (by decide)
        (by decide)
    exact ⟨_, _, hcall,
      (hbatch 4 _ _ _ _ _ hcap rfl hcall).1 (by decide) hplace⟩
  · have hcall := Linux.tryRecvBatch_of_recvmmsg Linux.groOnly
      ⟨.linux, .little⟩ hcap
      (show Linux.coalescedOs.hasRecvmmsg = true from rfl)
    refine ⟨_, _, hcall, ?_⟩
    intro hkept
    have hplace := ((hbatch 4 _ _ _ _ _ hcap rfl hcall).2 hkept).2
      (by unfold Apart; decide)
    have hsecond := (hplace 1 (by decide)).2
    exact absurd hsecond (by decide)
  · obtain ⟨entry, socket', os', hrecv, hkept⟩ := hfrom 4 []
      (plainSocket .linux) Linux.plainOs ⟨[1, 2], Linux.loopbackSource, []⟩ _
      rfl rfl (by decide)
    exact ⟨entry, socket', os', hrecv, hkept.mpr (by decide)⟩

/-- `recv_from` drops the second segment of a coalesced message, and a batch
with a slot for every packet the message behind it. -/
theorem coalesced_message_lost :
    (∃ batch' os' packets,
      Linux.tryRecvBatch Linux.groOnly ⟨.linux, .little⟩ (.withCapacity 3 4)
        Linux.coalescedOs = (.ok (.ok 3, batch'), os') ∧
      batch'.iter = .ok packets ∧
      ([9], Linux.loopbackSource) ∈ packetsOfAll Linux.groOnly 4
        (Linux.recvDatagrams (.withCapacity 3 4) Linux.coalescedOs) ∧
      ([9], Linux.loopbackSource) ∉ packets) ∧
    ∃ entry socket' os',
      recvFrom 4 (Linux.tryRecvBatch Linux.groOnly ⟨.linux, .little⟩) []
        (plainSocket .linux) Linux.coalescedOs =
          (.ok (.ready (.ok entry), socket'), os') ∧
      ([2], Linux.loopbackSource) ∈ packetsOf Linux.groOnly 4
        ⟨[1, 2], Linux.loopbackSource, [.udpGro 1]⟩ ∧
      entry ≠ ([2], Linux.loopbackSource) := by
  have hcap : 0 < RecvBatchRaw.capacity (.withCapacity 3 4) := by decide
  have hcall := Linux.tryRecvBatch_of_recvmmsg Linux.groOnly
    ⟨.linux, .little⟩ hcap
    (show Linux.coalescedOs.hasRecvmmsg = true from rfl)
  have hfirst : Linux.recvAnswers (.withCapacity 1 4) Linux.coalescedOs =
      .ok ⟨[1, 2], Linux.loopbackSource, [.udpGro 1]⟩ ::
        [.ok ⟨[9], Linux.loopbackSource, []⟩] := rfl
  obtain ⟨entry, socket', os', hrecv, hentry⟩ := recvFrom_first_piece
    Linux.groOnly ⟨.linux, .little⟩ [] (plainSocket .linux) rfl hfirst
    (by decide)
  refine ⟨⟨_, _, _, hcall, rfl, by decide, by decide⟩,
    entry, socket', os', hrecv, by decide, ?_⟩
  rintro rfl
  exact absurd hentry (by decide)

end BingerUdp

end Binger.Socket
