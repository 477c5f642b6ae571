import Binger.Platform.NotReady
import Binger.Platform.RecvRepresentation
import Binger.Socket.Recv

/-!
# What `recv_batch` returns, and when

The loop returns the first result that is neither `Ok(0)` nor `WouldBlock`.  A
positive count is the length that the attempt left in the batch, whatever was
there before, so the result is right after any number of attempts.

`Ok(0)` is taken for a socket that is not ready.  It also comes from a batch
without slots, and from coalesced messages that are split into no packet: then
the loop goes round although a datagram is there.
-/

namespace Binger.Platform

open Binger.Foundation Binger.Sockaddr

variable {bufSize : Nat}

theorem countsLen_of_written {backend : Backend} {batch : RecvBatchRaw bufSize}
    {os : Os} (h : ¬ LeavesLen backend batch os) (features : Features)
    (host : Host) :
    CountsLen batch (tryRecvBatch backend features host batch os).1 := by
  cases backend with
  | linux =>
      rw [tryRecvBatch, Linux.countsLen_iff]
      exact fun hleaves => absurd hleaves h
  | macos =>
      rw [tryRecvBatch, Macos.countsLen_iff]
      exact fun hleaves => absurd hleaves h
  | windows =>
      rw [tryRecvBatch, Windows.tryRecvBatch_eq, countsLen_perPacket,
        ask_wsaAnswer]
      exact fun hnone => absurd (hnone.imp_right fun hfirst => ⟨rfl, hfirst⟩) h
  | fallback =>
      rw [tryRecvBatch, Fallback.tryRecvBatch, perPacketRecv_outcome,
        countsLen_perPacket]
      exact fun hnone => absurd (hnone.imp_right fun hfirst => ⟨rfl, hfirst⟩) h

theorem tryRecvBatch_len_of_pos {backend : Backend} {features : Features}
    {host : Host} {batch batch' : RecvBatchRaw bufSize} {os : Os} {n : Nat}
    (h : (tryRecvBatch backend features host batch os).1 =
      .ok (.ok n, batch')) (hn : n ≠ 0) :
    n ≤ batch.capacity ∧ batch'.len = n := by
  have hsome : ¬ RecvsNothing backend features batch os := by
    rw [← report_zero_iff backend features host, h]
    simpa [report] using hn
  have hwritten : ¬ LeavesLen backend batch os := by
    rintro (hzero | ⟨hpath, hfirst⟩)
    · exact absurd (.inl hzero) hsome
    · exact absurd (.inr (by rwa [hpath])) hsome
  rcases countsLen_of_written hwritten features host n batch' h with
    ⟨hlen, hle⟩
  exact ⟨hle, hlen⟩

/-! ## Panics -/

theorem Macos.storeMessages_ok (messages : List (Nat × SocketAddr)) {i : Nat}
    {batch : RecvBatchRaw bufSize}
    (h : i + messages.length ≤ batch.capacity) :
    ∃ batch', storeMessages messages i batch = .ok batch' := by
  induction messages generalizing i batch with
  | nil => exact ⟨batch, rfl⟩
  | cons message messages ih =>
      rcases message with ⟨recvLen, addr⟩
      rw [List.length_cons, RecvBatchRaw.capacity] at h
      have hi : i < batch.slots.length := by omega
      rw [storeMessages, RecvBatchRaw.setRecvLen, RecvBatchRaw.modifySlot,
        if_pos hi]
      simp only [bind, Except.bind, RecvBatchRaw.setAddr,
        RecvBatchRaw.modifySlot, List.length_modify, if_pos hi]
      apply ih
      simp only [RecvBatchRaw.capacity, List.length_modify]
      omega

theorem Macos.tryRecvBatch_returns (host : Host)
    (batch : RecvBatchRaw bufSize) (os : Os) :
    ∃ value, (tryRecvBatch host batch os).1 = .ok value := by
  cases hmsgx : os.hasRecvmsgX with
  | false =>
      rw [tryRecvBatch_of_recvfrom host batch hmsgx, perPacketRecv_outcome]
      exact ⟨_, rfl⟩
  | true =>
      rcases Nat.eq_zero_or_pos batch.capacity with hzero | hcap
      · exact ⟨_, by simp [tryRecvBatch, hzero]; rfl⟩
      · rw [tryRecvBatch_of_recvmsgX host hcap hmsgx]
        cases hresult : recvManyResult (vlen batch.capacity)
            (Linux.recvAnswers batch os) with
        | error fault => exact ⟨_, rfl⟩
        | ok datagrams =>
            have hlen := (Linux.recvManyResult_length hresult).2.trans
              (vlen_le batch.capacity)
            have hkeeps := ((bounded_recvHeaders bufSize
              batch.capacity).deliverAll host datagrams 0 batch).2
            have hroom : 0 + ((List.range' 0 datagrams.length).filterMap
                (received host (deliverAll host datagrams 0
                  (recvHeaders bufSize batch.capacity) batch).1)).length ≤
                (deliverAll host datagrams 0
                  (recvHeaders bufSize batch.capacity) batch).2.capacity := by
              have hfilter := List.length_filterMap_le
                (received host (deliverAll host datagrams 0
                  (recvHeaders bufSize batch.capacity) batch).1)
                (List.range' 0 datagrams.length)
              rw [List.length_range'] at hfilter
              rw [hkeeps.capacity_eq]
              omega
            rcases storeMessages_ok _ hroom with ⟨stored, hstored⟩
            refine ⟨(.ok datagrams.length, stored.setLen datagrams.length), ?_⟩
            simp [output, hstored, bind, Except.bind, pure, Except.pure]

theorem report_ne_none_iff (outcome : RecvOutcome bufSize) :
    report outcome ≠ none ↔ ∀ panic, outcome ≠ .error panic := by
  cases outcome <;> simp [report]

theorem Linux.tryRecvBatch_reports_iff (features : Features) (host : Host)
    (batch : RecvBatchRaw bufSize) (os : Os) :
    report (tryRecvBatch features host batch os).1 ≠ none ↔
      (os.hasRecvmmsg = true → recvDatagrams batch os = [] ∨
        totalSlots features bufSize (recvDatagrams batch os).dropLast <
          batch.capacity) := by
  rcases Nat.eq_zero_or_pos batch.capacity with hzero | hcap
  · simp [tryRecvBatch, hzero, report, recvDatagrams, vlen]
  · cases h : os.hasRecvmmsg with
    | false =>
        rw [tryRecvBatch_of_enosys features host hcap h, fallbackRecv_eq]
        simp [report]
    | true =>
        rw [tryRecvBatch_of_recvmmsg features host hcap h]
        cases hresult : recvManyResult (vlen batch.capacity)
            (recvAnswers batch os) with
        | error fault =>
            simp [report, recvDatagrams, (recvManyResult_error hresult).1]
        | ok datagrams =>
            rw [report_ne_none_iff, recvDatagrams,
              ← (recvManyResult_length hresult).1]
            simpa using delivered_no_panic_iff features batch datagrams

def FindsSlots (backend : Backend) (features : Features)
    (batch : RecvBatchRaw bufSize) (os : Os) : Prop :=
  backend = .linux → usesBatchedRecv backend os = true →
    Linux.recvDatagrams batch os = [] ∨
      totalSlots features bufSize (Linux.recvDatagrams batch os).dropLast <
        batch.capacity

theorem tryRecvBatch_returns_iff (backend : Backend) (features : Features)
    (host : Host) (batch : RecvBatchRaw bufSize) (os : Os) :
    report (tryRecvBatch backend features host batch os).1 ≠ none ↔
      FindsSlots backend features batch os := by
  cases backend with
  | linux =>
      rw [tryRecvBatch, Linux.tryRecvBatch_reports_iff]
      simp [FindsSlots, usesBatchedRecv]
  | macos =>
      rcases Macos.tryRecvBatch_returns host batch os with ⟨value, hvalue⟩
      simp [tryRecvBatch, hvalue, report, FindsSlots]
  | windows =>
      rw [tryRecvBatch, Windows.tryRecvBatch_eq]
      simp [perPacketOutcome, report, FindsSlots]
  | fallback =>
      rw [tryRecvBatch, Fallback.tryRecvBatch, perPacketRecv_outcome]
      simp [perPacketOutcome, report, FindsSlots]

/-! ## A pending datagram -/

/-- The next answer of the kernel, behind interruptions, is a datagram. -/
def DatagramPending (os : Os) : Prop :=
  ∃ datagram rest,
    os.recvScript.dropWhile isInterrupted = .ok datagram :: rest

theorem notReady_of_pending {os : Os} (h : DatagramPending os)
    (backend : Backend) (batch : RecvBatchRaw bufSize) :
    recvNotReady backend batch os = false ∧
      (ask .wouldBlock os.recvScript).1 ≠ .error .wouldBlock := by
  rcases h with ⟨datagram, rest, hrest⟩
  have hfirst : (ask .wouldBlock os.recvScript).1 ≠ .error .wouldBlock := by
    rcases hscript : os.recvScript with - | ⟨(- | - | code) | value, script⟩ <;>
      simp [hscript, ask, isInterrupted] at hrest ⊢
  refine ⟨?_, hfirst⟩
  rw [recvNotReady]
  split
  · rw [Bool.eq_false_iff, Ne, notReadyAtOnce_iff]
    rintro ⟨hvlen, hask⟩
    rw [Linux.recvAnswers, skipInterrupted, if_neg hvlen, hrest] at hask
    cases hask
  · rw [Bool.eq_false_iff, Ne, notReadyAtOnce_iff]
    rintro ⟨-, hask⟩
    exact hfirst hask

theorem recvDatagrams_of_pending {os : Os} (h : DatagramPending os)
    (batch : RecvBatchRaw bufSize) :
    Linux.recvDatagrams batch os = [] ↔ vlen batch.capacity = 0 := by
  rcases h with ⟨datagram, rest, hrest⟩
  rw [Linux.recvDatagrams, Linux.recvAnswers, skipInterrupted]
  split
  · next hzero => simp [hzero]
  · next hvlen =>
      rw [hrest]
      simp only [hvlen, iff_false]
      exact @granted_ne_nil _ _ .wouldBlock _ hvlen _ datagram rfl

end Binger.Platform

namespace Binger.Socket

open Binger.Foundation Binger.Platform Binger.Sockaddr

variable {bufSize : Nat}

namespace BingerUdp

section Result

variable {backend : Backend} {features : Features} {host : Host}
  {waits : List Wait} {socket socket' : BingerUdp}
  {batch batch' : RecvBatchRaw bufSize} {os os' : Os} {result : IoResult Nat}

theorem result_of_attempt
    (h : Platform.tryRecvBatch backend features host batch os =
      (.ok (result, batch'), os')) (harm : recvArm result = some result) :
    (∀ n, result = .ok n →
      1 ≤ n ∧ n ≤ batch.capacity ∧ batch'.len = n) ∧
    ∀ error, result = .error error → error.kind ≠ .wouldBlock := by
  rcases recvArm_eq_some harm with ⟨-, hne, hkind⟩
  refine ⟨?_, hkind⟩
  rintro n rfl
  have hn : n ≠ 0 := by
    rintro rfl
    exact hne rfl
  exact ⟨Nat.one_le_iff_ne_zero.mpr hn,
    tryRecvBatch_len_of_pos (congrArg Prod.fst h) hn⟩

/-- A call that returns has a packet or an error; the count is the length of
the batch, and `WouldBlock` comes from the wait that ended the call. -/
theorem recvBatch_result
    (h : recvBatch (Platform.tryRecvBatch backend features host) waits socket
        batch os = (.ok (.ready result, socket', batch'), os')) :
    (∀ n, result = .ok n →
      1 ≤ n ∧ n ≤ batch.capacity ∧ batch'.len = n) ∧
    ∀ error, result = .error error → error.kind = .wouldBlock →
      ∃ before wait after, waits = before ++ wait :: after ∧
        wait.outcome = .error error ∧
        ∃ socket₁ batch₁ os₁,
          recvBatch (Platform.tryRecvBatch backend features host) before
            socket batch os = (.ok (.pending, socket₁, batch₁), os₁) := by
  refine recvBatch_rule (motive := fun waits socket batch os =>
    (∀ n, result = .ok n →
      1 ≤ n ∧ n ≤ batch.capacity ∧ batch'.len = n) ∧
    ∀ error, result = .error error → error.kind = .wouldBlock →
      ∃ before wait after, waits = before ++ wait :: after ∧
        wait.outcome = .error error ∧
        ∃ socket₁ batch₁ os₁,
          recvBatch (Platform.tryRecvBatch backend features host) before
            socket batch os = (.ok (.pending, socket₁, batch₁), os₁))
    ?_ ?_ ?_ h
  · intro waits socket batch os tried os₁ hcall harm hpoll
    cases hpoll
    rcases result_of_attempt hcall harm with ⟨hok, herror⟩
    exact ⟨hok, fun error he hkind => absurd hkind (herror error he)⟩
  · intro waits socket batch os tried os₁ hcall harm hstop
    rcases hstop with hpoll | hpoll | ⟨wait, rest, error, rfl, houtcome, hpoll⟩
    · cases hpoll
    · cases hpoll
      refine ⟨by simp, ?_⟩
      rintro _ ⟨⟩ hkind
      cases hkind
    · cases hpoll
      refine ⟨by simp, ?_⟩
      rintro _ ⟨⟩ -
      rcases recvBatch_waits socket hcall harm with ⟨socket₁, hpending⟩
      exact ⟨[], wait, rest, rfl, houtcome, socket₁, _, os₁, hpending⟩
  · intro wait waits socket batch os tried socket₁ batch₁ os₁ hcall hnext
      hrest
    -- the attempt left the number of slots as it was
    have hcap := (tryRecvBatch_keeps (congrArg Prod.fst hcall)).capacity_eq
    rcases hrest with ⟨hok, herror⟩
    rw [hcap] at hok
    refine ⟨hok, ?_⟩
    intro error he hkind
    rcases herror error he hkind with
      ⟨before, last, after, hsplit, houtcome, hpending⟩
    refine ⟨wait :: before, last, after, ?_, houtcome, ?_⟩
    · rw [hsplit, List.cons_append]
    · rwa [hnext]

theorem stale_batch_result :
    ∃ socket' batch' os',
      recvBatch (Platform.tryRecvBatch .fallback noFeatures ⟨.linux, .little⟩)
          [⟨0, .ok ()⟩] (plainSocket .fallback)
          (RecvBatchRaw.setLen (.withCapacity 2 4) 2)
          { oneDatagramOs with
            recvScript := .error .wouldBlock :: oneDatagramOs.recvScript } =
        (.ok (.ready (.ok 1), socket', batch'), os') ∧
      batch'.len = 1 := by
  have hcall : ∃ socket' batch' os',
      recvBatch (Platform.tryRecvBatch .fallback noFeatures ⟨.linux, .little⟩)
          [⟨0, .ok ()⟩] (plainSocket .fallback)
          (RecvBatchRaw.setLen (.withCapacity 2 4) 2)
          { oneDatagramOs with
            recvScript := .error .wouldBlock :: oneDatagramOs.recvScript } =
        (.ok (.ready (.ok 1), socket', batch'), os') := ⟨_, _, _, rfl⟩
  rcases hcall with ⟨socket', batch', os', hcall⟩
  exact ⟨socket', batch', os', hcall,
    ((recvBatch_result hcall).1 1 rfl).2.2⟩

end Result

/-! ## Progress -/

section Progress

variable {backend : Backend} {features : Features} {host : Host}
  {batch : RecvBatchRaw bufSize} {os : Os}

def EndsAtOnce (backend : Backend) (features : Features) (host : Host)
    (socket : BingerUdp) (batch : RecvBatchRaw bufSize) (os : Os) : Prop :=
  ∃ result socket' batch' os',
    (∀ waits, recvBatch (Platform.tryRecvBatch backend features host) waits
      socket batch os = (.ok (.ready result, socket', batch'), os')) ∧
    ∀ n, result = .ok n → 1 ≤ n

theorem endsAtOnce_iff (socket : BingerUdp) :
    EndsAtOnce backend features host socket batch os ↔
      ∃ result, report (Platform.tryRecvBatch backend features host batch
          os).1 = some result ∧ recvArm result ≠ none := by
  constructor
  · rintro ⟨result, socket', batch', os', hcall, -⟩
    rcases recvBatch_attempt_cases (hcall []) with
      ⟨tried, socket₁, batch₁, os₁, htry, ⟨harm, -⟩ | harm⟩
    · exact ⟨tried, by rw [platform_of_tryRecvBatch htry, report],
        by simp [harm]⟩
    · rcases recvBatch_waits socket (platform_of_tryRecvBatch htry) harm with
        ⟨socket₂, hpending⟩
      rw [hcall []] at hpending
      cases hpending
  · rintro ⟨result, hreport, harm⟩
    rcases hplatform : Platform.tryRecvBatch backend features host batch os with
      ⟨panic | ⟨tried, batch'⟩, os'⟩
    · simp [hplatform, report] at hreport
    · obtain rfl : tried = result := by
        simpa [hplatform, report] using hreport
      rcases Option.ne_none_iff_exists'.mp harm with ⟨final, hfinal⟩
      rcases recvArm_eq_some hfinal with ⟨rfl, hne, -⟩
      rcases recvBatch_ends socket hplatform hfinal with ⟨socket', hends⟩
      refine ⟨final, socket', batch', os', hends, ?_⟩
      rintro n rfl
      rw [Nat.one_le_iff_ne_zero]
      rintro rfl
      exact hne rfl

theorem endsAtOnce_of_pending (socket : BingerUdp) (h : DatagramPending os) :
    EndsAtOnce backend features host socket batch os ↔
      FindsSlots backend features batch os ∧
        ¬ RecvsNothing backend features batch os := by
  rw [endsAtOnce_iff, ← tryRecvBatch_returns_iff backend features host,
    ← report_zero_iff backend features host]
  constructor
  · rintro ⟨result, hreport, harm⟩
    rw [hreport]
    refine ⟨by simp, ?_⟩
    rintro hzero
    cases hzero
    exact harm rfl
  · rintro ⟨hreturns, hsome⟩
    rcases Option.ne_none_iff_exists'.mp hreturns with ⟨result, hreport⟩
    refine ⟨result, hreport, ?_⟩
    rw [Ne, recvArm_eq_none_iff]
    rintro (rfl | ⟨error, rfl, hkind⟩)
    · exact hsome hreport
    · have hready := (notReady_of_pending h backend batch).1
      rw [notReady_of_report hreport hkind] at hready
      cases hready

/-- The pending datagram ends the call exactly when the batch has a slot, a
batched system call is given room for a message and, where messages are split,
they make at least one packet and find a slot each. -/
theorem recvBatch_progress_iff (socket : BingerUdp)
    (h : DatagramPending os) :
    EndsAtOnce backend features host socket batch os ↔
      batch.capacity ≠ 0 ∧
      (usesBatchedRecv backend os = true → vlen batch.capacity ≠ 0 ∧
        (backend = .linux →
          totalSlots features bufSize (Linux.recvDatagrams batch os) ≠ 0 ∧
          totalSlots features bufSize
            (Linux.recvDatagrams batch os).dropLast < batch.capacity)) := by
  have hdatagrams := recvDatagrams_of_pending h batch
  have hasked := (notReady_of_pending h backend batch).2
  rw [endsAtOnce_of_pending socket h, FindsSlots, RecvsNothing, hdatagrams]
  cases hpath : usesBatchedRecv backend os with
  | false => simp [hasked]
  | true =>
      by_cases hvlen : vlen batch.capacity = 0
      · simp [hvlen]
      · simp only [hvlen, hdatagrams, false_or, if_true, not_or, not_and,
          not_false_eq_true, forall_const, true_and, Ne]
        constructor
        · rintro ⟨hfinds, hcap, hsome⟩
          exact ⟨hcap, fun hlinux => ⟨hsome hlinux, hfinds hlinux⟩⟩
        · rintro ⟨hcap, hmessages⟩
          exact ⟨fun hlinux => (hmessages hlinux).2, hcap,
            fun hlinux => (hmessages hlinux).1⟩

theorem recvBatch_no_slots (hcap : batch.capacity = 0)
    {socket : BingerUdp} (htokio : socket.tokio = true) {waits : List Wait}
    (hwaits : ∀ wait ∈ waits, wait.outcome = .ok ()) (os : Os) :
    ∃ socket',
      recvBatch (Platform.tryRecvBatch backend features host) waits socket
        batch os = (.ok (.pending, socket', batch), os) := by
  induction waits generalizing socket with
  | nil =>
      exact recvBatch_waits socket
        (tryRecvBatch_no_slots backend features host hcap os) rfl
  | cons wait waits ih =>
      rw [List.forall_mem_cons] at hwaits
      rw [recvBatch]
      simp only [tryRecvBatch, recvArm,
        tryRecvBatch_no_slots backend features host hcap os, hwaits.1]
      rw [if_pos]
      · apply ih _ hwaits.2
        exact htokio
      · exact htokio

theorem oneDatagramOs_pending : DatagramPending oneDatagramOs :=
  ⟨_, _, rfl⟩

/-- A batch without slots leaves the datagram where it is and goes round. -/
theorem pending_without_slots :
    DatagramPending oneDatagramOs ∧
      ¬ EndsAtOnce .linux noFeatures ⟨.linux, .little⟩ (plainSocket .linux)
        (.withCapacity 0 4) oneDatagramOs := by
  refine ⟨oneDatagramOs_pending, ?_⟩
  rintro ⟨result, socket', batch', os', hcall, -⟩
  have hwaits : ∀ wait ∈ ([] : List Wait), wait.outcome = .ok () :=
    List.forall_mem_nil _
  rcases recvBatch_no_slots (RecvBatchRaw.capacity_withCapacity 0 4)
    (rfl : (plainSocket .linux).tokio = true) hwaits oneDatagramOs with
    ⟨socket₁, hpending⟩
  rw [hcall [], Prod.mk.injEq] at hpending
  cases hpending.1

theorem pending_one_slot :
    DatagramPending oneDatagramOs ∧
      EndsAtOnce .fallback noFeatures ⟨.linux, .little⟩
        (plainSocket .fallback) (.withCapacity 1 4) oneDatagramOs :=
  ⟨oneDatagramOs_pending,
    (recvBatch_progress_iff _ oneDatagramOs_pending).mpr ⟨by decide, by decide⟩⟩

end Progress

end BingerUdp

end Binger.Socket
