import Binger.Socket.Tasks

/-!
# When a sending call is still waiting

`send_batch`, `send_to` and `send_gso` wait as often as the kernel answers that
it is not ready.  The loops with one call for each packet hide this answer, so
there the call returns at once; a batched call goes on until the kernel gives
another answer.  `pending_iff` tells for every call and backend when it has
returned.
-/

namespace Binger.Socket.Tasks

open Binger.Foundation Binger.Platform

/-! ## One attempt -/

def Payload.AsksOnce (payload : Payload) (backend : Backend) (os : Os) :
    Prop :=
  match payload with
  | .batch entries => vlen entries.len ≠ 0 ∧
      (sendPath backend os = .batched ∨ sendPath backend os = .batchedRetry)
  | .gso _ _ => True

/-- The answers that reach the caller: `retry_eintr` swallows some. -/
def Payload.answers (payload : Payload) (backend : Backend) (os : Os) :
    List (Except Fault Unit) :=
  match payload with
  | .batch _ =>
      if sendPath backend os = .batchedRetry then
        os.sendScript.filter fun answer => !isInterrupted answer
      else os.sendScript
  | .gso _ _ => os.sendScript

def NotReady (answers : List (Except Fault Unit)) : Prop :=
  (ask .wouldBlock answers).1 = .error .wouldBlock

theorem sendArm_batchedResult_iff (n : Nat)
    (script : List (Except Fault Unit)) :
    sendArm (batchedResult n script) = none ↔ n ≠ 0 ∧ NotReady script := by
  cases n with
  | zero => simp [batchedResult, Os.sendManyResult, sendArm]
  | succ n =>
      rcases script with - | ⟨fault | ⟨⟨⟩⟩, script⟩
      · simp [batchedResult, Os.sendManyResult, sendArm, NotReady, ask, refusal,
          granted]
      · simp [batchedResult, Os.sendManyResult, sendArm, NotReady, ask, refusal,
          granted]
      · have hok : Os.sendManyResult (n + 1) (.ok () :: script) =
            .ok (granted n script).length.succ := by
          simp only [Os.sendManyResult, granted, refusal, List.length_cons]
          cases refusal .wouldBlock n script <;> rfl
        simp [batchedResult, hok, sendArm, NotReady, ask]

theorem remaining_of_notReady {n : Nat} {script : List (Except Fault Unit)}
    (hn : n ≠ 0) (h : NotReady script) : remaining n script = script.tail := by
  cases n with
  | zero => exact absurd rfl hn
  | succ n =>
      rcases script with - | ⟨fault | ⟨⟨⟩⟩, script⟩
      · rfl
      · rfl
      · cases h

theorem ask_skipInterrupted {n : Nat} (hn : n ≠ 0)
    (script : List (Except Fault Unit)) :
    (NotReady (skipInterrupted n script) ↔
      NotReady (script.filter fun answer => !isInterrupted answer)) ∧
    (skipInterrupted n script).tail.filter (fun answer =>
        !isInterrupted answer) =
      (script.filter fun answer => !isInterrupted answer).tail := by
  rw [skipInterrupted, if_neg hn]
  induction script with
  | nil => exact ⟨Iff.rfl, rfl⟩
  | cons answer script ih =>
      cases hanswer : isInterrupted answer with
      | true =>
          rw [List.dropWhile_cons_of_pos hanswer,
            List.filter_cons_of_neg (by simp [hanswer])]
          exact ih
      | false =>
          rw [List.dropWhile_cons_of_neg (by simp [hanswer]),
            List.filter_cons_of_pos (by simp [hanswer])]
          exact ⟨Iff.rfl, rfl⟩

section Attempt

variable (payload : Payload) (socket : BingerUdp) (os : Os)

theorem issue_waits_iff :
    sendArm (payload.issue socket os).1 = none ↔
      payload.AsksOnce socket.backend os ∧
        NotReady (payload.answers socket.backend os) := by
  cases payload with
  | batch entries =>
      have performs := trySendBatch_performs socket.backend socket.host
        entries os
      rw [Payload.issue, performs.result, Payload.AsksOnce, Payload.answers]
      cases hpath : sendPath socket.backend os with
      | perPacket =>
          simp only [attempt, reduceCtorEq, or_self, and_false, false_and,
            iff_false]
          intro harm
          obtain ⟨error, herror, hkind⟩ := sendArm_eq_none_iff.mp harm
          exact perPacketResult_ne_wouldBlock herror hkind
      | wsa =>
          simp only [attempt, reduceCtorEq, or_self, and_false, false_and,
            iff_false]
          intro harm
          obtain ⟨error, herror, hkind⟩ := sendArm_eq_none_iff.mp harm
          exact wsaResult_ne_wouldBlock herror hkind
      | batched =>
          simp [attempt, batchedAttempt, sendArm_batchedResult_iff]
      | batchedRetry =>
          simp only [attempt, batchedAttempt, sendArm_batchedResult_iff,
            reduceCtorEq, or_true, and_true, if_true]
          apply and_congr_right
          intro hn
          exact (ask_skipInterrupted hn os.sendScript).1
  | gso data segmentSize =>
      rcases hscript : os.sendScript with - | ⟨fault | ⟨⟨⟩⟩, script⟩ <;>
        simp [Payload.issue, Linux.trySendGso, Os.offerSegmented, hscript, ask,
          sendArm, Payload.AsksOnce, Payload.answers, NotReady]

theorem issue_waits_next
    (h : sendArm (payload.issue socket os).1 = none) :
    (payload.AsksOnce socket.backend (payload.issue socket os).2 ↔
      payload.AsksOnce socket.backend os) ∧
    payload.answers socket.backend (payload.issue socket os).2 =
      (payload.answers socket.backend os).tail := by
  have hwaits := (issue_waits_iff payload socket os).mp h
  cases payload with
  | batch entries =>
      have performs := trySendBatch_performs socket.backend socket.host
        entries os
      have hpath : sendPath socket.backend
          ((Payload.batch entries).issue socket os).2 =
            sendPath socket.backend os := performs.path
      have hscript : ((Payload.batch entries).issue socket os).2.sendScript =
        _ := performs.script
      obtain ⟨⟨hn, hbatched⟩, hready⟩ := hwaits
      rw [Payload.AsksOnce, Payload.AsksOnce, Payload.answers, Payload.answers,
        hpath, hscript]
      refine ⟨Iff.rfl, ?_⟩
      rw [Payload.answers] at hready
      rcases hbatched with hbatched | hbatched <;>
        simp only [hbatched, attempt, batchedAttempt, reduceCtorEq, if_true,
          if_false] at hready ⊢
      · exact remaining_of_notReady hn hready
      · obtain ⟨hiff, htail⟩ := ask_skipInterrupted hn os.sendScript
        rw [remaining_of_notReady hn (hiff.mpr hready), htail]
  | gso data segmentSize =>
      refine ⟨Iff.rfl, ?_⟩
      rcases hscript : os.sendScript with - | ⟨fault | ⟨⟨⟩⟩, script⟩ <;>
        simp [Payload.issue, Linux.trySendGso, Os.offerSegmented, hscript, ask,
          Payload.answers]

end Attempt

/-! ## The loop -/

theorem take_succ_notReady_iff (answers : List (Except Fault Unit)) (k : Nat) :
    (∀ answer ∈ answers.take (k + 1), answer = .error .wouldBlock) ↔
      NotReady answers ∧
        ∀ answer ∈ answers.tail.take k, answer = .error .wouldBlock := by
  cases answers with
  | nil => simp [NotReady, ask]
  | cons answer answers =>
      rw [List.take_succ_cons, List.forall_mem_cons]
      rfl

/-- The kernel is not ready through all of these waits, and none of the waits
fails. -/
structure Payload.Blocked (payload : Payload) (socket : BingerUdp)
    (waits : List Wait) (os : Os) : Prop where
  once : payload.AsksOnce socket.backend os
  answers : ∀ answer ∈ (payload.answers socket.backend os).take
    (waits.length + 1), answer = .error .wouldBlock
  outcomes : ∀ wait ∈ waits, wait.outcome = .ok ()
  tokio : waits ≠ [] → socket.tokio = true

theorem waited_fields (payload : Payload) (result : IoResult Nat) (now : Nat)
    (socket : BingerUdp) :
    (payload.noteWait now (payload.count result socket)).backend =
        socket.backend ∧
      (payload.noteWait now (payload.count result socket)).tokio =
        socket.tokio := by
  cases payload <;> cases result <;> exact ⟨rfl, rfl⟩

theorem Payload.Blocked.waits {payload : Payload} {socket : BingerUdp}
    {waits : List Wait} {os : Os} (h : payload.Blocked socket waits os) :
    sendArm (payload.issue socket os).1 = none :=
  (issue_waits_iff payload socket os).mpr
    ⟨h.once, ((take_succ_notReady_iff _ _).mp h.answers).1⟩

theorem blocked_cons_iff (payload : Payload) {socket : BingerUdp} {wait : Wait}
    (waits : List Wait) {os : Os}
    (harm : sendArm (payload.issue socket os).1 = none)
    (hruntime : socket.tokio = true) (houtcome : wait.outcome = .ok ()) :
    payload.Blocked (payload.noteWait wait.now
        (payload.count (payload.issue socket os).1 socket)) waits
        (payload.issue socket os).2 ↔
      payload.Blocked socket (wait :: waits) os := by
  obtain ⟨honce, hready⟩ := (issue_waits_iff payload socket os).mp harm
  obtain ⟨honce', hanswers⟩ := issue_waits_next payload socket os harm
  obtain ⟨hbackend, htokio⟩ := waited_fields payload
    (payload.issue socket os).1 wait.now socket
  constructor
  · intro hrest
    refine ⟨honce, ?_, ?_, fun _ => hruntime⟩
    · refine (take_succ_notReady_iff _ _).mpr ⟨hready, ?_⟩
      have hlater := hrest.answers
      rwa [hbackend, hanswers] at hlater
    · rw [List.forall_mem_cons]
      exact ⟨houtcome, hrest.outcomes⟩
  · intro hblocked
    refine ⟨?_, ?_, ?_, fun _ => htokio.trans hruntime⟩
    · rw [hbackend]
      exact honce'.mpr honce
    · rw [hbackend, hanswers]
      exact ((take_succ_notReady_iff _ _).mp hblocked.answers).2
    · exact fun wait hmem => hblocked.outcomes wait
        (List.mem_cons_of_mem _ hmem)

theorem loop_pending_iff (payload : Payload) (waits : List Wait)
    (socket : BingerUdp) (os : Os) :
    (payload.loop waits socket os).1 = .pending ↔
      payload.Blocked socket waits os := by
  induction waits generalizing socket os with
  | nil =>
      cases harm : sendArm (payload.issue socket os).1 with
      | none =>
          obtain ⟨honce, hready⟩ := (issue_waits_iff payload socket os).mp harm
          rw [Payload.loop_nil_of_wait harm]
          refine iff_of_true rfl ⟨honce, ?_, by simp, by simp⟩
          exact (take_succ_notReady_iff _ 0).mpr ⟨hready, by simp⟩
      | some result =>
          rw [Payload.loop_of_done [] harm]
          refine iff_of_false (by simp) fun hblocked => ?_
          rw [hblocked.waits] at harm
          cases harm
  | cons wait waits ih =>
      cases harm : sendArm (payload.issue socket os).1 with
      | some result =>
          rw [Payload.loop_of_done _ harm]
          refine iff_of_false (by simp) fun hblocked => ?_
          rw [hblocked.waits] at harm
          cases harm
      | none =>
          have htokio := (waited_fields payload (payload.issue socket os).1
            wait.now socket).2
          rw [Payload.loop_cons_of_wait wait waits harm]
          simp only [htokio]
          cases hruntime : socket.tokio with
          | false =>
              refine iff_of_false (by simp) fun hblocked => ?_
              have hnever := hblocked.tokio (by simp)
              rw [hruntime] at hnever
              cases hnever
          | true =>
              cases houtcome : wait.outcome with
              | error error =>
                  refine iff_of_false (by simp) fun hblocked => ?_
                  have hok := hblocked.outcomes wait (by simp)
                  rw [houtcome] at hok
                  cases hok
              | ok value =>
                  rw [if_pos rfl, ← blocked_cons_iff payload waits harm
                    hruntime houtcome]
                  exact ih _ _

/-- A sending call is still pending behind its waits exactly when it retries,
asks for everything in one system call, and the kernel and the waits have given
it nothing but another reason to wait. -/
theorem pending_iff (call : SendCall) (waits : List Wait) (socket : BingerUdp)
    (os : Os) :
    (call.perform waits socket os).1 = .pending ↔
      call.retries = true ∧ call.payload.Blocked socket waits os := by
  cases call with
  | sendBatch batch =>
      rw [SendCall.perform, sendBatch_eq_loop, loop_pending_iff]
      simp [SendCall.retries, SendCall.payload]
  | sendGso data segmentSize =>
      rw [SendCall.perform, sendGso_eq_loop, loop_pending_iff]
      simp [SendCall.retries, SendCall.payload]
  | sendTo buf addr =>
      have hsame : (BingerUdp.sendTo buf addr waits socket os).1 = .pending ↔
          (BingerUdp.sendBatch (BingerUdp.singleBatch buf addr) waits socket
            os).1 = .pending := by
        rw [BingerUdp.sendTo]
        rcases BingerUdp.sendBatch (BingerUdp.singleBatch buf addr) waits
          socket os with ⟨- | (error | n), socket', os'⟩ <;> simp
      rw [SendCall.perform, hsame, sendBatch_eq_loop, loop_pending_iff]
      simp [SendCall.retries, SendCall.payload]
  | trySendBatch | trySendTo | trySendGso =>
      simp [SendCall.perform, SendCall.retries]

end Binger.Socket.Tasks
