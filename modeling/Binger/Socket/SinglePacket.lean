import Mathlib.Data.List.TakeDrop
import Binger.Socket.Gso

/-!
# Sending one packet

`send_to` and `try_send_to` answer with the length of the caller's buffer as
soon as the batch call underneath succeeds, whatever count it returned.  A
batched call for one message never returns zero, but the loops that make one
call for each packet report a socket that is not ready in that way.
-/

namespace Binger.Socket

open Binger.Foundation Binger.Platform Binger.Sockaddr

def AcceptedOnce (buf : Slice) (os os' : Os) : Prop :=
  ∃ message, os'.wire = os.wire ++ [message] ∧ message.item = (0, buf.bytes)

def ReportsAccepted (buf : Slice) (os : Os) (returned : Option (IoResult Nat))
    (os' : Os) : Prop :=
  ∀ k, returned = some (.ok k) →
    k = buf.bytes.length ∧ AcceptedOnce buf os os'

def Poll.result? {α : Type} : Poll α → Option α
  | .pending => none
  | .ready value => some value

/-! ## One packet for the kernel -/

def firstAnswer (os : Os) : Except Fault Unit :=
  (ask .wouldBlock os.sendScript).1

theorem singleBatch_len (buf : Slice) (addr : SocketAddr) :
    (BingerUdp.singleBatch buf addr).len = 1 := rfl

theorem items_singleBatch (backend : Backend) (buf : Slice)
    (addr : SocketAddr) :
    items backend (BingerUdp.singleBatch buf addr) =
      [(0, sentPayload backend ⟨buf, some addr⟩)] := by
  simp [items, BingerUdp.singleBatch]

theorem sentPayload_eq_iff (backend : Backend) (buf : Slice)
    (addr : Option SocketAddr) :
    sentPayload backend ⟨buf, addr⟩ = buf.bytes ↔
      (backend = .windows → buf.bytes.length < 2 ^ 32) := by
  cases backend with
  | linux | macos | fallback => simp [sentPayload, wholePayload]
  | windows =>
      simp only [sentPayload, wsaPayload, List.take_eq_self_iff,
        forall_const]
      omega

theorem acceptedOnce_iff {backend : Backend} {buf : Slice} {addr : SocketAddr}
    {os os' : Os} {n : Nat} {accepted : List Sent}
    (hwire : os'.wire = os.wire ++ accepted)
    (hitems : accepted.map Sent.item =
      (items backend (BingerUdp.singleBatch buf addr)).take n) :
    AcceptedOnce buf os os' ↔
      n ≠ 0 ∧ (backend = .windows → buf.bytes.length < 2 ^ 32) := by
  rw [items_singleBatch] at hitems
  simp only [AcceptedOnce, hwire, List.append_cancel_left_eq]
  rw [← sentPayload_eq_iff backend buf (some addr)]
  cases n with
  | zero =>
      have hnone : accepted = [] := by simpa using hitems
      simp [hnone]
  | succ n =>
      rcases List.map_eq_singleton_iff.mp (by simpa using hitems) with
        ⟨message, hmessage, hitem⟩
      simp [hmessage, hitem]

/-! ## What an attempt reports for one packet -/

section Attempt

variable {script : List (Except Fault Unit)}

theorem attempt_loop_one {path : SendPath}
    (hpath : path = .perPacket ∨ path = .wsa) :
    (attempt path 1 script).result =
      match (ask .wouldBlock script).1 with
      | .ok () => .ok 1
      | .error .wouldBlock => .ok 0
      | .error fault => .error fault.error := by
  rcases hpath with rfl | rfl
  all_goals
    rcases script with - | ⟨(- | - | code) | -, rest⟩ <;>
      simp [attempt, perPacketResult, wsaResult, refusal, granted, ask]

theorem batchedResult_one {n : Nat}
    (h : batchedResult (vlen 1) script = .ok n) : n ≠ 0 := by
  rcases script with - | ⟨fault | value, rest⟩ <;>
    simp [vlen, batchedResult, Os.sendManyResult, refusal, granted] at h
  omega

theorem attempt_batched_one {path : SendPath} {n : Nat}
    (hpath : ¬ (path = .perPacket ∨ path = .wsa))
    (h : (attempt path 1 script).result = .ok n) : n ≠ 0 := by
  cases path with
  | perPacket | wsa => simp at hpath
  | batched | batchedRetry => exact batchedResult_one h

end Attempt

theorem sendLoop_ok_of_done {path : SendPath} {tokio : Bool} {len n : Nat}
    {waits : List Wait} {script : List (Except Fault Unit)}
    {result : IoResult Nat}
    (harm : sendArm (attempt path len script).result = some result)
    (h : (sendLoop path tokio len waits script).1 = .ready (.ok n)) :
    (sendLoop path tokio len waits script).2 = n ∧
      ∃ script', (attempt path len script').result = .ok n := by
  rw [sendLoop_of_done waits harm] at h ⊢
  have hresult : result = .ok n := by simpa using h
  have hok : (attempt path len script).result = .ok n := by
    rw [← hresult]
    exact sendArm_eq_some harm
  exact ⟨(attempt_ok path len script hok).symm, script, hok⟩

theorem sendLoop_ok {path : SendPath} {tokio : Bool} {len n : Nat}
    {waits : List Wait} {script : List (Except Fault Unit)}
    (h : (sendLoop path tokio len waits script).1 = .ready (.ok n)) :
    (sendLoop path tokio len waits script).2 = n ∧
      ∃ script', (attempt path len script').result = .ok n := by
  induction waits generalizing script with
  | nil =>
      cases harm : sendArm (attempt path len script).result with
      | none => simp [sendLoop_nil_of_wait harm] at h
      | some result => exact sendLoop_ok_of_done harm h
  | cons wait waits ih =>
      cases harm : sendArm (attempt path len script).result with
      | none =>
          rw [sendLoop_cons_of_wait wait waits harm] at h ⊢
          cases tokio with
          | false => simp at h
          | true =>
              cases houtcome : wait.outcome with
              | error error => simp [houtcome] at h
              | ok ready =>
                  simp only [houtcome, if_true] at h ⊢
                  exact ih h
      | some result => exact sendLoop_ok_of_done harm h

/-! ## When the report is right -/

def LoopsOverPackets (backend : Backend) (os : Os) : Prop :=
  sendPath backend os = .perPacket ∨ sendPath backend os = .wsa

/-- A loop over packets does not find the socket full, and Windows gets no
payload that its 32-bit length cannot express. -/
def ReportsRight (backend : Backend) (buf : Slice) (os : Os) : Prop :=
  (LoopsOverPackets backend os → firstAnswer os ≠ .error .wouldBlock) ∧
  (backend = .windows → firstAnswer os = .ok () →
    buf.bytes.length < 2 ^ 32)

theorem not_windows_of_batched {backend : Backend} {os : Os}
    (h : ¬ LoopsOverPackets backend os) : backend ≠ .windows := by
  rintro rfl
  exact h (.inr rfl)

theorem sendLoop_reports_iff (backend : Backend) (buf : Slice) (os : Os)
    (tokio : Bool) (waits : List Wait) :
    (∀ n, (sendLoop (sendPath backend os) tokio 1 waits os.sendScript).1 =
        .ready (.ok n) →
      n ≠ 0 ∧ (backend = .windows → buf.bytes.length < 2 ^ 32)) ↔
      ReportsRight backend buf os := by
  by_cases hpath : LoopsOverPackets backend os
  · have hone := @attempt_loop_one os.sendScript _ hpath
    have hdone : ∀ result,
        (attempt (sendPath backend os) 1 os.sendScript).result = result →
        sendArm result = some result →
        (sendLoop (sendPath backend os) tokio 1 waits os.sendScript).1 =
          .ready result := by
      intro result hresult harm
      rw [sendLoop_of_done waits (by rw [hresult]; exact harm)]
    simp only [ReportsRight, hpath, forall_const, firstAnswer]
    rcases hanswer : (ask .wouldBlock os.sendScript).1 with (_ | _ | code) | _
    all_goals
      rw [hanswer] at hone
      rw [hdone _ hone rfl]
      simp [hanswer]
  · have hwindows := not_windows_of_batched hpath
    simp only [ReportsRight, hpath, hwindows, false_implies, and_true,
      iff_true]
    intro n hn
    rcases (sendLoop_ok hn).2 with ⟨script, hscript⟩
    exact attempt_batched_one hpath hscript

namespace BingerUdp

theorem sendTo_reportsAccepted_iff (buf : Slice) (addr : SocketAddr)
    (waits : List Wait) (socket : BingerUdp) (os : Os) :
    ReportsAccepted buf os (sendTo buf addr waits socket os).1.result?
        (sendTo buf addr waits socket os).2.2 ↔
      ReportsRight socket.backend buf os := by
  rw [← sendLoop_reports_iff socket.backend buf os socket.tokio waits]
  rcases sendBatch_refines (singleBatch buf addr) waits socket os with
    ⟨hpoll, accepted, hwire, hitems⟩
  rw [singleBatch_len] at hpoll hitems
  rcases hcall : sendBatch (singleBatch buf addr) waits socket os with
    ⟨poll, socket', os'⟩
  rw [hcall] at hpoll hwire
  rw [← hpoll]
  rcases poll with - | (error | n)
  · simp [sendTo, hcall, ReportsAccepted, Poll.result?]
  · simp [sendTo, hcall, ReportsAccepted, Poll.result?]
  · rw [(sendLoop_ok hpoll.symm).1] at hitems
    simp [sendTo, hcall, ReportsAccepted, Poll.result?,
      acceptedOnce_iff hwire hitems]

theorem trySendTo_reportsAccepted_iff (socket : BingerUdp) (buf : Slice)
    (addr : SocketAddr) (os : Os) :
    ReportsAccepted buf os (some (socket.trySendTo buf addr os).1)
        (socket.trySendTo buf addr os).2.2 ↔
      ReportsRight socket.backend buf os := by
  rw [← sendTo_reportsAccepted_iff buf addr [] socket os]
  rcases hcall : socket.trySendBatch (singleBatch buf addr) os with
    ⟨result, socket', os'⟩
  cases harm : sendArm result with
  | none =>
      rcases sendArm_eq_none_iff.mp harm with ⟨error, herror, -⟩
      subst herror
      simp [trySendTo, sendTo, sendBatch, hcall, harm, ReportsAccepted,
        Poll.result?]
  | some done =>
      have hdone := sendArm_eq_some harm
      subst hdone
      cases result <;>
        simp [trySendTo, sendTo, sendBatch, hcall, harm, Poll.result?]

/-- Both wrappers report only what was accepted exactly under
`ReportsRight`. -/
theorem single_packet_reported_iff (socket : BingerUdp) (buf : Slice)
    (addr : SocketAddr) (waits : List Wait) (os : Os) :
    (ReportsAccepted buf os (some (socket.trySendTo buf addr os).1)
        (socket.trySendTo buf addr os).2.2 ↔
      ReportsRight socket.backend buf os) ∧
    (ReportsAccepted buf os (sendTo buf addr waits socket os).1.result?
        (sendTo buf addr waits socket os).2.2 ↔
      ReportsRight socket.backend buf os) :=
  ⟨trySendTo_reportsAccepted_iff socket buf addr os,
    sendTo_reportsAccepted_iff buf addr waits socket os⟩

/-- The fallback loop on a full buffer: both calls report three bytes, and
nothing is on the wire. -/
theorem full_buffer_reported_as_sent :
    ((plainSocket .fallback).trySendTo ⟨0, [1, 2, 3]⟩ (.v4 .loopback 9)
        (connectedOs [.error .wouldBlock])).1 = .ok 3 ∧
    ¬ ReportsAccepted ⟨0, [1, 2, 3]⟩ (connectedOs [.error .wouldBlock])
        (some ((plainSocket .fallback).trySendTo ⟨0, [1, 2, 3]⟩
          (.v4 .loopback 9) (connectedOs [.error .wouldBlock])).1)
        ((plainSocket .fallback).trySendTo ⟨0, [1, 2, 3]⟩ (.v4 .loopback 9)
          (connectedOs [.error .wouldBlock])).2.2 ∧
    ¬ ReportsAccepted ⟨0, [1, 2, 3]⟩ (connectedOs [.error .wouldBlock])
        (sendTo ⟨0, [1, 2, 3]⟩ (.v4 .loopback 9) [] (plainSocket .fallback)
          (connectedOs [.error .wouldBlock])).1.result?
        (sendTo ⟨0, [1, 2, 3]⟩ (.v4 .loopback 9) [] (plainSocket .fallback)
          (connectedOs [.error .wouldBlock])).2.2 := by
  have hwrong : ¬ ReportsRight .fallback ⟨0, [1, 2, 3]⟩
      (connectedOs [.error .wouldBlock]) :=
    fun h => h.1 (.inl rfl) rfl
  refine ⟨rfl, ?_, ?_⟩
  · rw [trySendTo_reportsAccepted_iff]
    exact hwrong
  · rw [sendTo_reportsAccepted_iff]
    exact hwrong

end BingerUdp

end Binger.Socket
