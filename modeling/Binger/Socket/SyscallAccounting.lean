import Binger.Foundation.Runs
import Binger.Platform.LinuxSyscalls
import Binger.Socket.Gso
import Binger.Socket.Recv

/-!
# System call accounting

`try_send_batch` adds one to `send_syscalls` when the backend succeeds, and
`try_recv_batch` does the same on its side.  The number of system calls behind a
call is decided one layer below.  The two agree for a call that enters the
kernel once and succeeds there, and for no other.
-/

namespace Binger.Socket.SyscallAccounting

open Binger.Foundation Binger.Platform Binger.Sockaddr

variable {bufSize : Nat}

/-! ## Sessions -/

structure Session where
  socket : BingerUdp
  os : Os
  calls : List Syscall
  linux : socket.backend = .linux

inductive Request where
  | send (batch : SendBatchRaw)
  | recv (bufSize : Nat) (batch : RecvBatchRaw bufSize)

theorem trySendBatch_backend (socket : BingerUdp) (batch : SendBatchRaw)
    (os : Os) :
    (socket.trySendBatch batch os).2.1.backend = socket.backend := by
  unfold BingerUdp.trySendBatch
  split <;> rfl

def afterRecv (features : Features) (socket : BingerUdp)
    (batch : RecvBatchRaw bufSize) (os : Os) : BingerUdp :=
  match (socket.tryRecvBatch (Linux.tryRecvBatch features socket.host) batch
    os).1 with
  | .ok (_, socket, _) => socket
  | .error _ => socket

theorem afterRecv_backend (features : Features) (socket : BingerUdp)
    (batch : RecvBatchRaw bufSize) (os : Os) :
    (afterRecv features socket batch os).backend = socket.backend := by
  unfold afterRecv BingerUdp.tryRecvBatch
  rcases Linux.tryRecvBatch features socket.host batch os with
    ⟨panic | ⟨error | received, batch'⟩, os'⟩ <;> rfl

namespace Session

def send (session : Session) (batch : SendBatchRaw) : Session where
  socket := (session.socket.trySendBatch batch session.os).2.1
  os := (session.socket.trySendBatch batch session.os).2.2
  calls := session.calls ++ (Linux.trySendBatchTraced session.socket.host batch
    session.os).calls
  linux := (trySendBatch_backend _ batch session.os).trans session.linux

def recv (features : Features) (session : Session)
    (batch : RecvBatchRaw bufSize) : Session where
  socket := afterRecv features session.socket batch session.os
  os := (session.socket.tryRecvBatch (Linux.tryRecvBatch features
    session.socket.host) batch session.os).2
  calls := session.calls ++ (Linux.tryRecvBatchTraced features
    session.socket.host batch session.os).calls
  linux := (afterRecv_backend features _ batch session.os).trans session.linux

def step (features : Features) (session : Session) :
    Request → Option Session
  | .send batch => some (session.send batch)
  | .recv _ batch => some (session.recv features batch)

/-! ## The books -/

def counters (session : Session) : Option (Nat × Nat) :=
  session.socket.metrics.map fun metrics =>
    (metrics.sendSyscalls, metrics.recvSyscalls)

end Session

def made (calls : List Syscall) : Nat × Nat :=
  (calls.countP Syscall.isSend, calls.countP fun call => !call.isSend)

theorem made_append (first second : List Syscall) :
    made (first ++ second) = made first + made second := by
  simp [made, List.countP_append]

def Session.Accounted (session : Session) : Prop :=
  session.counters = some (made session.calls)

def booked : IoResult Nat → Nat
  | .ok _ => 1
  | .error _ => 0

def bookedOutcome : RecvOutcome bufSize → Nat
  | .ok (result, _) => booked result
  | .error _ => 0

/-- The kernel is entered once and takes a packet, or the 32-bit count wrapped
to zero and it takes none. -/
def SendCountedOnce (batch : SendBatchRaw) (os : Os) : Prop :=
  batch.len ≠ 0 ∧ os.hasSendmmsg = true ∧
    (vlen batch.len = 0 ∨ (ask .wouldBlock os.sendScript).1 = .ok ())

/-- The kernel is entered once and delivers messages for which there are slots,
or the 32-bit count wrapped to zero and it delivers none. -/
def RecvCountedOnce (features : Features) (batch : RecvBatchRaw bufSize)
    (os : Os) : Prop :=
  batch.capacity ≠ 0 ∧ os.hasRecvmmsg = true ∧
    (vlen batch.capacity = 0 ∨
      (∃ datagram, (ask .wouldBlock os.recvScript).1 = .ok datagram) ∧
        totalSlots features bufSize
          (granted (vlen batch.capacity) os.recvScript).dropLast <
            batch.capacity)

def Request.CountedOnce (features : Features) (os : Os) : Request → Prop
  | .send batch => SendCountedOnce batch os
  | .recv _ batch => RecvCountedOnce features batch os

/-! ## One call -/

theorem booked_le_one (result : IoResult Nat) : booked result ≤ 1 := by
  cases result <;> simp [booked]

theorem bookedOutcome_le_one (outcome : RecvOutcome bufSize) :
    bookedOutcome outcome ≤ 1 := by
  rcases outcome with panic | ⟨result, batch⟩
  · exact Nat.zero_le 1
  · exact booked_le_one result

theorem send_counters (session : Session) (batch : SendBatchRaw) :
    (session.send batch).counters = session.counters.map fun counters =>
      counters + (booked (Linux.trySendBatch session.socket.host batch
        session.os).1, 0) := by
  have hplatform : Platform.trySendBatch session.socket.backend
      session.socket.host batch session.os =
        Linux.trySendBatch session.socket.host batch session.os := by
    rw [session.linux, Platform.trySendBatch]
  simp only [Session.counters, Session.send, BingerUdp.trySendBatch,
    hplatform, Option.map_map]
  rcases Linux.trySendBatch session.socket.host batch session.os with
    ⟨error | sent, os'⟩
  · simp only [Option.map_map, booked]
    congr 1
    funext metrics
    simp only [Function.comp_apply, BingerUdp.countSendError]
    split <;> rfl
  · simp only [Option.map_map]
    rfl

theorem recv_counters (features : Features) (session : Session)
    (batch : RecvBatchRaw bufSize) :
    (session.recv features batch).counters =
      session.counters.map fun counters =>
        counters + (0, bookedOutcome (Linux.tryRecvBatch features
          session.socket.host batch session.os).1) := by
  simp only [Session.counters, Session.recv, afterRecv,
    BingerUdp.tryRecvBatch, Option.map_map]
  rcases Linux.tryRecvBatch features session.socket.host batch session.os with
    ⟨panic | ⟨error | received, batch'⟩, os'⟩
  · rfl
  · simp only [Option.map_map, bookedOutcome, booked]
    congr 1
    funext metrics
    simp only [Function.comp_apply, BingerUdp.countRecvError]
    split <;> rfl
  · simp only [Option.map_map]
    rfl

theorem send_made (host : Host) (batch : SendBatchRaw) (os : Os) :
    made (Linux.trySendBatchTraced host batch os).calls =
      ((Linux.trySendBatchTraced host batch os).calls.length, 0) := by
  have hsend := Linux.trySendBatchTraced_isSend host batch os
  rw [made, List.countP_eq_length.mpr hsend, List.countP_eq_zero.mpr]
  intro call hmem
  simp [hsend call hmem]

theorem recv_made (features : Features) (host : Host)
    (batch : RecvBatchRaw bufSize) (os : Os) :
    made (Linux.tryRecvBatchTraced features host batch os).calls =
      (0, (Linux.tryRecvBatchTraced features host batch os).calls.length) := by
  rw [Linux.tryRecvBatchTraced_calls]
  split
  · rfl
  · split <;> simp [made, Syscall.isSend, List.countP_replicate]

theorem booked_send_iff (host : Host) (batch : SendBatchRaw) (os : Os) :
    booked (Linux.trySendBatch host batch os).1 =
        (Linux.trySendBatchTraced host batch os).calls.length ↔
      SendCountedOnce batch os := by
  rw [Linux.trySendBatchTraced_length, SendCountedOnce]
  by_cases hlen : batch.len = 0
  · simp [Linux.trySendBatch, hlen, booked]
  · cases h : os.hasSendmmsg with
    | true =>
        rw [Linux.trySendBatch_of_sendmmsg host batch h, batchedResult_first]
        by_cases hvlen : vlen batch.len = 0
        · simp [hlen, hvlen, booked]
        · cases hfirst : (ask .wouldBlock os.sendScript).1 <;>
            simp [hlen, hvlen, booked]
    | false =>
        have hbooked := booked_le_one (Linux.trySendBatch host batch os).1
        have hasked := questions_pos hlen os.sendScript
        simp [hlen]
        omega

theorem booked_delivered_iff (features : Features)
    (batch : RecvBatchRaw bufSize) (datagrams : List Datagram) :
    bookedOutcome (Linux.delivered features batch datagrams) = 1 ↔
      datagrams = [] ∨
        totalSlots features bufSize datagrams.dropLast < batch.capacity := by
  rw [← Linux.delivered_no_panic_iff, Linux.delivered]
  split <;> simp [bookedOutcome, booked]

theorem booked_recvmmsg_iff (features : Features) (host : Host)
    {batch : RecvBatchRaw bufSize} (hcap : batch.capacity ≠ 0) {os : Os}
    (h : os.hasRecvmmsg = true) :
    bookedOutcome (Linux.tryRecvBatch features host batch os).1 =
        interruptions (vlen batch.capacity) os.recvScript + 1 ↔
      vlen batch.capacity = 0 ∨
        (∃ datagram, (ask .wouldBlock os.recvScript).1 = .ok datagram) ∧
          totalSlots features bufSize
            (granted (vlen batch.capacity) os.recvScript).dropLast <
              batch.capacity := by
  have hcall := Linux.tryRecvBatch_of_recvmmsg features host
    (Nat.pos_of_ne_zero hcap) h
  by_cases hvlen : vlen batch.capacity = 0
  · have hempty := (booked_delivered_iff features batch []).mpr (.inl rfl)
    simp [hcall, hvlen, interruptions, recvManyResult_first, hempty]
  · by_cases hfirst : (ask .wouldBlock os.recvScript).1 = .error .interrupted
    · -- the call is made again, and at most one of the two is counted
      have hagain : interruptions (vlen batch.capacity) os.recvScript ≠ 0 := by
        rwa [Ne, interruptions_eq_zero_iff hvlen, not_not]
      have hbooked := bookedOutcome_le_one
        (Linux.tryRecvBatch features host batch os).1
      simp only [hvlen, hfirst, reduceCtorEq, exists_false, false_and,
        or_self, iff_false]
      omega
    · rw [hcall, (interruptions_eq_zero_iff hvlen).mpr hfirst,
        Linux.recvAnswers, skipInterrupted_of_first _ hfirst,
        recvManyResult_first, if_neg hvlen]
      cases hanswer : (ask .wouldBlock os.recvScript).1 with
      | error fault => simp [bookedOutcome, booked, hvlen]
      | ok datagram =>
          have hsome := granted_ne_nil hvlen hanswer
          simpa [hvlen, hsome] using booked_delivered_iff features batch
            (granted (vlen batch.capacity) os.recvScript)

theorem booked_recv_iff (features : Features) (host : Host)
    (batch : RecvBatchRaw bufSize) (os : Os) :
    bookedOutcome (Linux.tryRecvBatch features host batch os).1 =
        (Linux.tryRecvBatchTraced features host batch os).calls.length ↔
      RecvCountedOnce features batch os := by
  rw [Linux.tryRecvBatchTraced_calls, RecvCountedOnce]
  by_cases hcap : batch.capacity = 0
  · simp [Linux.tryRecvBatch, hcap, bookedOutcome, booked]
  · cases h : os.hasRecvmmsg with
    | true => simpa [hcap] using booked_recvmmsg_iff features host hcap h
    | false =>
        have hbooked := bookedOutcome_le_one
          (Linux.tryRecvBatch features host batch os).1
        have hasked := questions_pos hcap os.recvScript
        simp [hcap]
        omega

theorem accounted_step_iff (features : Features) {session next : Session}
    {request : Request} (h : session.Accounted)
    (hstep : session.step features request = some next) :
    next.Accounted ↔ request.CountedOnce features session.os := by
  rw [Session.Accounted] at h
  cases request with
  | send batch =>
      obtain rfl := Option.some.inj hstep
      rw [Session.Accounted, send_counters, h, Session.send, made_append,
        send_made, Request.CountedOnce,
        ← booked_send_iff session.socket.host]
      simp [Prod.ext_iff]
  | recv bufSize batch =>
      obtain rfl := Option.some.inj hstep
      rw [Session.Accounted, recv_counters, h, Session.recv, made_append,
        recv_made, Request.CountedOnce,
        ← booked_recv_iff features session.socket.host]
      simp [Prod.ext_iff]

/-- The counters show the number of system calls made in every state of a run
exactly when every call of it is counted once. -/
theorem syscalls_counted_iff (features : Features) {session : Session}
    (h : session.Accounted) (requests : List Request) :
    (∀ before after reached, requests = before ++ after →
        run (Session.step features) session before = some reached →
        reached.Accounted) ↔
      EveryStep (Session.step features) (fun session request _ =>
        request.CountedOnce features session.os) session requests :=
  (@everyStep_iff_reached _ _ (Session.step features) _ _
    (fun _ _ _ h hstep => accounted_step_iff features h hstep) _ h
    requests).symm

def freshSession (script : List (Except Fault Unit))
    (answers : List (Except Fault Datagram)) : Session where
  socket := { BingerUdp.plainSocket .linux with
    metrics := some ⟨0, 0, 0, 0, 0, 0, 0, 0, 0, 0⟩ }
  os := { connectedOs script with recvScript := answers }
  calls := []
  linux := rfl

def oneOfEach : List Request :=
  [.send (byteEntries [[1]]), .recv 4 (.withCapacity 1 4)]

def readySession : Session :=
  freshSession [.ok ()] [.ok ⟨[7], .v4 .loopback 7, []⟩]

theorem oneOfEach_counted :
    readySession.Accounted ∧
      ∀ before after reached, oneOfEach = before ++ after →
        run (Session.step noFeatures) readySession before = some reached →
        reached.Accounted := by
  refine ⟨rfl, (@syscalls_counted_iff noFeatures readySession rfl
    oneOfEach).mpr ⟨?_, ?_, trivial⟩⟩
  · exact ⟨by decide, rfl, .inr rfl⟩
  · refine ⟨by decide, rfl, .inr ⟨⟨_, rfl⟩, ?_⟩⟩
    decide

/-- An empty batch is counted without a system call, and a full buffer is met
by a system call that is not counted. -/
theorem syscalls_miscounted :
    (freshSession [] []).Accounted ∧
      (∃ reached, run (Session.step noFeatures) (freshSession [] [])
          [.send (byteEntries [])] = some reached ∧
        reached.counters = some (1, 0) ∧ reached.calls = [] ∧
        ¬ reached.Accounted) ∧
      (∃ reached, run (Session.step noFeatures) (freshSession [] [])
          [.send (byteEntries [[1]])] = some reached ∧
        reached.counters = some (0, 0) ∧ reached.calls = [.sendmmsg] ∧
        ¬ reached.Accounted) := by
  refine ⟨rfl, ⟨_, rfl, by decide, by decide, ?_⟩,
    ⟨_, rfl, by decide, by decide, ?_⟩⟩ <;>
    rw [Session.Accounted] <;>
    decide

end Binger.Socket.SyscallAccounting
