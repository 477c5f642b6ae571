import Binger.Platform.RecvRepresentation
import Binger.Platform.RecvTakes
import Binger.Socket.Recv

/-!
# Receiving in a loop

A server calls `recv_batch`, `try_recv_batch` and `recv_from` again and again,
with batches of any shape, and drops a future that is still waiting when
something else is ready first.  The future may be dropped behind any wait: a
call that is abandoned has taken nothing off the queue.  So the calls that
return cut the queue into consecutive pieces, whatever happens in between.
-/

namespace Binger.Socket

open Binger.Foundation Binger.Platform Binger.Sockaddr

abbrev Entry := List UInt8 × SocketAddr

inductive RecvCall where
  | tryRecvBatch {bufSize : Nat} (batch : RecvBatchRaw bufSize)
  | recvBatch {bufSize : Nat} (batch : RecvBatchRaw bufSize)
  | recvFrom (bufLen : Nat)

namespace RecvCall

def bufSize : RecvCall → Nat
  | @tryRecvBatch bufSize _ => bufSize
  | @recvBatch bufSize _ => bufSize
  | recvFrom bufLen => bufLen

end RecvCall

namespace BingerUdp

section Calls

variable (backend : Backend) (features : Features) (host : Host)

/-- A call and what its caller reads: the `n` packets behind an `Ok(n)`, or
nothing.  The list of waits ends where the caller drops the future. -/
def receive (call : RecvCall) (waits : List Wait) (socket : BingerUdp)
    (os : Os) : Except Panic (List Entry × BingerUdp) × Os :=
  match call with
  | .tryRecvBatch batch =>
      match socket.tryRecvBatch
        (Platform.tryRecvBatch backend features host) batch os with
      | (.error panic, os) => (.error panic, os)
      | (.ok (.ok n, socket, batch), os) =>
          (do return (← batch.read n, socket), os)
      | (.ok (.error _, socket, _), os) => (.ok ([], socket), os)
  | .recvBatch batch =>
      match recvBatch (Platform.tryRecvBatch backend features host) waits
        socket batch os with
      | (.error panic, os) => (.error panic, os)
      | (.ok (.ready (.ok n), socket, batch), os) =>
          (do return (← batch.read n, socket), os)
      | (.ok (_, socket, _), os) => (.ok ([], socket), os)
  | .recvFrom bufLen =>
      match recvFrom bufLen (Platform.tryRecvBatch backend features host)
        waits socket os with
      | (.error panic, os) => (.error panic, os)
      | (.ok (.ready (.ok entry), socket), os) => (.ok ([entry], socket), os)
      | (.ok (_, socket), os) => (.ok ([], socket), os)

def receiveAll : List (RecvCall × List Wait) → BingerUdp → Os →
    Except Panic (List (List Entry) × BingerUdp) × Os
  | [], socket, os => (.ok ([], socket), os)
  | (call, waits) :: calls, socket, os =>
      match receive backend features host call waits socket os with
      | (.error panic, os) => (.error panic, os)
      | (.ok (shown, socket), os) =>
          match receiveAll calls socket os with
          | (.error panic, os) => (.error panic, os)
          | (.ok (rest, socket), os) => (.ok (shown :: rest, socket), os)

end Calls

/-! ## One call -/

variable {bufSize : Nat} {backend : Backend} {features : Features}

structure PollTakes (batch : RecvBatchRaw bufSize) (os : Os)
    (taken : List Datagram) (poll : Poll (IoResult Nat))
    (batch' : RecvBatchRaw bufSize) (os' : Os) : Prop where
  queue : stock os.recvScript = taken ++ stock os'.recvScript
  kernel : os' = { os with recvScript := os'.recvScript }
  suffix : os'.recvScript <:+ os.recvScript
  count : ∀ n, poll = .ready (.ok n) → n = taken.length
  shown : batch'.read taken.length = .ok (taken.map (cutEntry bufSize))
  returned : taken ≠ [] ↔ ∃ n, poll = .ready (.ok n)
  room : taken.length ≤ batch.capacity

section Attempt

variable {batch batch' : RecvBatchRaw bufSize} {os os' : Os}
  {taken : List Datagram} {result : IoResult Nat}

theorem nothing_taken_of_wait (h : Takes batch os taken result batch' os')
    (harm : recvArm result = none) : taken = [] := by
  rcases recvArm_eq_none_iff.mp harm with rfl | ⟨error, rfl, -⟩
  · exact List.eq_nil_of_length_eq_zero (h.count 0 rfl).symm
  · exact h.failed error rfl

theorem PollTakes.of_attempt (h : Takes batch os taken result batch' os')
    (harm : recvArm result = some result) :
    PollTakes batch os taken (.ready result) batch' os' := by
  refine ⟨h.queue, h.kernel, h.suffix, ?_, h.shown, ?_, h.room⟩
  · intro n hn
    cases hn
    exact h.count n rfl
  · cases result with
    | ok n =>
        have hne : n ≠ 0 := by
          rintro rfl
          cases harm
        have hcount := h.count n rfl
        refine ⟨fun _ => ⟨n, rfl⟩, ?_⟩
        rintro - rfl
        exact hne (by simpa using hcount)
    | error error => simp [h.failed error rfl]

theorem PollTakes.of_wait (h : Takes batch os taken result batch' os')
    (harm : recvArm result = none) {poll : Poll (IoResult Nat)}
    (hpoll : ∀ n, poll ≠ .ready (.ok n)) :
    PollTakes batch os [] poll batch' os' := by
  obtain rfl := nothing_taken_of_wait h harm
  exact ⟨h.queue, h.kernel, h.suffix, fun n hn => absurd hn (hpoll n), rfl,
    by simp [hpoll], Nat.zero_le _⟩

theorem PollTakes.behind_wait {final : RecvBatchRaw bufSize} {last : Os}
    {rest : List Datagram} {poll : Poll (IoResult Nat)}
    (h : Takes batch os taken result batch' os')
    (harm : recvArm result = none)
    (hcapacity : batch'.capacity = batch.capacity)
    (hrest : PollTakes batch' os' rest poll final last) :
    PollTakes batch os rest poll final last := by
  obtain rfl := nothing_taken_of_wait h harm
  refine ⟨h.queue.trans hrest.queue, ?_, hrest.suffix.trans h.suffix,
    hrest.count, hrest.shown, hrest.returned, hcapacity ▸ hrest.room⟩
  rw [hrest.kernel, h.kernel]

end Attempt

/-- `recv_batch` takes datagrams only with the attempt that ends it; a call that
is still waiting took none. -/
theorem recvBatch_takes (host : Host) (waits : List Wait)
    (socket : BingerUdp) (batch : RecvBatchRaw bufSize) {os : Os}
    (h : Undisturbed backend features bufSize os) :
    ∃ poll socket' batch' os' taken,
      recvBatch (Platform.tryRecvBatch backend features host) waits socket
        batch os = (.ok (poll, socket', batch'), os') ∧
      PollTakes batch os taken poll batch' os' := by
  induction waits generalizing socket batch os with
  | nil =>
      obtain ⟨result, batch', os', taken, hcall, htakes⟩ :=
        tryRecvBatch_takes host batch h
      cases harm : recvArm result with
      | some final =>
          obtain ⟨rfl, -⟩ := recvArm_eq_some harm
          obtain ⟨socket', hends⟩ := recvBatch_ends socket hcall harm
          exact ⟨_, _, _, _, taken, hends [], .of_attempt htakes harm⟩
      | none =>
          obtain ⟨socket', hwaits⟩ := recvBatch_waits socket hcall harm
          exact ⟨_, _, _, _, [], hwaits, .of_wait htakes harm (by simp)⟩
  | cons wait waits ih =>
      obtain ⟨result, batch', os', taken, hcall, htakes⟩ :=
        tryRecvBatch_takes host batch h
      cases harm : recvArm result with
      | some final =>
          obtain ⟨rfl, -⟩ := recvArm_eq_some harm
          obtain ⟨socket', hends⟩ := recvBatch_ends socket hcall harm
          exact ⟨_, _, _, _, taken, hends _, .of_attempt htakes harm⟩
      | none =>
          obtain ⟨socket₁, htry⟩ := tryRecvBatch_of_platform socket hcall
          rw [recvBatch]
          simp only [htry, harm]
          split
          · split
            · have hnext := h.of_suffix htakes.kernel htakes.suffix
              have hcapacity :=
                (tryRecvBatch_keeps (congrArg Prod.fst hcall)).capacity_eq
              obtain ⟨poll, socket', batch'', os'', rest, hrest, hpoll⟩ :=
                ih (socket₁.noteRecvWouldBlock wait.now) batch' hnext
              exact ⟨poll, socket', batch'', os'', rest, hrest,
                .behind_wait htakes harm hcapacity hpoll⟩
            · exact ⟨_, _, _, _, [], rfl, .of_wait htakes harm (by simp)⟩
          · exact ⟨_, _, _, _, [], rfl, .of_wait htakes harm (by simp)⟩

theorem PollTakes.nothing {batch batch' : RecvBatchRaw bufSize} {os os' : Os}
    {taken : List Datagram} {poll : Poll (IoResult Nat)}
    (h : PollTakes batch os taken poll batch' os')
    (hpoll : ∀ n, poll ≠ .ready (.ok n)) : taken = [] := by
  by_contra hsome
  obtain ⟨n, hn⟩ := h.returned.mp hsome
  exact hpoll n hn

theorem read_first {n : Nat} {batch : RecvBatchRaw bufSize} {entry : Entry}
    {entries : List Entry}
    (h : batch.read (n + 1) = .ok (entry :: entries)) :
    batch.data 0 = .ok entry.1 ∧ batch.addr 0 = .ok entry.2 := by
  simp only [RecvBatchRaw.read, List.range'_succ, List.mapM_cons, bind,
    Except.bind, pure, Except.pure] at h
  cases hdata : batch.data 0 with
  | error panic => simp [hdata] at h
  | ok data =>
      cases haddr : batch.addr 0 with
      | error panic => simp [hdata, haddr] at h
      | ok addr =>
          simp only [hdata, haddr] at h
          split at h
          · cases h
          · cases h
            exact ⟨rfl, rfl⟩

theorem read_single {batch : RecvBatchRaw bufSize} {taken : List Datagram}
    (hshown : batch.read taken.length = .ok (taken.map (cutEntry bufSize)))
    (hsome : taken ≠ []) (hroom : taken.length ≤ 1) :
    ∃ datagram, taken = [datagram] ∧
      batch.data 0 = .ok (cutEntry bufSize datagram).1 ∧
      batch.addr 0 = .ok (cutEntry bufSize datagram).2 ∧
      min (cutEntry bufSize datagram).1.length bufSize =
        (cutEntry bufSize datagram).1.length := by
  have hone : taken.length = 1 := by
    have := List.length_pos_of_ne_nil hsome
    omega
  obtain ⟨datagram, rfl⟩ := List.length_eq_one_iff.mp hone
  obtain ⟨hdata, haddr⟩ := read_first hshown
  refine ⟨datagram, rfl, hdata, haddr, ?_⟩
  apply Nat.min_eq_left
  simp only [cutEntry, List.length_take]
  omega

theorem receive_takes (host : Host) (call : RecvCall) (waits : List Wait)
    (socket : BingerUdp) {os : Os}
    (h : Undisturbed backend features call.bufSize os) :
    ∃ taken socket' os',
      receive backend features host call waits socket os =
        (.ok (taken.map (cutEntry call.bufSize), socket'), os') ∧
      stock os.recvScript = taken ++ stock os'.recvScript ∧
      os' = { os with recvScript := os'.recvScript } ∧
      os'.recvScript <:+ os.recvScript := by
  cases call with
  | tryRecvBatch batch =>
      obtain ⟨result, batch', os', taken, hcall, htakes⟩ :=
        tryRecvBatch_takes host batch h
      obtain ⟨socket', htry⟩ := tryRecvBatch_of_platform socket hcall
      refine ⟨taken, socket', os', ?_, htakes.queue, htakes.kernel,
        htakes.suffix⟩
      cases result with
      | ok n =>
          rw [receive, htry, htakes.count n rfl]
          simp only [htakes.shown]
          rfl
      | error error =>
          rw [receive, htry, htakes.failed error rfl]
          rfl
  | recvBatch batch =>
      obtain ⟨poll, socket', batch', os', taken, hcall, htakes⟩ :=
        recvBatch_takes host waits socket batch h
      refine ⟨taken, socket', os', ?_, htakes.queue, htakes.kernel,
        htakes.suffix⟩
      rcases poll with - | (error | n)
      · rw [receive, hcall, htakes.nothing (by simp)]
        rfl
      · rw [receive, hcall, htakes.nothing (by simp)]
        rfl
      · rw [receive, hcall, htakes.count n rfl]
        simp only [htakes.shown]
        rfl
  | recvFrom bufLen =>
      obtain ⟨poll, socket', batch', os', taken, hcall, htakes⟩ :=
        recvBatch_takes host waits socket (.withCapacity 1 bufLen) h
      refine ⟨taken, socket', os', ?_, htakes.queue, htakes.kernel,
        htakes.suffix⟩
      rcases poll with - | (error | n)
      · rw [receive, recvFrom, hcall, htakes.nothing (by simp)]
        rfl
      · rw [receive, recvFrom, hcall, htakes.nothing (by simp)]
        rfl
      · have hsome := htakes.returned.mpr ⟨n, rfl⟩
        have hroom := htakes.room
        rw [RecvBatchRaw.capacity_withCapacity] at hroom
        obtain ⟨datagram, rfl, hdata, haddr, hmin⟩ :=
          read_single htakes.shown hsome hroom
        rw [receive, recvFrom, hcall]
        simp only [hdata, haddr, hmin, bind, Except.bind, pure, Except.pure,
          List.take_length]
        rfl

/-! ## Runs -/

structure Partitions (calls : List (RecvCall × List Wait)) (os : Os)
    (shown : List (List Entry)) (os' : Os) (pieces : List (List Datagram)) :
    Prop where
  queue : stock os.recvScript = pieces.flatten ++ stock os'.recvScript
  pieces_length : pieces.length = calls.length
  shown_eq : shown = List.zipWith
    (fun call piece => piece.map (cutEntry (RecvCall.bufSize call.1))) calls
    pieces

/-- Over every run of receiving calls, returned or abandoned, the calls take
consecutive pieces off the queue and show exactly these: no datagram is lost,
shown twice or out of order. -/
theorem receiveAll_partitions (host : Host)
    (calls : List (RecvCall × List Wait)) (socket : BingerUdp) {os : Os}
    (h : ∀ call ∈ calls, Undisturbed backend features call.1.bufSize os) :
    ∃ shown socket' os' pieces,
      receiveAll backend features host calls socket os =
        (.ok (shown, socket'), os') ∧
      Partitions calls os shown os' pieces := by
  induction calls generalizing socket os with
  | nil => exact ⟨[], socket, os, [], rfl, rfl, rfl, rfl⟩
  | cons call calls ih =>
      rw [List.forall_mem_cons] at h
      obtain ⟨taken, socket₁, os₁, hcall, hqueue, hkernel, hsuffix⟩ :=
        receive_takes host call.1 call.2 socket h.1
      obtain ⟨shown, socket', os', pieces, hrest, hpieces⟩ :=
        ih socket₁ fun call hmem => (h.2 call hmem).of_suffix hkernel hsuffix
      refine ⟨taken.map (cutEntry call.1.bufSize) :: shown, socket', os',
        taken :: pieces, ?_, ?_, ?_, ?_⟩
      · rw [receiveAll, hcall]
        simp only [hrest]
      · rw [hqueue, hpieces.queue, List.flatten_cons, List.append_assoc]
      · simp [hpieces.pieces_length]
      · rw [hpieces.shown_eq]
        rfl

theorem abandoned_receive_partitions :
    ∃ shown socket' os' pieces,
      receiveAll .linux Linux.groOnly ⟨.linux, .little⟩
        [(.recvBatch (.withCapacity 2 4), []), (.recvFrom 4, []),
          (.tryRecvBatch (.withCapacity 3 4), [])]
        (plainSocket .linux)
        { Linux.plainOs with
          recvScript := .error .wouldBlock :: Linux.plainOs.recvScript } =
            (.ok (shown, socket'), os') ∧
      Partitions
        [(.recvBatch (.withCapacity 2 4), []), (.recvFrom 4, []),
          (.tryRecvBatch (.withCapacity 3 4), [])]
        { Linux.plainOs with
          recvScript := .error .wouldBlock :: Linux.plainOs.recvScript }
        shown os' pieces := by
  apply receiveAll_partitions
  rintro call -
  constructor
  case plain =>
    intro _ _ datagram hmem
    simp only [Linux.plainOs, List.mem_cons, reduceCtorEq, Except.ok.injEq,
      List.not_mem_nil, or_false, false_or] at hmem
    rcases hmem with rfl | rfl <;> rfl
  case ready => simp [usesBatchedRecv, Linux.plainOs, Linux.coalescedOs]
  case fits => simp

end BingerUdp

end Binger.Socket
