import Binger.Platform.RecvLoops
import Binger.Platform.SendSpec

/-!
# Calls that fail after some packets

A loop with one system call for each packet returns a hard error as soon as it
meets one.  The packets in front of it were sent or received all the same, and
the caller does not learn how many there were.  A failed call is clean, that is
without any effect, exactly when no packet came before the error.  On Windows
the error can also be a datagram that did not fit the buffer, which the call
takes out of the queue.
-/

namespace Binger.Platform

open Binger.Foundation Binger.Sockaddr

/-- Within `n` questions nothing is granted, or the first refusal, if there is
one, says that the socket is not ready.  `answers` is the script as the caller
gets to see it. -/
def StopsCleanly {α : Type} (n : Nat)
    (script answers : List (Except Fault α)) : Prop :=
  granted n script = [] ∨
    ∀ fault, refusal .wouldBlock n answers = some fault → fault = .wouldBlock

/-! ## Sending -/

/-- The four loops over the entries of a batch that make one call for each. -/
inductive SendLoop where
  | generic
  | fallbackSend
  | macosConnected
  | macosSendto
  deriving DecidableEq, Repr

namespace SendLoop

def call (loop : SendLoop) (host : Host) (batch : SendBatchRaw) :
    Os → IoResult Nat × Os :=
  match loop with
  | generic => Fallback.trySendBatch host batch
  | fallbackSend => Linux.fallbackSend host batch
  | macosConnected | macosSendto => Macos.trySendBatch host batch

def Taken (loop : SendLoop) (os : Os) : Prop :=
  match loop with
  | generic | fallbackSend => True
  | macosConnected => os.isConnected = true
  | macosSendto => os.isConnected = false ∧ os.hasSendmsgX = false

theorem call_eq {loop : SendLoop} (host : Host) (batch : SendBatchRaw)
    {os : Os} (h : loop.Taken os) :
    loop.call host batch os =
      (perPacketResult 0 batch.len os.sendScript,
        os.afterOffering (outgoing (perPacketRoute os.isConnected)
          wholePayload os.peer batch.entries 0)) := by
  cases loop with
  | generic => exact perPacketSend_batch host os.isConnected batch os
  | fallbackSend => exact Linux.fallbackSend_eq host batch os
  | macosConnected => exact Macos.trySendBatch_of_loop host batch (.inl h)
  | macosSendto => exact Macos.trySendBatch_of_loop host batch (.inr h.2)

theorem taken_congr {loop : SendLoop} {os os' : Os} (h : loop.Taken os)
    (hpeer : os'.peer = os.peer) (hx : os'.hasSendmsgX = os.hasSendmsgX) :
    loop.Taken os' := by
  cases loop with
  | generic | fallbackSend => trivial
  | macosConnected | macosSendto =>
      simpa [Taken, Os.isConnected, hpeer, hx] using h

end SendLoop

/-- A failed send leaves no datagram behind, so sending the batch again, with
whatever answers of the kernel, puts no entry on the wire twice. -/
structure SendFailsCleanly (call : Os → IoResult Nat × Os) (os : Os) :
    Prop where
  nothing_sent : ∀ error, (call os).1 = .error error →
    (call os).2.wire = os.wire
  resend : ∀ error, (call os).1 = .error error → ∀ script, ∃ accepted,
    (call { (call os).2 with sendScript := script }).2.wire =
        os.wire ++ accepted ∧
      (accepted.map Sent.entry).Nodup

theorem perPacketResult_fails_iff {sent n : Nat}
    {script : List (Except Fault Unit)} :
    (∃ error, perPacketResult sent n script = .error error) ↔
      ¬ ∀ fault, refusal .wouldBlock n script = some fault →
        fault = .wouldBlock := by
  unfold perPacketResult
  split
  · next h => simp [h]
  · next h => simp [h]
  · next fault hne h =>
      simp only [h, Except.error.injEq, exists_eq', Option.some.injEq,
        forall_eq', true_iff]
      exact hne

theorem stopsCleanly_send_iff {n : Nat} {script : List (Except Fault Unit)} :
    StopsCleanly n script script ↔
      ∀ error, perPacketResult 0 n script = .error error →
        granted n script = [] := by
  rw [StopsCleanly, or_iff_not_imp_right, ← @perPacketResult_fails_iff 0,
    exists_imp]

theorem map_entry_outgoing (route : Nat → SendSlot → Option SocketAddr)
    (cut : SendSlot → List UInt8) (peer : Option SocketAddr)
    (entries : List SendSlot) :
    (outgoing route cut peer entries 0).map Sent.entry =
      List.range entries.length := by
  simp [outgoing, Function.comp_def, List.range_eq_range']

/-- A failed call of one of the loops sent nothing exactly when its script
stops cleanly. -/
theorem SendLoop.sendFailsCleanly_iff {loop : SendLoop} (host : Host)
    (batch : SendBatchRaw) {os : Os} (h : loop.Taken os) :
    SendFailsCleanly (loop.call host batch) os ↔
      StopsCleanly batch.len os.sendScript os.sendScript := by
  have hcall := loop.call_eq host batch h
  rw [stopsCleanly_send_iff]
  constructor
  · intro clean error herror
    have hwire := clean.nothing_sent error (by rw [hcall, herror])
    have hle := granted_length_le batch.len os.sendScript
    have hcount := congrArg List.length hwire
    simp only [hcall, Os.afterOffering, List.length_append, List.length_take,
      outgoing_length, SendBatchRaw.entries_length] at hcount
    apply List.eq_nil_of_length_eq_zero
    omega
  · intro hstop
    have hnothing : ∀ error, (loop.call host batch os).1 = .error error →
        (loop.call host batch os).2.wire = os.wire := by
      intro error herror
      rw [hcall] at herror
      simp [hcall, Os.afterOffering, hstop error herror]
    constructor
    case nothing_sent => exact hnothing
    case resend =>
      intro error herror script
      have hwire := hnothing error herror
      have htaken : loop.Taken
          { (loop.call host batch os).2 with sendScript := script } := by
        apply taken_congr h <;> simp [hcall, Os.afterOffering]
      rw [call_eq host batch htaken]
      refine ⟨_, by rw [Os.afterOffering, hwire], ?_⟩
      rw [List.map_take, map_entry_outgoing]
      exact List.nodup_range.sublist (List.take_sublist _ _)

def onePayload (ptr : Nat) (byte : UInt8) : SendSlot :=
  ⟨⟨ptr, [byte]⟩, none⟩

def twoEntries : SendBatchRaw :=
  .ofEntries [onePayload 0 1, onePayload 8 2]

def loopOs (peer : Option SocketAddr) (script : List (Except Fault Unit)) :
    Os where
  peer := peer
  hasSendmmsg := false
  hasRecvmmsg := false
  hasSendmsgX := false
  hasRecvmsgX := false
  sendScript := script
  recvScript := []
  wire := []

def secondFails (peer : Option SocketAddr) : Os :=
  loopOs peer [.ok (), .error (.hard 55)]

theorem connected_loop_fails_cleanly :
    SendFailsCleanly
      (SendLoop.macosConnected.call ⟨.macos, .little⟩ twoEntries)
      (loopOs (some Linux.loopbackSource) [.error (.hard 55)]) :=
  (SendLoop.sendFailsCleanly_iff ⟨.macos, .little⟩ twoEntries
    (show SendLoop.macosConnected.Taken (loopOs (some Linux.loopbackSource)
      [.error (.hard 55)]) from rfl)).mpr (.inl rfl)

theorem SendLoop.sends_first_packet {loop : SendLoop}
    {peer : Option SocketAddr} (h : loop.Taken (secondFails peer)) :
    ¬ SendFailsCleanly (loop.call ⟨.linux, .little⟩ twoEntries)
      (secondFails peer) := by
  intro clean
  have hcall := loop.call_eq ⟨.linux, .little⟩ twoEntries h
  have hwire := clean.nothing_sent (Fault.hard 55).error (by rw [hcall]; rfl)
  rw [hcall] at hwire
  simp [secondFails, loopOs, Os.afterOffering, twoEntries, granted,
    SendBatchRaw.ofEntries, SendBatchRaw.entries, outgoing] at hwire

/-- The second of two packets fails in each loop: the call returns the error,
and the first packet is on the wire. -/
theorem failed_loops_send_a_packet :
    ¬ SendFailsCleanly (SendLoop.generic.call ⟨.linux, .little⟩ twoEntries)
        (secondFails none) ∧
      ¬ SendFailsCleanly
        (SendLoop.fallbackSend.call ⟨.linux, .little⟩ twoEntries)
        (secondFails none) ∧
      ¬ SendFailsCleanly
        (SendLoop.macosConnected.call ⟨.linux, .little⟩ twoEntries)
        (secondFails (some Linux.loopbackSource)) ∧
      ¬ SendFailsCleanly
        (SendLoop.macosSendto.call ⟨.linux, .little⟩ twoEntries)
        (secondFails none) :=
  ⟨SendLoop.sends_first_packet trivial, SendLoop.sends_first_packet trivial,
    SendLoop.sends_first_packet rfl, SendLoop.sends_first_packet ⟨rfl, rfl⟩⟩

/-! ## Receiving -/

section Receiving

variable {bufSize : Nat}

inductive RecvLoop where
  | generic
  | fallbackRecv
  | macosRecvfrom
  | windows
  deriving DecidableEq, Repr

namespace RecvLoop

def call (loop : RecvLoop) (host : Host) (batch : RecvBatchRaw bufSize)
    (os : Os) : RecvOutcome bufSize × Os :=
  match loop with
  | generic => Fallback.tryRecvBatch host batch os
  | fallbackRecv => Linux.fallbackRecv host batch os
  | macosRecvfrom => Macos.tryRecvBatch host batch os
  | windows => Windows.tryRecvBatch host batch os

def Taken (loop : RecvLoop) (os : Os) : Prop :=
  match loop with
  | macosRecvfrom => os.hasRecvmsgX = false
  | generic | fallbackRecv | windows => True

def answer (loop : RecvLoop) (bufSize : Nat) :
    Except Fault Datagram → Except Fault Datagram :=
  match loop with
  | windows => wsaAnswer bufSize
  | generic | fallbackRecv | macosRecvfrom => id

theorem answer_error (loop : RecvLoop) (bufSize : Nat) (fault : Fault) :
    loop.answer bufSize (.error fault) = .error fault := by
  cases loop <;> rfl

end RecvLoop

structure RecvFailsCleanly (batch : RecvBatchRaw bufSize) (os : Os)
    (out : RecvOutcome bufSize × Os) : Prop where
  nothing_taken : ∀ error batch', out.1 = .ok (.error error, batch') →
    stock out.2.recvScript = stock os.recvScript
  same_batch : ∀ error batch', out.1 = .ok (.error error, batch') →
    batch' = batch

theorem wsaStored_of_refused {slots : List (RecvSlot bufSize)}
    {script : List (Except Fault Datagram)}
    (h : granted slots.length script = []) :
    wsaStored script slots = slots := by
  cases slots with
  | nil => exact wsaStored_nil script
  | cons slot slots =>
      cases script with
      | nil => rfl
      | cons answer script =>
          cases answer with
          | error fault => rfl
          | ok datagram => simp [granted] at h

theorem perPacketRecv_loop (host : Host) (batch : RecvBatchRaw bufSize)
    (os : Os) :
    ∃ slots,
      (granted batch.capacity os.recvScript = [] → slots = batch.slots) ∧
      perPacketRecv host batch.capacity 0 0 batch os =
        (perPacketOutcome batch slots (os.recvScript.map id),
          { os with recvScript := os.recvScript.drop (consumed batch.capacity
              (os.recvScript.map id)) }) := by
  refine ⟨stored (granted batch.capacity os.recvScript) batch.slots, ?_, ?_⟩
  · intro hnil
    rw [hnil, stored_eq_fillSlots, fillSlots_nil]
  · rw [List.map_id, perPacketRecv_outcome, remaining_eq_drop]

theorem RecvLoop.call_eq {loop : RecvLoop} (host : Host)
    (batch : RecvBatchRaw bufSize) {os : Os} (h : loop.Taken os) :
    ∃ slots,
      (granted batch.capacity os.recvScript = [] → slots = batch.slots) ∧
      loop.call host batch os =
        (perPacketOutcome batch slots
            (os.recvScript.map (loop.answer bufSize)),
          { os with recvScript := os.recvScript.drop (consumed batch.capacity
              (os.recvScript.map (loop.answer bufSize))) }) := by
  cases loop with
  | generic => exact perPacketRecv_loop host batch os
  | fallbackRecv => exact perPacketRecv_loop host batch os
  | macosRecvfrom =>
      rw [call, Macos.tryRecvBatch_of_recvfrom host batch h]
      exact perPacketRecv_loop host batch os
  | windows =>
      exact ⟨_, wsaStored_of_refused, Windows.tryRecvBatch_eq host batch os⟩

theorem stopsCleanly_recv_iff {n : Nat}
    {script answers : List (Except Fault Datagram)} :
    StopsCleanly n script answers ↔
      ∀ error, perPacketRecvResult 0 n answers = .error error →
        granted n script = [] := by
  rw [StopsCleanly, or_iff_not_imp_right,
    ← @Linux.perPacketRecvResult_fails_iff 0, exists_imp]

theorem RecvLoop.stock_drop_ne (loop : RecvLoop) {n : Nat}
    {script : List (Except Fault Datagram)} (h : granted n script ≠ []) :
    stock (script.drop (consumed n
      (script.map (loop.answer bufSize)))) ≠ stock script := by
  rcases exists_of_granted_ne_nil h with ⟨slots, datagram, rest, rfl, rfl⟩
  obtain ⟨k, hk⟩ : ∃ k, consumed (slots + 1) ((.ok datagram :: rest).map
      (loop.answer bufSize)) = k + 1 := by
    rw [List.map_cons]
    cases loop.answer bufSize (.ok datagram) <;> simp [consumed]
  have hlt := stock_drop_length_lt datagram rest k
  rw [hk]
  intro hsame
  rw [hsame] at hlt
  omega

/-- A failed call of one of the loops took nothing exactly when its script
stops cleanly. -/
theorem RecvLoop.recvFailsCleanly_iff {loop : RecvLoop} (host : Host)
    (batch : RecvBatchRaw bufSize) {os : Os} (h : loop.Taken os) :
    RecvFailsCleanly batch os (loop.call host batch os) ↔
      StopsCleanly batch.capacity os.recvScript
        (os.recvScript.map (loop.answer bufSize)) := by
  obtain ⟨slots, hslots, hcall⟩ := loop.call_eq host batch h
  rw [hcall, perPacketOutcome, stopsCleanly_recv_iff]
  constructor
  · intro clean error herror
    have hqueue := clean.nothing_taken error _ (by rw [herror])
    by_contra hsome
    exact loop.stock_drop_ne hsome hqueue
  · intro hstop
    constructor
    case nothing_taken =>
      intro error batch' hfail
      have hnil := hstop error (by simp_all)
      exact (refused_map (loop.answer_error bufSize) hnil).2
    case same_batch =>
      intro error batch' hfail
      have hnil := hstop error (by simp_all)
      have hnone := (refused_map (loop.answer_error bufSize) hnil).1
      rw [hslots hnil, if_pos hnone, Except.ok.injEq, Prod.mk.injEq] at hfail
      exact hfail.2.symm

def refusingOs : Os :=
  { Linux.failingOs with recvScript := [.error (.hard 111)] }

theorem windows_loop_fails_cleanly :
    RecvFailsCleanly (.withCapacity 2 4) refusingOs
      (RecvLoop.windows.call ⟨.windows, .little⟩ (.withCapacity 2 4)
        refusingOs) :=
  (RecvLoop.recvFailsCleanly_iff ⟨.windows, .little⟩ (.withCapacity 2 4)
    (show RecvLoop.windows.Taken refusingOs from trivial)).mpr (.inl rfl)

theorem RecvLoop.takes_first_datagram {loop : RecvLoop}
    (h : loop.Taken Linux.failingOs) :
    ¬ RecvFailsCleanly (.withCapacity 2 4) Linux.failingOs
      (loop.call ⟨.linux, .little⟩ (.withCapacity 2 4) Linux.failingOs) := by
  obtain ⟨slots, -, hcall⟩ :=
    loop.call_eq ⟨.linux, .little⟩ (.withCapacity 2 4) h
  have hanswers : Linux.failingOs.recvScript.map (loop.answer 4) =
      Linux.failingOs.recvScript := by
    cases loop <;> rfl
  intro clean
  rw [hcall, hanswers] at clean
  have hqueue := clean.nothing_taken (Fault.hard 111).error _ rfl
  simp only [RecvBatchRaw.capacity_withCapacity] at hqueue
  exact absurd hqueue (by decide)

/-- An error behind a datagram in each loop: the call fails, and the datagram is
gone. -/
theorem failed_loops_take_a_datagram :
    ¬ RecvFailsCleanly (.withCapacity 2 4) Linux.failingOs
        (RecvLoop.generic.call ⟨.linux, .little⟩ (.withCapacity 2 4)
          Linux.failingOs) ∧
      ¬ RecvFailsCleanly (.withCapacity 2 4) Linux.failingOs
        (RecvLoop.fallbackRecv.call ⟨.linux, .little⟩ (.withCapacity 2 4)
          Linux.failingOs) ∧
      ¬ RecvFailsCleanly (.withCapacity 2 4) Linux.failingOs
        (RecvLoop.macosRecvfrom.call ⟨.linux, .little⟩ (.withCapacity 2 4)
          Linux.failingOs) ∧
      ¬ RecvFailsCleanly (.withCapacity 2 4) Linux.failingOs
        (RecvLoop.windows.call ⟨.linux, .little⟩ (.withCapacity 2 4)
          Linux.failingOs) :=
  ⟨RecvLoop.takes_first_datagram trivial,
    RecvLoop.takes_first_datagram trivial, RecvLoop.takes_first_datagram rfl,
    RecvLoop.takes_first_datagram trivial⟩

end Receiving

end Binger.Platform
