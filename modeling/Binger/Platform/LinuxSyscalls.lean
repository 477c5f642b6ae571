import Binger.Platform.Gro
import Binger.Platform.SendSpec

/-!
# The system calls behind a call on Linux

The Linux backend with a log of the system calls that move datagrams.  The
traced functions return what the functions of the backend return, and the log
has one entry for each time the kernel was entered: none for an empty batch, one
for `sendmmsg`, one for each attempt of `recvmmsg` under `retry_eintr`, and
behind a missing system call one for each packet.
-/

namespace Binger.Platform

open Binger.Foundation Binger.Sockaddr

inductive Syscall where
  | sendmmsg
  | sendto
  | send
  | recvmmsg
  | recvfrom
  deriving DecidableEq, Repr

def Syscall.isSend : Syscall → Bool
  | .sendmmsg | .sendto | .send => true
  | .recvmmsg | .recvfrom => false

structure Traced (α : Type) where
  value : α
  calls : List Syscall

namespace Traced

variable {α : Type}

def after (call : Syscall) (traced : Traced α) : Traced α :=
  { traced with calls := call :: traced.calls }

@[simp] theorem after_value (call : Syscall) (traced : Traced α) :
    (traced.after call).value = traced.value := rfl

@[simp] theorem after_calls (call : Syscall) (traced : Traced α) :
    (traced.after call).calls = call :: traced.calls := rfl

end Traced

/-! ## Sending -/

def rawSendTraced (i : Nat) (data : Slice) (os : Os) :
    Traced (IoResult Nat × Os) :=
  ⟨rawSend i data os, [.send]⟩

def rawSendtoTraced (host : Host) (i : Nat) (data : Slice)
    (addr : SocketAddr) (os : Os) : Traced (IoResult Nat × Os) :=
  ⟨rawSendto host i data addr os, [.sendto]⟩

def perPacketSendTraced (host : Host) (stripped : Bool) :
    List SendSlot → Nat → Nat → Os → Traced (IoResult Nat × Os)
  | [], _, sent, os => ⟨(.ok sent, os), []⟩
  | entry :: entries, i, sent, os =>
      let result :=
        match stripped, entry.addr with
        | true, _ | _, none => rawSendTraced i entry.data os
        | false, some addr => rawSendtoTraced host i entry.data addr os
      match result.value with
      | (.ok _, os) =>
          let rest :=
            perPacketSendTraced host stripped entries (i + 1) (sent + 1) os
          ⟨rest.value, result.calls ++ rest.calls⟩
      | (.error error, os) =>
          if error.kind = .wouldBlock then ⟨(.ok sent, os), result.calls⟩
          else ⟨(.error error, os), result.calls⟩

def packetCall (stripped : Bool) (entry : SendSlot) : Syscall :=
  if stripped || entry.addr.isNone then .send else .sendto

theorem packetCall_isSend (stripped : Bool) (entry : SendSlot) :
    (packetCall stripped entry).isSend = true := by
  rw [packetCall]
  split <;> rfl

theorem perPacketSendTraced_cons (host : Host) (stripped : Bool)
    (entry : SendSlot) (entries : List SendSlot) (i sent : Nat) (os : Os) :
    perPacketSendTraced host stripped (entry :: entries) i sent os =
      match os.offer ⟨i, wholePayload entry,
        perPacketRoute stripped i entry <|> os.peer⟩ with
      | (.ok (), os) =>
          (perPacketSendTraced host stripped entries (i + 1) (sent + 1)
            os).after (packetCall stripped entry)
      | (.error fault, os) =>
          ⟨if fault = .wouldBlock then (.ok sent, os)
            else (.error fault.error, os), [packetCall stripped entry]⟩ := by
  obtain ⟨data, addr⟩ := entry
  cases stripped <;> cases addr <;>
    simp [perPacketSendTraced, rawSendTraced, rawSendtoTraced, rawSend_eq,
      rawSendto_eq, perPacketRoute, wholePayload, packetCall] <;>
    generalize os.offer _ = answer <;>
    obtain ⟨answer | answer, os'⟩ := answer <;>
    simp [wrapped, Traced.after] <;>
    split <;> rfl

theorem perPacketSendTraced_value (host : Host) (stripped : Bool)
    (entries : List SendSlot) (i sent : Nat) (os : Os) :
    (perPacketSendTraced host stripped entries i sent os).value =
      perPacketSend host stripped entries i sent os := by
  induction entries generalizing i sent os with
  | nil => rfl
  | cons entry entries ih =>
      rw [perPacketSendTraced_cons, perPacketSend_cons]
      rcases os.offer _ with ⟨fault | ⟨⟨⟩⟩, os'⟩
      · rfl
      · exact ih _ _ os'

theorem perPacketSendTraced_isSend (host : Host) (stripped : Bool)
    (entries : List SendSlot) (i sent : Nat) (os : Os) :
    ∀ call ∈ (perPacketSendTraced host stripped entries i sent os).calls,
      call.isSend = true := by
  induction entries generalizing i sent os with
  | nil => simp [perPacketSendTraced]
  | cons entry entries ih =>
      rw [perPacketSendTraced_cons]
      split
      · simpa [packetCall_isSend] using ih _ _ _
      · simp [packetCall_isSend]

theorem perPacketSendTraced_length (host : Host) (stripped : Bool)
    (entries : List SendSlot) (i sent : Nat) (os : Os) :
    (perPacketSendTraced host stripped entries i sent os).calls.length =
      questions entries.length os.sendScript := by
  induction entries generalizing i sent os with
  | nil => simp [perPacketSendTraced, questions]
  | cons entry entries ih =>
      rw [perPacketSendTraced_cons, List.length_cons]
      cases hscript : os.sendScript with
      | nil => simp [Os.offer, hscript, ask, questions]
      | cons answer script =>
          cases answer with
          | error fault => simp [Os.offer, hscript, ask, questions]
          | ok value => simp [Os.offer, hscript, ask, questions, ih]

namespace Linux

def fallbackSendTraced (host : Host) (batch : SendBatchRaw) (os : Os) :
    Traced (IoResult Nat × Os) :=
  if batch.len = 0 then ⟨(.ok 0, os), []⟩
  else perPacketSendTraced host os.isConnected batch.entries 0 0 os

def trySendBatchTraced (host : Host) (batch : SendBatchRaw) (os : Os) :
    Traced (IoResult Nat × Os) :=
  if batch.len = 0 then ⟨(.ok 0, os), []⟩
  else
    let headers := sendHeaders host batch
    match sendmmsg (headers.messages host os.peer (vlen batch.len)) os with
    | (.ok sent, os) => ⟨(.ok sent, os), [.sendmmsg]⟩
    | (.error error, os) =>
        if error.rawOsError = some .enosys then
          (fallbackSendTraced host batch os).after .sendmmsg
        else ⟨(.error error, os), [.sendmmsg]⟩

theorem fallbackSendTraced_value (host : Host) (batch : SendBatchRaw)
    (os : Os) :
    (fallbackSendTraced host batch os).value = fallbackSend host batch os := by
  rw [fallbackSendTraced, fallbackSend]
  split
  · rfl
  · exact perPacketSendTraced_value host _ _ _ _ os

theorem trySendBatchTraced_value (host : Host) (batch : SendBatchRaw)
    (os : Os) :
    (trySendBatchTraced host batch os).value = trySendBatch host batch os := by
  unfold trySendBatchTraced trySendBatch
  split
  · rfl
  · dsimp only
    rcases sendmmsg _ os with ⟨error | sent, os'⟩
    · dsimp only
      split
      · exact fallbackSendTraced_value host batch os'
      · rfl
    · rfl

theorem trySendBatchTraced_isSend (host : Host) (batch : SendBatchRaw)
    (os : Os) :
    ∀ call ∈ (trySendBatchTraced host batch os).calls,
      call.isSend = true := by
  rw [trySendBatchTraced]
  split
  · simp
  · dsimp only
    split
    · simp [Syscall.isSend]
    · split
      · simp only [Traced.after_calls, List.forall_mem_cons]
        refine ⟨rfl, ?_⟩
        rw [fallbackSendTraced]
        split
        · simp
        · exact perPacketSendTraced_isSend host _ _ _ _ _
      · simp [Syscall.isSend]

theorem trySendBatchTraced_length (host : Host) (batch : SendBatchRaw)
    (os : Os) :
    (trySendBatchTraced host batch os).calls.length =
      if batch.len = 0 then 0
      else if os.hasSendmmsg then 1
      else 1 + questions batch.len os.sendScript := by
  rw [trySendBatchTraced]
  split
  · rfl
  · next hlen =>
      cases h : os.hasSendmmsg with
      | true =>
          simp only [sendmmsg_eq h, if_true]
          split
          · rfl
          · next error os' hcall =>
              rw [if_neg (batchedResult_rawOsError (Prod.mk.inj hcall).1)]
              rfl
      | false =>
          have hcall : ∀ messages, sendmmsg messages os =
              (.error (.os .enosys), os) := by
            simp [sendmmsg, h]
          simp [hcall, IoError.rawOsError, fallbackSendTraced, hlen,
            perPacketSendTraced_length, Nat.add_comm]

end Linux

/-! ## Receiving -/

section Receiving

variable {bufSize : Nat}

def retryEintrTraced {α : Type} (syscall : Syscall)
    (call : Os → IoResult α × Os) (measure : Os → Nat)
    (decreases : ∀ os os' error, call os = (.error error, os') →
      error.kind = .interrupted → measure os' < measure os) (os : Os) :
    Traced (IoResult α × Os) :=
  match _h : call os with
  | (.ok n, os') => ⟨(.ok n, os'), [syscall]⟩
  | (.error error, os') =>
      if _h : error.kind = .interrupted then
        (retryEintrTraced syscall call measure decreases os').after syscall
      else ⟨(.error error, os'), [syscall]⟩
termination_by measure os
decreasing_by exact decreases _ _ _ ‹_› ‹_›

def rawRecvfromTraced (host : Host) (bufSize : Nat) (os : Os) :
    Traced (IoResult (List UInt8 × SocketAddr) × Os) :=
  ⟨rawRecvfrom host bufSize os, [.recvfrom]⟩

def perPacketRecvTraced (host : Host) :
    Nat → Nat → Nat → RecvBatchRaw bufSize → Os →
      Traced (RecvOutcome bufSize × Os)
  | 0, _, received, batch, os => ⟨(.ok (.ok received, batch), os), []⟩
  | slots + 1, i, received, batch, os =>
      let result := rawRecvfromTraced host bufSize os
      match result.value with
      | (.ok (bytes, addr), os) =>
          match storeDatagram i bytes addr batch with
          | .ok batch =>
              let rest := perPacketRecvTraced host slots (i + 1)
                (received + 1) batch os
              ⟨rest.value, result.calls ++ rest.calls⟩
          | .error panic => ⟨(.error panic, os), result.calls⟩
      | (.error error, os) =>
          if error.kind = .wouldBlock then
            ⟨(.ok (.ok received, batch), os), result.calls⟩
          else ⟨(.ok (.error error, batch), os), result.calls⟩

section RetryEintr

variable {α : Type} (syscall : Syscall) (call : Os → IoResult α × Os)
  (measure : Os → Nat)
  (decreases : ∀ os os' error, call os = (.error error, os') →
    error.kind = .interrupted → measure os' < measure os)

theorem retryEintrTraced_value (os : Os) :
    (retryEintrTraced syscall call measure decreases os).value =
      retryEintr call measure decreases os := by
  fun_induction retryEintrTraced syscall call measure decreases os with
  | case1 os n os' hcall =>
      rw [retryEintr_of_done _ _ _ (by simp [hcall]), hcall]
  | case2 os error os' hcall hkind ih =>
      rw [retryEintr_of_interrupted _ _ _ hcall hkind]
      exact ih
  | case3 os error os' hcall hkind =>
      rw [retryEintr_of_done _ _ _ (by simpa [hcall] using hkind), hcall]

theorem retryEintrTraced_of_interrupted {os os' : Os} {error : IoError}
    (h : call os = (.error error, os')) (hkind : error.kind = .interrupted) :
    retryEintrTraced syscall call measure decreases os =
      (retryEintrTraced syscall call measure decreases os').after syscall := by
  rw [retryEintrTraced]
  split
  · simp_all
  · next error' os'' hcall =>
      obtain ⟨rfl, rfl⟩ : error' = error ∧ os'' = os' := by simp_all
      rw [dif_pos hkind]

theorem retryEintrTraced_of_done {os : Os}
    (h : ∀ error os', call os = (.error error, os') →
      error.kind ≠ .interrupted) :
    (retryEintrTraced syscall call measure decreases os).calls =
      [syscall] := by
  rw [retryEintrTraced]
  split
  · rfl
  · next error os' hcall => rw [dif_neg (h error os' hcall)]

def interruptions {β : Type} (n : Nat) (script : List (Except Fault β)) :
    Nat :=
  if n = 0 then 0 else (script.takeWhile isInterrupted).length

theorem interruptions_eq_zero_iff {β : Type} {n : Nat} (hn : n ≠ 0)
    {script : List (Except Fault β)} :
    interruptions n script = 0 ↔
      (ask .wouldBlock script).1 ≠ .error .interrupted := by
  rcases script with - | ⟨(- | - | code) | value, script⟩ <;>
    simp [interruptions, hn, ask, isInterrupted, List.takeWhile_cons]

variable {call}

theorem retryEintrTraced_calls {β : Type} {supported : Os → Prop} {n : Nat}
    {get : Os → List (Except Fault β)}
    {put : Os → List (Except Fault β) → Os}
    (asks : AsksScript call supported n get put) {os : Os}
    (hos : supported os) :
    (retryEintrTraced syscall call measure decreases os).calls =
      List.replicate (interruptions n (get os) + 1) syscall := by
  rcases Nat.eq_zero_or_pos n with rfl | hn
  · rw [retryEintrTraced_of_done _ _ _ _ (asks.done os hos (by simp))]
    simp [interruptions]
  · have hne : n ≠ 0 := by omega
    generalize hscript : get os = script
    induction script generalizing os with
    | nil =>
        rw [retryEintrTraced_of_done _ _ _ _
          (asks.done os hos (by simp [hscript]))]
        simp [interruptions]
    | cons answer script ih =>
        cases hanswer : isInterrupted answer with
        | true =>
            obtain rfl : answer = .error .interrupted := by
              unfold isInterrupted at hanswer
              split at hanswer <;> simp_all
            have hrest := ih (asks.supported_put os script hos)
              (asks.get_put os script)
            rw [retryEintrTraced_of_interrupted _ _ _ _
              (asks.interrupted hn os script hos hscript) rfl,
              Traced.after_calls, hrest]
            simp [interruptions, hne, isInterrupted, List.takeWhile_cons,
              List.replicate_succ]
        | false =>
            rw [retryEintrTraced_of_done]
            · simp [interruptions, hanswer]
            · refine asks.done os hos fun _ rest hrest => ?_
              rw [hscript, List.cons.injEq] at hrest
              simp [hrest.1, isInterrupted] at hanswer

end RetryEintr

theorem perPacketRecvTraced_value (host : Host) (slots i received : Nat)
    (batch : RecvBatchRaw bufSize) (os : Os) :
    (perPacketRecvTraced host slots i received batch os).value =
      perPacketRecv host slots i received batch os := by
  induction slots generalizing i received batch os with
  | zero => rfl
  | succ slots ih =>
      rw [perPacketRecvTraced, perPacketRecv]
      dsimp only [rawRecvfromTraced]
      rcases rawRecvfrom host bufSize os with ⟨error | ⟨bytes, addr⟩, os'⟩
      · dsimp only
        split <;> rfl
      · dsimp only
        cases storeDatagram i bytes addr batch with
        | ok batch' => exact ih _ _ _ _
        | error panic => rfl

theorem perPacketRecvTraced_calls (host : Host)
    (slots before : List (RecvSlot bufSize)) (received len : Nat) (os : Os) :
    (perPacketRecvTraced host slots.length before.length received
        ⟨before ++ slots, len⟩ os).calls =
      List.replicate (questions slots.length os.recvScript) .recvfrom := by
  induction slots generalizing before received len os with
  | nil => rfl
  | cons slot slots ih =>
      rw [List.length_cons, perPacketRecvTraced]
      dsimp only [rawRecvfromTraced]
      rw [rawRecvfrom_eq]
      cases hscript : os.recvScript with
      | nil => simp [Os.receive, hscript, ask, questions]
      | cons answer script =>
          cases answer with
          | error fault =>
              simp only [Os.receive, hscript, ask, questions]
              split <;> rfl
          | ok datagram =>
              have htail := ih (before ++ [datagramSlot datagram slot])
                (received + 1) (before.length + 1)
                { os with recvScript := script }
              simp only [List.append_assoc, List.cons_append, List.nil_append,
                List.length_append, List.length_cons, List.length_nil,
                Nat.zero_add] at htail
              simp only [Os.receive, hscript, ask, storeDatagram_eq, htail,
                questions, List.replicate_succ]
              rfl

namespace Linux

def fallbackRecvTraced (host : Host) (batch : RecvBatchRaw bufSize)
    (os : Os) : Traced (RecvOutcome bufSize × Os) :=
  perPacketRecvTraced host batch.capacity 0 0 batch os

theorem recvmmsg_decreases (host : Host) (headers : RecvHeaders)
    (batch : RecvBatchRaw bufSize) (count : Nat) (os os' : Os)
    (error : IoError)
    (h : recvmmsg host headers batch count os = (.error error, os'))
    (hkind : error.kind = .interrupted) :
    os'.recvScript.length < os.recvScript.length :=
  recvmmsg_interrupted h hkind

def tryRecvBatchTraced (features : Features) (host : Host)
    (batch : RecvBatchRaw bufSize) (os : Os) :
    Traced (RecvOutcome bufSize × Os) :=
  let capacity := batch.capacity
  if capacity = 0 then ⟨(.ok (.ok 0, batch), os), []⟩
  else
    let headers := recvHeaders bufSize capacity
    let count := vlen capacity
    let result := retryEintrTraced .recvmmsg
      (recvmmsg host headers batch count)
      (fun os => os.recvScript.length)
      (recvmmsg_decreases host headers batch count) os
    match result.value with
    | (.ok (n, headers, batch), os) =>
        ⟨(output features host n headers batch, os), result.calls⟩
    | (.error error, os) =>
        if error.rawOsError = some .enosys then
          let rest := fallbackRecvTraced host batch os
          ⟨rest.value, result.calls ++ rest.calls⟩
        else ⟨(.ok (.error error, batch), os), result.calls⟩

theorem tryRecvBatchTraced_value (features : Features) (host : Host)
    (batch : RecvBatchRaw bufSize) (os : Os) :
    (tryRecvBatchTraced features host batch os).value =
      tryRecvBatch features host batch os := by
  unfold tryRecvBatchTraced tryRecvBatch
  dsimp only
  split
  · rfl
  · rw [retryEintrTraced_value]
    rcases retryEintr _ _ _ os with ⟨error | ⟨n, headers, batch'⟩, os'⟩
    · dsimp only
      split
      · exact perPacketRecvTraced_value host batch.capacity 0 0 batch os'
      · rfl
    · rfl

theorem tryRecvBatchTraced_calls (features : Features) (host : Host)
    (batch : RecvBatchRaw bufSize) (os : Os) :
    (tryRecvBatchTraced features host batch os).calls =
      if batch.capacity = 0 then []
      else if os.hasRecvmmsg then
        List.replicate (interruptions (vlen batch.capacity) os.recvScript + 1)
          .recvmmsg
      else .recvmmsg ::
        List.replicate (questions batch.capacity os.recvScript) .recvfrom := by
  unfold tryRecvBatchTraced
  dsimp only
  split
  · rfl
  · next hcap =>
      cases h : os.hasRecvmmsg with
      | true =>
          have asks := recvmmsg_asksScript host
            (recvHeaders bufSize batch.capacity) batch (vlen batch.capacity)
          simp only [retryEintrTraced_calls .recvmmsg _ _ asks h,
            retryEintrTraced_value, retryEintr_eq _ _ asks h, recvmmsg, h,
            if_true, recvMessages_eq]
          cases recvManyResult (vlen batch.capacity)
              (skipInterrupted (vlen batch.capacity) os.recvScript) with
          | error fault => simp
          | ok datagrams => rfl
      | false =>
          have hcall : recvmmsg host (recvHeaders bufSize batch.capacity) batch
              (vlen batch.capacity) os = (.error (.os .enosys), os) := by
            simp [recvmmsg, h]
          have hdone : ∀ error os', recvmmsg host
              (recvHeaders bufSize batch.capacity) batch (vlen batch.capacity)
              os = (.error error, os') → error.kind ≠ .interrupted := by
            simp [hcall, IoError.kind]
          have hrest := perPacketRecvTraced_calls host batch.slots [] 0
            batch.len os
          simp only [retryEintrTraced_value, retryEintr_of_done _ _ _ hdone,
            retryEintrTraced_of_done _ _ _ _ hdone, hcall, IoError.rawOsError,
            if_true, fallbackRecvTraced]
          exact congrArg (List.cons _) hrest

end Linux

end Receiving

end Binger.Platform
