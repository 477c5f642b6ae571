import Binger.Socket.State

/-!
# Sending through the socket

`send_batch` submits the whole batch again after every attempt that was not
ready.  Two properties are at stake: that nothing is sent twice, which holds
for every backend, and that a successful call sent everything, which holds
exactly as long as the kernel does not stop between two packets.
-/

namespace Binger.Socket

open Binger.Foundation Binger.Platform Binger.Sockaddr

namespace BingerUdp

def trySendBatch (socket : BingerUdp) (batch : SendBatchRaw) (os : Os) :
    IoResult Nat × BingerUdp × Os :=
  match Platform.trySendBatch socket.backend socket.host batch os with
  | (.error error, os) =>
      (.error error,
        { socket with metrics := socket.metrics.map (countSendError error) },
        os)
  | (.ok sent, os) =>
      (.ok sent,
        { socket with
          adaptiveSend := socket.adaptiveSend.map AdaptiveState.recordEvent
          metrics := socket.metrics.map (countSent sent) },
        os)

def noteSendWouldBlock (now : Nat) (socket : BingerUdp) : BingerUdp :=
  { socket with
    adaptiveSend := socket.adaptiveSend.map fun state =>
      state.recordWouldBlock.maybeAdjust now }

/-- `send_batch` under a list of waits.  A list that ran out leaves the call
pending behind its last attempt. -/
def sendBatch (batch : SendBatchRaw) :
    List Wait → BingerUdp → Os → Poll (IoResult Nat) × BingerUdp × Os
  | waits, socket, os =>
      match socket.trySendBatch batch os with
      | (result, socket, os) =>
          match sendArm result, waits with
          | some result, _ => (.ready result, socket, os)
          | none, [] => (.pending, socket, os)
          | none, wait :: waits =>
              let socket := socket.noteSendWouldBlock wait.now
              if socket.tokio then
                match wait.outcome with
                | .ok () => sendBatch batch waits socket os
                | .error error => (.ready (.error error), socket, os)
              else (.ready (.error tokioDisabled), socket, os)

/-- `SendBatchRaw::with_capacity(1)` after a `push`. -/
def singleBatch (buf : Slice) (addr : SocketAddr) : SendBatchRaw :=
  .ofEntries [⟨buf, some addr⟩]

theorem push_singleBatch (buf : Slice) (addr : SocketAddr) :
    (SendBatchRaw.withCapacity 1).push buf (some addr) =
      .ok (singleBatch buf addr) := rfl

def trySendTo (socket : BingerUdp) (buf : Slice) (addr : SocketAddr)
    (os : Os) : IoResult Nat × BingerUdp × Os :=
  match socket.trySendBatch (singleBatch buf addr) os with
  | (.ok _, socket, os) => (.ok buf.bytes.length, socket, os)
  | (.error error, socket, os) => (.error error, socket, os)

def sendTo (buf : Slice) (addr : SocketAddr) (waits : List Wait)
    (socket : BingerUdp) (os : Os) :
    Poll (IoResult Nat) × BingerUdp × Os :=
  match sendBatch (singleBatch buf addr) waits socket os with
  | (.ready (.ok _), socket, os) => (.ready (.ok buf.bytes.length), socket, os)
  | (poll, socket, os) => (poll, socket, os)

end BingerUdp

/-! ## The retry loop over scripts -/

/-- `send_batch` on the answers of the kernel alone: its outcome and the number
of entries accepted by the attempt that ended it. -/
def sendLoop (path : SendPath) (tokio : Bool) (len : Nat) :
    List Wait → List (Except Fault Unit) → Poll (IoResult Nat) × Nat
  | waits, script =>
      let done := attempt path len script
      match sendArm done.result, waits with
      | some result, _ => (.ready result, done.accepted)
      | none, [] => (.pending, 0)
      | none, wait :: waits =>
          if tokio then
            match wait.outcome with
            | .ok () => sendLoop path tokio len waits done.rest
            | .error error => (.ready (.error error), 0)
          else (.ready (.error tokioDisabled), 0)

theorem sendArm_eq_none_iff {result : IoResult Nat} :
    sendArm result = none ↔
      ∃ error, result = .error error ∧ error.kind = .wouldBlock := by
  cases result <;> simp [sendArm]

theorem sendArm_eq_some {result result' : IoResult Nat}
    (h : sendArm result = some result') : result = result' := by
  cases result with
  | ok n => simpa [sendArm] using h
  | error error =>
      rw [sendArm] at h
      split at h
      · cases h
      · exact Option.some.inj h

theorem attempt_accepted_of_wait {path : SendPath} {len : Nat}
    {script : List (Except Fault Unit)}
    (h : sendArm (attempt path len script).result = none) :
    (attempt path len script).accepted = 0 := by
  obtain ⟨error, herror, hkind⟩ := sendArm_eq_none_iff.mp h
  exact attempt_wouldBlock path len script herror hkind

section Loop

variable {path : SendPath} {tokio : Bool} {len : Nat}
  {script : List (Except Fault Unit)}

theorem sendLoop_of_done (waits : List Wait) {result : IoResult Nat}
    (h : sendArm (attempt path len script).result = some result) :
    sendLoop path tokio len waits script =
      (.ready result, (attempt path len script).accepted) := by
  cases waits <;> simp [sendLoop, h]

theorem sendLoop_nil_of_wait
    (h : sendArm (attempt path len script).result = none) :
    sendLoop path tokio len [] script = (.pending, 0) := by
  simp [sendLoop, h]

theorem sendLoop_cons_of_wait (wait : Wait) (waits : List Wait)
    (h : sendArm (attempt path len script).result = none) :
    sendLoop path tokio len (wait :: waits) script =
      if tokio then
        match wait.outcome with
        | .ok () =>
            sendLoop path tokio len waits (attempt path len script).rest
        | .error error => (.ready (.error error), 0)
      else (.ready (.error tokioDisabled), 0) := by
  simp [sendLoop, h]

end Loop

theorem sendLoop_accepted_le (path : SendPath) (tokio : Bool) (len : Nat)
    (waits : List Wait) (script : List (Except Fault Unit)) :
    (sendLoop path tokio len waits script).2 ≤ len := by
  induction waits generalizing script with
  | nil =>
      cases harm : sendArm (attempt path len script).result with
      | none => simp [sendLoop_nil_of_wait harm]
      | some result =>
          rw [sendLoop_of_done [] harm]
          exact attempt_accepted_le path len script
  | cons wait waits ih =>
      cases harm : sendArm (attempt path len script).result with
      | none =>
          rw [sendLoop_cons_of_wait wait waits harm]
          split
          · split
            · exact ih _
            · exact Nat.zero_le len
          · exact Nat.zero_le len
      | some result =>
          rw [sendLoop_of_done _ harm]
          exact attempt_accepted_le path len script

namespace BingerUdp

theorem trySendBatch_performs (socket : BingerUdp) (batch : SendBatchRaw)
    (os : Os) :
    ∃ socket' os',
      socket.trySendBatch batch os =
        ((attempt (sendPath socket.backend os) batch.len os.sendScript).result,
          socket', os') ∧
      socket'.backend = socket.backend ∧ socket'.tokio = socket.tokio ∧
      Performs socket.backend batch os
        ((attempt (sendPath socket.backend os) batch.len os.sendScript).result,
          os')
        (attempt (sendPath socket.backend os) batch.len os.sendScript) := by
  have performs := Platform.trySendBatch_performs socket.backend socket.host
    batch os
  unfold trySendBatch
  rcases hcall : Platform.trySendBatch socket.backend socket.host batch os with
    ⟨error | sent, os'⟩
  all_goals
    rw [hcall] at performs
    have hresult := performs.result
    simp only [← hresult]
    exact ⟨_, _, rfl, rfl, rfl, performs⟩

theorem performs_of_trySendBatch {socket socket' : BingerUdp}
    {batch : SendBatchRaw} {os os' : Os} {result : IoResult Nat}
    (h : socket.trySendBatch batch os = (result, socket', os')) :
    result = (attempt (sendPath socket.backend os) batch.len
        os.sendScript).result ∧
      socket'.backend = socket.backend ∧ socket'.tokio = socket.tokio ∧
      Performs socket.backend batch os (result, os')
        (attempt (sendPath socket.backend os) batch.len os.sendScript) := by
  rcases socket.trySendBatch_performs batch os with
    ⟨socket₁, os₁, hcall, hbackend, htokio, performs⟩
  rw [h] at hcall
  cases hcall
  exact ⟨rfl, hbackend, htokio, performs⟩

@[simp] theorem noteSendWouldBlock_backend (now : Nat) (socket : BingerUdp) :
    (socket.noteSendWouldBlock now).backend = socket.backend := rfl

@[simp] theorem noteSendWouldBlock_tokio (now : Nat) (socket : BingerUdp) :
    (socket.noteSendWouldBlock now).tokio = socket.tokio := rfl

theorem sendBatch_of_done {batch : SendBatchRaw} {waits : List Wait}
    {socket socket' : BingerUdp} {os os' : Os} {tried result : IoResult Nat}
    (hcall : socket.trySendBatch batch os = (tried, socket', os'))
    (harm : sendArm tried = some result) :
    sendBatch batch waits socket os = (.ready result, socket', os') := by
  rw [sendBatch]
  simp only [hcall, harm]

theorem sendBatch_cons_of_wait {batch : SendBatchRaw} {wait : Wait}
    {waits : List Wait} {socket socket' : BingerUdp} {os os' : Os}
    {result : IoResult Nat}
    (hcall : socket.trySendBatch batch os = (result, socket', os'))
    (harm : sendArm result = none) :
    sendBatch batch (wait :: waits) socket os =
      if socket'.tokio then
        match wait.outcome with
        | .ok () =>
            sendBatch batch waits (socket'.noteSendWouldBlock wait.now) os'
        | .error error =>
            (.ready (.error error), socket'.noteSendWouldBlock wait.now, os')
      else
        (.ready (.error tokioDisabled), socket'.noteSendWouldBlock wait.now,
          os') := by
  rw [sendBatch]
  simp only [hcall, harm, noteSendWouldBlock_tokio]

theorem sendBatch_rule {batch : SendBatchRaw} {result : IoResult Nat}
    {socket' : BingerUdp} {os' : Os}
    {motive : List Wait → BingerUdp → Os → Prop}
    (ends : ∀ waits socket os,
      socket.trySendBatch batch os = (result, socket', os') →
      sendArm result = some result → motive waits socket os)
    (stops : ∀ wait waits socket os tried socket₁ error,
      socket.trySendBatch batch os = (tried, socket₁, os') →
      sendArm tried = none → socket' = socket₁.noteSendWouldBlock wait.now →
      result = .error error →
      (socket₁.tokio = false ∨ wait.outcome = .error error) →
      motive (wait :: waits) socket os)
    (goes : ∀ wait waits socket os tried socket₁ os₁,
      socket.trySendBatch batch os = (tried, socket₁, os₁) →
      sendArm tried = none → socket₁.tokio = true → wait.outcome = .ok () →
      motive waits (socket₁.noteSendWouldBlock wait.now) os₁ →
      motive (wait :: waits) socket os)
    {waits : List Wait} {socket : BingerUdp} {os : Os}
    (h : sendBatch batch waits socket os = (.ready result, socket', os')) :
    motive waits socket os := by
  induction waits generalizing socket os with
  | nil =>
      rcases hcall : socket.trySendBatch batch os with ⟨tried, socket₁, os₁⟩
      cases harm : sendArm tried with
      | none =>
          rw [sendBatch, hcall] at h
          simp [harm] at h
      | some final =>
          obtain rfl := sendArm_eq_some harm
          rw [sendBatch_of_done hcall harm] at h
          cases h
          exact ends [] socket os hcall harm
  | cons wait waits ih =>
      rcases hcall : socket.trySendBatch batch os with ⟨tried, socket₁, os₁⟩
      cases harm : sendArm tried with
      | none =>
          rw [sendBatch_cons_of_wait hcall harm] at h
          split at h
          · next htokio =>
              split at h
              · next houtcome =>
                  exact goes wait waits socket os _ _ _ hcall harm htokio
                    houtcome (ih h)
              · next error houtcome =>
                  cases h
                  exact stops wait waits socket os _ _ _ hcall harm rfl rfl
                    (.inr houtcome)
          · next htokio =>
              cases h
              exact stops wait waits socket os _ _ _ hcall harm rfl rfl
                (.inl (Bool.eq_false_iff.mpr htokio))
      | some final =>
          obtain rfl := sendArm_eq_some harm
          rw [sendBatch_of_done hcall harm] at h
          cases h
          exact ends _ socket os hcall harm

/-- The outcome of `send_batch` and the datagrams it got accepted are those of
the loop over scripts. -/
theorem sendBatch_refines (batch : SendBatchRaw) (waits : List Wait)
    (socket : BingerUdp) (os : Os) :
    (sendBatch batch waits socket os).1 =
      (sendLoop (sendPath socket.backend os) socket.tokio batch.len waits
        os.sendScript).1 ∧
    ∃ accepted, (sendBatch batch waits socket os).2.2.wire =
        os.wire ++ accepted ∧
      accepted.map Sent.item = (items socket.backend batch).take
        (sendLoop (sendPath socket.backend os) socket.tokio batch.len waits
          os.sendScript).2 := by
  induction waits generalizing socket os with
  | nil =>
      obtain ⟨socket', os', hcall, -, -, performs⟩ :=
        socket.trySendBatch_performs batch os
      cases harm : sendArm (attempt (sendPath socket.backend os) batch.len
          os.sendScript).result with
      | none =>
          have hnone := attempt_accepted_of_wait harm
          have hwire := performs.wire
          rw [hnone] at hwire
          simpa [sendBatch, hcall, harm, sendLoop_nil_of_wait harm] using hwire
      | some result =>
          simpa [sendBatch, hcall, harm, sendLoop_of_done _ harm] using
            performs.wire
  | cons wait waits ih =>
      obtain ⟨socket', os', hcall, hbackend, htokio, performs⟩ :=
        socket.trySendBatch_performs batch os
      cases harm : sendArm (attempt (sendPath socket.backend os) batch.len
          os.sendScript).result with
      | none =>
          have hwire : os'.wire = os.wire := by
            obtain ⟨accepted, hwire, hitems⟩ := performs.wire
            rw [attempt_accepted_of_wait harm, List.take_zero,
              List.map_eq_nil_iff] at hitems
            simpa [hitems] using hwire
          have hscript : os'.sendScript = _ := performs.script
          have hpath : sendPath socket.backend os' = _ := performs.path
          have hrest := ih (socket'.noteSendWouldBlock wait.now) os'
          rw [noteSendWouldBlock_backend, noteSendWouldBlock_tokio, hbackend,
            htokio, hscript, hpath, hwire] at hrest
          rw [sendLoop_cons_of_wait wait waits harm]
          rw [sendBatch_cons_of_wait hcall harm, htokio]
          split
          · split
            · exact hrest
            · simp [hwire]
          · simp [hwire]
      | some result =>
          simpa [sendBatch, hcall, harm, sendLoop_of_done _ harm] using
            performs.wire

end BingerUdp

end Binger.Socket
