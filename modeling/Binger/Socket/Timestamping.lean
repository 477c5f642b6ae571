import Binger.Foundation.Runs
import Binger.Platform.PacketMetadata
import Binger.Socket.OptionCalls
import Binger.Socket.Pktinfo

/-!
# Timestamps on request

`enable_timestamping` is one `setsockopt` call, so a call that fails changes
nothing, and in a run with any other option calls in between the option is that
of the last call that succeeded.  A receive through `recvmmsg` shows timestamps
accordingly, for coalesced messages too.  `recvfrom` has no control messages, so
the fallback shows none, also while they are asked for.
-/

namespace Binger.Socket

open Binger.Foundation Binger.Platform Binger.Sockaddr

/-! ## The option -/

def File.timestamps (file : File) : Bool :=
  match file.setting .soTimestampns with
  | some value => value ≠ 0
  | none => false

def asksTimestamps (method : Method) (reply : Reply) : Option Bool :=
  match method, reply with
  | .enableTimestamping enabled, .done (.ok ()) => some enabled
  | _, _ => none

theorem File.timestamps_call (report : SocketOption → Option Int → Int)
    (method : Method) (first second : Except Fault Unit) (file : File) :
    (file.call report method first second).2.timestamps =
      (asksTimestamps method
        (file.call report method first second).1).getD file.timestamps := by
  cases method with
  | enableTimestamping enabled =>
      cases first with
      | error fault => rfl
      | ok _ =>
          simp only [File.call, File.answered, Prod.map_apply, id_eq,
            asksTimestamps, Option.getD_some, timestamps,
            setting_withSetting_self]
          cases enabled <;> rfl
  | _ =>
      rw [timestamps, File.call_setting (by simp [Method.sets])]
      rfl

/-! ## Datagrams under the option -/

def isScmTimestampns : Cmsg → Bool
  | .scmTimestampns _ => true
  | _ => false

theorem lastOf_readTimestamp_isSome (control : List Cmsg) :
    (lastOf readTimestamp control).isSome = control.any isScmTimestampns := by
  induction control with
  | nil => rfl
  | cons cmsg control ih =>
      rw [lastOf_cons, List.any_cons, ← ih]
      cases lastOf readTimestamp control <;> cases cmsg <;>
        simp [readTimestamp, isScmTimestampns]

structure StampedReceive where
  bufSize : Nat
  batch : RecvBatchRaw bufSize
  features : Features
  timestamping : features.timestamping = true
  host : Host
  os : Os

namespace StampedReceive

def outcome (receive : StampedReceive) : RecvOutcome receive.bufSize :=
  (Linux.tryRecvBatch receive.features receive.host receive.batch.clear
    receive.os).1

/-- What the kernel has for the call: every datagram carries a timestamp
exactly when the option is set, and none is coalesced of no bytes. -/
def Carries (receive : StampedReceive) (timestamps : Bool) : Prop :=
  ∀ datagram ∈ Linux.recvDatagrams receive.batch.clear receive.os,
    datagram.control.any isScmTimestampns = timestamps ∧
    (groSize receive.features datagram.control ≠ 0 →
      returned receive.bufSize datagram ≠ [])

instance (receive : StampedReceive) (timestamps : Bool) :
    Decidable (receive.Carries timestamps) :=
  inferInstanceAs (Decidable (∀ datagram ∈ _, _ ∧ _))

def FallsBack (receive : StampedReceive) : Prop :=
  receive.os.hasRecvmmsg = false ∧
    Linux.Completes receive.batch.clear receive.os ∧
    Linux.messages receive.batch.clear receive.os ≠ []

def Shows (receive : StampedReceive) (shown : Prop) : Prop :=
  ∀ n batch', receive.outcome = .ok (.ok n, batch') → ∀ i < n,
    ∃ value, batch'.timestamp i = .ok value ∧ (value.isSome ↔ shown)

theorem metadataOf_timestamps {features : Features} {bufSize : Nat}
    (hfeature : features.timestamping = true) {timestamps : Bool}
    {messages : List Datagram}
    (h : ∀ message ∈ messages,
      message.control.any isScmTimestampns = timestamps) :
    ∀ value ∈ Linux.metadataOf features bufSize messages,
      value.1.isSome = timestamps := by
  intro value hmem
  rw [Linux.metadataOf, carriedAll, List.mem_flatMap] at hmem
  obtain ⟨received, hreceived, hvalue⟩ := hmem
  obtain ⟨message, hmessage, rfl⟩ := List.mem_map.mp hreceived
  rw [List.eq_of_mem_replicate hvalue, carried, if_pos hfeature,
    lastOf_readTimestamp_isSome]
  exact h message hmessage

theorem shows_of_recvmmsg {receive : StampedReceive} {timestamps : Bool}
    (hmmsg : receive.os.hasRecvmmsg = true)
    (h : receive.Carries timestamps) :
    receive.Shows (timestamps = true) := by
  intro n batch' hok i hi
  obtain ⟨value, hvalue, htimestamp, -⟩ := Linux.recvmmsg_metadata hmmsg
    (fun message hmem => (h message hmem).2) hok i hi
  refine ⟨value.1, htimestamp, ?_⟩
  rw [metadataOf_timestamps receive.timestamping
    (fun message hmem => (h message hmem).1) value
    (List.mem_of_getElem? hvalue)]

theorem shows_iff {receive : StampedReceive} {timestamps : Bool}
    (h : receive.Carries timestamps) :
    receive.Shows (timestamps = true) ↔
      (timestamps = true → ¬ receive.FallsBack) := by
  cases hmmsg : receive.os.hasRecvmmsg with
  | true =>
      refine iff_of_true (shows_of_recvmmsg hmmsg h) ?_
      rintro - ⟨hmissing, -⟩
      rw [hmmsg] at hmissing
      cases hmissing
  | false =>
      have hnone : ∀ n batch', receive.outcome = .ok (.ok n, batch') →
          ∀ i < n, batch'.timestamp i = .ok none := by
        intro n batch' hok i hi
        exact ((Linux.enosys_metadata hmmsg hok).2 i hi).1
      have hpos := @Linux.tryRecvBatch_enosys_pos_iff _ receive.features
        receive.host receive.batch.clear receive.os hmmsg
      constructor
      · rintro hshows hasked ⟨-, hsome⟩
        obtain ⟨n, batch', hok, hn⟩ := hpos.mpr hsome
        obtain ⟨value, hvalue, hiff⟩ := hshows n batch' hok 0 hn
        rw [hnone n batch' hok 0 hn] at hvalue
        cases hvalue
        simp [hasked] at hiff
      · intro hback n batch' hok i hi
        refine ⟨none, hnone n batch' hok i hi, ?_⟩
        simp only [Option.isSome_none, Bool.false_eq_true, false_iff]
        intro hasked
        exact hback hasked ⟨hmmsg, hpos.mp ⟨n, batch', hok, by omega⟩⟩

end StampedReceive

/-! ## Sessions -/

inductive TimestampAction where
  | call (method : Method) (first second : Except Fault Unit)
  | receive (receive : StampedReceive)

structure TimestampSession where
  file : File
  lastOk : Option Bool

namespace TimestampSession

def step (report : SocketOption → Option Int → Int)
    (session : TimestampSession) : TimestampAction → Option TimestampSession
  | .call method first second =>
      let (reply, file) := session.file.call report method first second
      some ⟨file, (asksTimestamps method reply).or session.lastOk⟩
  | .receive receive =>
      if receive.Carries session.file.timestamps then some session else none

/-- A call that fails leaves the option as it is, and the packets show
timestamps when the last call that succeeded asked for them. -/
def TellsTruth (report : SocketOption → Option Int → Int)
    (session : TimestampSession) (action : TimestampAction)
    (next : TimestampSession) : Prop :=
  match action with
  | .call method first second =>
      asksTimestamps method
          (session.file.call report method first second).1 = none →
        next.file.timestamps = session.file.timestamps
  | .receive receive => receive.Shows (session.lastOk = some true)

def Through (session : TimestampSession) (action : TimestampAction)
    (_ : TimestampSession) : Prop :=
  match action with
  | .call _ _ _ => True
  | .receive receive => session.lastOk = some true → ¬ receive.FallsBack

def Agrees (session : TimestampSession) : Prop :=
  session.file.timestamps = (session.lastOk == some true)

theorem Agrees.step {report : SocketOption → Option Int → Int}
    {session next : TimestampSession} {action : TimestampAction}
    (agrees : session.Agrees) (h : session.step report action = some next) :
    next.Agrees := by
  cases action with
  | receive receive =>
      rw [TimestampSession.step] at h
      split at h
      · cases h
        exact agrees
      · cases h
  | call method first second =>
      have hcall := session.file.timestamps_call report method first second
      rw [TimestampSession.step] at h
      rcases hresult : session.file.call report method first second with
        ⟨reply, file⟩
      rw [hresult] at h hcall
      cases h
      rw [Agrees, hcall]
      cases hasked : asksTimestamps method reply with
      | none => exact agrees
      | some enabled => cases enabled <;> rfl

theorem Agrees.tellsTruth_iff {report : SocketOption → Option Int → Int}
    {session next : TimestampSession} {action : TimestampAction}
    (agrees : session.Agrees) (h : session.step report action = some next) :
    Through session action next ↔
      TellsTruth report session action next := by
  cases action with
  | receive receive =>
      rw [TimestampSession.step] at h
      split at h
      · next hcarries =>
          have hasked : (session.file.timestamps = true) =
              (session.lastOk = some true) := by
            rw [agrees, beq_iff_eq]
          have hiff := StampedReceive.shows_iff hcarries
          rw [hasked] at hiff
          exact hiff.symm
      · cases h
  | call method first second =>
      refine iff_of_true trivial ?_
      intro hfailed
      have hcall := session.file.timestamps_call report method first second
      rw [hfailed, Option.getD_none] at hcall
      cases h
      exact hcall

end TimestampSession

/--
In a run of option calls and receives, timestamps are shown as the last
`enable_timestamping` that succeeded asked for, exactly when packets do not come
through `recvfrom` while they are asked for.
-/
theorem enableTimestamping_truthful_iff
    (report : SocketOption → Option Int → Int) {file : File}
    (hfile : file.setting .soTimestampns = none)
    (actions : List TimestampAction) :
    EveryStep (TimestampSession.step report) TimestampSession.Through
        ⟨file, none⟩ actions ↔
      EveryStep (TimestampSession.step report)
        (TimestampSession.TellsTruth report) ⟨file, none⟩ actions := by
  have hinit : TimestampSession.Agrees ⟨file, none⟩ := by
    rw [TimestampSession.Agrees, File.timestamps, hfile]
    rfl
  apply EveryStep.congr_of_inv _ _ hinit
  · intro session action next agrees _ h
    exact agrees.step h
  · intro session action next agrees h
    exact agrees.tellsTruth_iff h

def stampedReceive : StampedReceive where
  bufSize := 4
  batch := .withCapacity 2 4
  features := Linux.allFeatures
  timestamping := rfl
  host := ⟨.linux, .little⟩
  os := { Linux.plainOs with
    recvScript := [.ok ⟨[1, 2], Linux.loopbackSource,
      [.udpGro 1, .scmTimestampns ⟨5, 6⟩]⟩] }

def stampedActions : List TimestampAction :=
  [.call (.enableTimestamping true) (.ok ()) (.ok ()),
    .call (.enableTimestamping false) (.error (.hard 1)) (.ok ()),
    .receive stampedReceive]

theorem stamped_packets_tell_truth :
    EveryStep (TimestampSession.step fun _ _ => 0)
      (TimestampSession.TellsTruth fun _ _ => 0)
      ⟨.bound .unspecified, none⟩ stampedActions := by
  apply (enableTimestamping_truthful_iff _ rfl stampedActions).mp
  refine ⟨trivial, trivial, ?_, trivial⟩
  rintro - ⟨hmissing, -⟩
  cases hmissing

end Binger.Socket
