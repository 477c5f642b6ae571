import Binger.Socket.Options

/-!
# What construction, calls and release do to a file

Seen from the file behind its descriptor, `from_std` either configures the file
or gives it up, a method makes at most two changes to it, and it is closed once
when the socket is dropped, with and without tokio.
-/

namespace Binger.Socket

open Binger.Platform Binger.Sockaddr

/-! ## One file -/

def File.answered {α : Type} (answer : Except Fault Unit) (value : α)
    (next file : File) : IoResult α × File :=
  match answer with
  | .ok () => (.ok value, next)
  | .error fault => (.error fault.error, file)

def File.withSetting (file : File) (option : SocketOption) (value : Int) :
    File :=
  { file with settings := (option, value) :: file.settings }

def File.call (report : SocketOption → Option Int → Int) (method : Method)
    (first second : Except Fault Unit) (file : File) : Reply × File :=
  match method with
  | .connect addr =>
      Prod.map .done id
        (File.answered first () { file with peer := some addr } file)
  | .localAddr =>
      Prod.map .addr id (File.answered first file.localAddr file file)
  | .ttl =>
      Prod.map .ttl id
        (File.answered first (asU32 (report .ipTtl (file.setting .ipTtl)))
          file file)
  | .setTtl ttl =>
      Prod.map .done id (File.answered first ()
        (file.withSetting .ipTtl (asCInt ttl.toNat)) file)
  | .setGso enabled =>
      Prod.map .done id (File.answered first ()
        (file.withSetting .udpSegment (ofFlag enabled)) file)
  | .setGro enabled =>
      Prod.map .done id (File.answered first ()
        (file.withSetting .udpGro (ofFlag enabled)) file)
  | .setPacingRate rate =>
      Prod.map .done id (File.answered first ()
        (file.withSetting .soMaxPacingRate rate.toNat) file)
  | .setBusyPoll usecs =>
      Prod.map .done id (File.answered first ()
        (file.withSetting .soBusyPoll (asCInt usecs.toNat)) file)
  | .enableTimestamping enabled =>
      Prod.map .done id (File.answered first ()
        (file.withSetting .soTimestampns (ofFlag enabled)) file)
  | .enablePktinfo enabled =>
      match first with
      | .error fault => (.done (.error fault.error), file)
      | .ok () =>
          let file := file.withSetting .ipPktinfo (ofFlag enabled)
          Prod.map .done id (File.answered second ()
            (file.withSetting .ipv6Recvpktinfo (ofFlag enabled)) file)

def Setup.answers (build : Build) (config : Config) (setup : Setup) :
    List (Except Fault Unit) :=
  setup.setNonblocking ::
    (config.sendBufSize.map fun _ => setup.sndbuf).toList ++
    (config.recvOsBufSize.map fun _ => setup.rcvbuf).toList ++
    if build.tokio then [setup.register] else []

def firstRefusal : List (Except Fault Unit) → Option Fault
  | [] => none
  | .error fault :: _ => some fault
  | .ok () :: answers => firstRefusal answers

def bufSetting (option : SocketOption) (size : Option Nat) :
    List (SocketOption × Int) :=
  (size.map fun size => (option, asCInt size)).toList

def File.configured (config : Config) (file : File) : File :=
  { file with
    nonblocking := true
    settings := bufSetting .soRcvbuf config.recvOsBufSize ++
      bufSetting .soSndbuf config.sendBufSize ++ file.settings }

namespace Descriptors

def withFile (descriptors : Descriptors) (fd : Fd) (file : Option File) :
    Descriptors :=
  { descriptors with files := Function.update descriptors.files fd file }

variable {descriptors : Descriptors} {fd : Fd} {file : File}

@[simp] theorem withFile_self (descriptors : Descriptors) (fd : Fd)
    (file : Option File) : (descriptors.withFile fd file).files fd = file :=
  Function.update_self ..

@[simp] theorem withFile_withFile (descriptors : Descriptors) (fd : Fd)
    (first second : Option File) :
    (descriptors.withFile fd first).withFile fd second =
      descriptors.withFile fd second := by
  simp [withFile]

theorem withFile_eq_self (h : descriptors.files fd = some file) :
    descriptors.withFile fd (some file) = descriptors := by
  rw [withFile, ← h, Function.update_eq_self]

theorem onFile_eq {α : Type} (h : descriptors.files fd = some file)
    (call : File → IoResult α × File) :
    descriptors.onFile fd call =
      ((call file).1, descriptors.withFile fd (some (call file).2)) := by
  rw [onFile, h]
  rfl

theorem closeFd_eq (h : descriptors.files fd = some file) :
    descriptors.closeFd fd = descriptors.withFile fd none := by
  rw [closeFd, h]
  rfl

@[simp] theorem closeFd_withFile (descriptors : Descriptors) (fd : Fd)
    (file : File) :
    (descriptors.withFile fd (some file)).closeFd fd =
      descriptors.withFile fd none := by
  rw [closeFd_eq (withFile_self descriptors fd (some file)), withFile_withFile]

end Descriptors

open Descriptors

/-! ## The calls -/

section Calls

variable {descriptors : Descriptors} {fd : Fd} {file : File}

theorem applyBufSize_eq (h : descriptors.files fd = some file)
    (option : SocketOption) (size : Option Nat)
    (answer : Except Fault Unit) :
    applyBufSize fd option size answer descriptors =
      match firstRefusal (size.map fun _ => answer).toList with
      | none => (.ok (), descriptors.withFile fd (some { file with
          settings := bufSetting option size ++ file.settings }))
      | some fault => (.error fault.error, descriptors) := by
  cases size with
  | none => simp [applyBufSize, firstRefusal, bufSetting, withFile_eq_self h]
  | some size =>
      rw [applyBufSize, rawSetsockopt, onFile_eq h]
      cases answer with
      | ok _ => rfl
      | error fault =>
          simp only [File.setsockopt, Option.map_some, Option.toList_some,
            firstRefusal, withFile_eq_self h]

theorem firstRefusal_append (first second : List (Except Fault Unit)) :
    firstRefusal (first ++ second) =
      (firstRefusal first).or (firstRefusal second) := by
  induction first with
  | nil => rfl
  | cons answer first ih =>
      cases answer with
      | error fault => rfl
      | ok _ => simpa [firstRefusal] using ih

/-- `from_std` builds the socket when all that it asks for is granted, and else
closes the descriptor and reports the first refusal. -/
theorem fromStd_eq (h : descriptors.files fd = some file) (build : Build)
    (config : Config) (setup : Setup) :
    fromStd build fd config setup descriptors =
      match firstRefusal (setup.answers build config) with
      | none =>
          (.ok (takeOver build fd config setup),
            descriptors.withFile fd (some (file.configured config)))
      | some fault => (.error fault.error, descriptors.withFile fd none) := by
  have hanswers : firstRefusal (setup.answers build config) =
      (firstRefusal [setup.setNonblocking]).or
        ((firstRefusal
          (config.sendBufSize.map fun _ => setup.sndbuf).toList).or
          ((firstRefusal
            (config.recvOsBufSize.map fun _ => setup.rcvbuf).toList).or
            (firstRefusal
              (if build.tokio then [setup.register] else [])))) := by
    rw [← firstRefusal_append, ← firstRefusal_append, ← firstRefusal_append]
    simp [Setup.answers]
  rw [hanswers, fromStd, onFile_eq h]
  cases setup.setNonblocking with
  | error fault => simp [File.setNonblocking, firstRefusal]
  | ok _ =>
      simp only [File.setNonblocking, firstRefusal, Option.none_or]
      rw [applyBufSize_eq (withFile_self ..)]
      cases firstRefusal
        (config.sendBufSize.map fun _ => setup.sndbuf).toList with
      | some fault => simp
      | none =>
          simp only [withFile_withFile, Option.none_or]
          rw [applyBufSize_eq (withFile_self ..)]
          cases firstRefusal
            (config.recvOsBufSize.map fun _ => setup.rcvbuf).toList with
          | some fault => simp
          | none =>
              simp only [withFile_withFile, Option.none_or]
              by_cases htokio : build.tokio
              · rw [if_pos htokio, if_pos htokio]
                cases setup.register <;> simp [firstRefusal, File.configured]
              · rw [if_neg htokio, if_neg htokio]
                simp [firstRefusal, File.configured]

variable {socket : OwnedUdp}

theorem rawSetsockopt_eq (h : descriptors.files fd = some file)
    (option : SocketOption) (value : Int) (answer : Except Fault Unit) :
    descriptors.rawSetsockopt fd option value answer =
      Prod.map id (fun file => descriptors.withFile fd (some file))
        (File.answered answer () (file.withSetting option value) file) := by
  rw [rawSetsockopt, onFile_eq h]
  cases answer <;> rfl

theorem connect_eq (h : descriptors.files socket.fd = some file)
    (addr : SocketAddr) (answer : Except Fault Unit) :
    socket.connect addr answer descriptors =
      Prod.map id (fun file => descriptors.withFile socket.fd (some file))
        (File.answered answer () { file with peer := some addr } file) := by
  rw [OwnedUdp.connect, rawConnect, onFile_eq h]
  cases answer with
  | error fault => rfl
  | ok _ => simp [File.connect, File.answered, decodeSockaddr_encodeSockaddr]

theorem localAddr_eq (h : descriptors.files socket.fd = some file)
    (answer : Except Fault Unit) :
    socket.localAddr answer descriptors =
      Prod.map id (fun file => descriptors.withFile socket.fd (some file))
        (File.answered answer file.localAddr file file) := by
  rw [OwnedUdp.localAddr, rawGetsockname, onFile_eq h]
  cases answer with
  | error fault => rfl
  | ok _ =>
      simp [File.getsockname, File.answered, decodeSockaddr_encodeSockaddr]

theorem ttl_eq (report : SocketOption → Option Int → Int)
    (h : descriptors.files socket.fd = some file)
    (answer : Except Fault Unit) :
    socket.ttl report answer descriptors =
      Prod.map id (fun file => descriptors.withFile socket.fd (some file))
        (File.answered answer (asU32 (report .ipTtl (file.setting .ipTtl)))
          file file) := by
  rw [OwnedUdp.ttl, rawGetsockopt, onFile_eq h]
  cases answer <;> rfl

theorem enablePktinfo_eq (h : descriptors.files socket.fd = some file)
    (enabled : Bool) (first second : Except Fault Unit) :
    socket.enablePktinfo enabled first second descriptors =
      match first with
      | .error fault => (.error fault.error, descriptors)
      | .ok () =>
          let file := file.withSetting .ipPktinfo (ofFlag enabled)
          Prod.map id (fun file => descriptors.withFile socket.fd (some file))
            (File.answered second ()
              (file.withSetting .ipv6Recvpktinfo (ofFlag enabled)) file) := by
  rw [OwnedUdp.enablePktinfo, rawSetsockopt_eq h]
  cases first with
  | error fault => simp [File.answered, withFile_eq_self h]
  | ok _ =>
      simp only [File.answered, Prod.map_apply, id_eq]
      rw [rawSetsockopt_eq (withFile_self ..)]
      cases second <;> simp [File.answered]

theorem call_eq (report : SocketOption → Option Int → Int)
    (h : descriptors.files socket.fd = some file) (method : Method)
    (first second : Except Fault Unit) :
    socket.call report method first second descriptors =
      Prod.map id (fun file => descriptors.withFile socket.fd (some file))
        (file.call report method first second) := by
  cases method with
  | connect addr =>
      rw [OwnedUdp.call, connect_eq h]
      rfl
  | localAddr =>
      rw [OwnedUdp.call, localAddr_eq h]
      rfl
  | ttl =>
      rw [OwnedUdp.call, ttl_eq report h]
      rfl
  | enablePktinfo enabled =>
      rw [OwnedUdp.call, enablePktinfo_eq h]
      cases first with
      | error fault => simp [File.call, withFile_eq_self h]
      | ok _ => rfl
  | setPacingRate rate =>
      have hset := rawSetsockopt_eq h .soMaxPacingRate rate.toNat first
      change Prod.map Reply.done id (descriptors.rawSetsockopt socket.fd
        .soMaxPacingRate rate.toNat first) = _
      rw [hset]
      rfl
  | _ =>
      simp only [OwnedUdp.call, OwnedUdp.setTtl, OwnedUdp.setGso,
        OwnedUdp.setGro, OwnedUdp.setBusyPoll, OwnedUdp.enableTimestamping]
      rw [rawSetsockopt_eq h]
      rfl

theorem drop_eq (h : descriptors.files socket.fd = some file) :
    socket.drop descriptors = descriptors.withFile socket.fd none := by
  rw [OwnedUdp.drop, socket.tokioSock_eq]
  by_cases htokio : socket.socket.tokio
  · simp [htokio, closeFd_eq h]
  · simp [htokio, closeFd_eq h]

end Calls

/-! ## What the calls leave alone -/

def Method.sets : Method → List SocketOption
  | .connect _ => []
  | .localAddr => []
  | .ttl => []
  | .setTtl _ => [.ipTtl]
  | .setGso _ => [.udpSegment]
  | .setGro _ => [.udpGro]
  | .setPacingRate _ => [.soMaxPacingRate]
  | .setBusyPoll _ => [.soBusyPoll]
  | .enableTimestamping _ => [.soTimestampns]
  | .enablePktinfo _ => [.ipPktinfo, .ipv6Recvpktinfo]

namespace File

@[simp] theorem setting_withSetting_self (file : File) (option : SocketOption)
    (value : Int) : (file.withSetting option value).setting option =
      some value := by
  simp [setting, withSetting]

theorem setting_withSetting_of_ne {option other : SocketOption}
    (h : other ≠ option) (value : Int) (file : File) :
    (file.withSetting option value).setting other = file.setting other := by
  simp [setting, withSetting, List.lookup_cons, beq_false_of_ne h]

variable {report : SocketOption → Option Int → Int} {method : Method}
  {first second : Except Fault Unit} {file : File}

theorem call_nonblocking :
    (file.call report method first second).2.nonblocking =
      file.nonblocking := by
  cases method <;> cases first <;> try rfl
  cases second <;> rfl

theorem call_setting {option : SocketOption} (h : option ∉ method.sets) :
    (file.call report method first second).2.setting option =
      file.setting option := by
  cases first with
  | error fault => cases method <;> rfl
  | ok _ =>
      cases method with
      | connect addr => rfl
      | localAddr => rfl
      | ttl => rfl
      | enablePktinfo enabled =>
          obtain ⟨hip, hipv6⟩ : option ≠ .ipPktinfo ∧
              option ≠ .ipv6Recvpktinfo := by
            simpa [Method.sets] using h
          cases second with
          | error fault => exact setting_withSetting_of_ne hip _ _
          | ok _ =>
              exact (setting_withSetting_of_ne hipv6 _ _).trans
                (setting_withSetting_of_ne hip _ _)
      | _ => exact setting_withSetting_of_ne (List.ne_of_not_mem_cons h) _ _

theorem lookup_bufSetting_append {option other : SocketOption}
    (h : other ≠ option) (size : Option Nat)
    (rest : List (SocketOption × Int)) :
    (bufSetting option size ++ rest).lookup other = rest.lookup other := by
  cases size with
  | none => rfl
  | some size => simp [bufSetting, List.lookup_cons, beq_false_of_ne h]

theorem configured_soRcvbuf {config : Config} {size : Nat}
    (h : size ∈ config.recvOsBufSize) (file : File) :
    (file.configured config).setting .soRcvbuf = some (asCInt size) := by
  rw [Option.mem_def] at h
  simp [setting, configured, h, bufSetting]

theorem configured_soSndbuf {config : Config} {size : Nat}
    (h : size ∈ config.sendBufSize) (file : File) :
    (file.configured config).setting .soSndbuf = some (asCInt size) := by
  rw [Option.mem_def] at h
  rw [setting, configured, List.append_assoc,
    lookup_bufSetting_append (by decide)]
  simp [h, bufSetting]

end File

structure File.Follows (config : Config) (file : File) : Prop where
  nonblocking : file.nonblocking = true
  soSndbuf : ∀ size ∈ config.sendBufSize,
    file.setting .soSndbuf = some (asCInt size)
  soRcvbuf : ∀ size ∈ config.recvOsBufSize,
    file.setting .soRcvbuf = some (asCInt size)

theorem File.follows_configured (config : Config) (file : File) :
    (file.configured config).Follows config :=
  ⟨rfl, fun _ h => configured_soSndbuf h file,
    fun _ h => configured_soRcvbuf h file⟩

theorem File.Follows.call {config : Config} {file : File}
    (h : file.Follows config) (report : SocketOption → Option Int → Int)
    (method : Method) (first second : Except Fault Unit) :
    (file.call report method first second).2.Follows config := by
  -- No method sets a buffer size.
  have hsndbuf : .soSndbuf ∉ method.sets := by
    cases method <;> simp [Method.sets]
  have hrcvbuf : .soRcvbuf ∉ method.sets := by
    cases method <;> simp [Method.sets]
  constructor
  · rw [call_nonblocking, h.nonblocking]
  · intro size hsize
    rw [call_setting hsndbuf, h.soSndbuf size hsize]
  · intro size hsize
    rw [call_setting hrcvbuf, h.soRcvbuf size hsize]

end Binger.Socket
