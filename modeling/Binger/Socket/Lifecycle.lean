import Binger.Foundation.Owners
import Binger.Foundation.Runs
import Binger.Socket.OptionCalls
import Binger.Socket.Recv

/-!
# The life of sockets in a process

A process opens and closes files, turns standard sockets into `BingerUdp`
sockets, calls their methods, sends and receives, and drops them, in any order,
and the kernel may hand a closed descriptor out again.  Behind the descriptors
each socket is an object with a file of its own: `from_std` either configures
that file or gives it up, a method works on it alone, and it goes away when the
socket is dropped.

A standard socket that was duplicated shares its file with the copy; such
sockets are left out.
-/

namespace Binger.Socket

open Binger.Foundation Binger.Platform Binger.Sockaddr Descriptors

/-! ## Sending and receiving -/

/-- The steps of sending and receiving calls that touch the socket: an attempt
with the counters behind it, and the note in front of a wait. -/
inductive Activity where
  | send (payload : Tasks.Payload)
  | recv (features : Features) {bufSize : Nat} (batch : RecvBatchRaw bufSize)
  | waitToSend (payload : Tasks.Payload) (now : Nat)
  | waitToRecv (now : Nat)

/-- The socket behind a step.  A receive that panics has counted nothing. -/
def Activity.run (activity : Activity) (socket : BingerUdp) (os : Os) :
    BingerUdp :=
  match activity with
  | .send payload => payload.count (payload.issue socket os).1 socket
  | .recv features batch =>
      match socket.tryRecvBatch
        (Platform.tryRecvBatch socket.backend features socket.host) batch
        os with
      | (.error _, _) => socket
      | (.ok (_, socket, _), _) => socket
  | .waitToSend payload now => payload.noteWait now socket
  | .waitToRecv now => socket.noteRecvWouldBlock now

structure BingerUdp.Equipped (socket like : BingerUdp) : Prop where
  backend : socket.backend = like.backend
  host : socket.host = like.host
  tokio : socket.tokio = like.tokio
  metrics : socket.metrics.isSome = like.metrics.isSome
  adaptiveSend : socket.adaptiveSend.isSome = like.adaptiveSend.isSome
  adaptiveRecv : socket.adaptiveRecv.isSome = like.adaptiveRecv.isSome

theorem BingerUdp.Equipped.trans {first second third : BingerUdp}
    (h : first.Equipped second) (h' : second.Equipped third) :
    first.Equipped third :=
  ⟨h.backend.trans h'.backend, h.host.trans h'.host, h.tokio.trans h'.tokio,
    h.metrics.trans h'.metrics, h.adaptiveSend.trans h'.adaptiveSend,
    h.adaptiveRecv.trans h'.adaptiveRecv⟩

theorem Activity.run_equipped (activity : Activity) (socket : BingerUdp)
    (os : Os) : (activity.run socket os).Equipped socket := by
  cases activity with
  | send payload =>
      rw [run]
      generalize (payload.issue socket os).1 = result
      cases payload <;> cases result <;> constructor <;>
        simp [Tasks.Payload.count]
  | recv features batch =>
      rw [run, BingerUdp.tryRecvBatch]
      rcases Platform.tryRecvBatch socket.backend features socket.host batch
        os with ⟨panic | ⟨error | received, batch'⟩, os'⟩ <;>
        constructor <;> simp
  | waitToSend payload now =>
      cases payload <;> constructor <;>
        simp [run, Tasks.Payload.noteWait, BingerUdp.noteSendWouldBlock]
  | waitToRecv now =>
      constructor <;> simp [run, BingerUdp.noteRecvWouldBlock]

def badDescriptor (os : Os) : Os :=
  { os with
    sendScript := [.error (.hard ebadf)]
    recvScript := [.error (.hard ebadf)] }

/-- A step of a call on the file behind the socket; `os` has the answers of the
kernel. -/
def OwnedUdp.act (socket : OwnedUdp) (activity : Activity) (os : Os)
    (descriptors : Descriptors) : OwnedUdp × Descriptors :=
  let (connected, descriptors) := descriptors.onFile socket.fd fun file =>
    (.ok { os with peer := file.peer }, file)
  let os :=
    match connected with
    | .ok os => os
    | .error _ => badDescriptor os
  ({ socket with
      socket := activity.run socket.socket os
      tokioSock_eq := by
        rw [(activity.run_equipped socket.socket os).tokio]
        exact socket.tokioSock_eq },
    descriptors)

theorem act_eq {socket : OwnedUdp} {descriptors : Descriptors} {file : File}
    (h : descriptors.files socket.fd = some file) (activity : Activity)
    (os : Os) :
    (socket.act activity os descriptors).1.fd = socket.fd ∧
      (socket.act activity os descriptors).1.socket =
        activity.run socket.socket { os with peer := file.peer } ∧
      (socket.act activity os descriptors).2 = descriptors := by
  have hfile := onFile_eq h fun file =>
    ((.ok { os with peer := file.peer } : IoResult Os), file)
  rw [withFile_eq_self h] at hfile
  refine ⟨rfl, ?_, ?_⟩ <;> simp only [OwnedUdp.act, hfile]

/-! ## Processes -/

/-- What a name of the program is bound to: a file of other code, a standard
socket, or a `BingerUdp`. -/
inductive Handle where
  | other (fd : Fd)
  | std (fd : Fd)
  | binger (socket : OwnedUdp)

namespace Handle

def fd : Handle → Fd
  | other fd => fd
  | std fd => fd
  | binger socket => socket.fd

def drop (handle : Handle) (descriptors : Descriptors) : Descriptors :=
  match handle with
  | other fd => descriptors.closeFd fd
  | std fd => descriptors.closeFd fd
  | binger socket => socket.drop descriptors

theorem drop_eq {handle : Handle} {descriptors : Descriptors} {file : File}
    (h : descriptors.files handle.fd = some file) :
    handle.drop descriptors = descriptors.withFile handle.fd none := by
  cases handle with
  | other fd => exact closeFd_eq h
  | std fd => exact closeFd_eq h
  | binger socket => exact Socket.drop_eq h

end Handle

structure Process where
  descriptors : Descriptors
  handles : Nat → Option Handle
  replies : List (Nat × Reply)

inductive ProcessEvent where
  | openFile (name : Nat) (fd : Fd) (file : File)
  | bind (name : Nat) (fd : Fd) (addr : SocketAddr)
  | fromStd (name : Nat) (config : Config) (setup : Setup)
  | call (name : Nat) (method : Method) (first second : Except Fault Unit)
  | io (name : Nat) (activity : Activity) (os : Os)
  | drop (name : Nat)

namespace Process

def empty : Process := ⟨⟨fun _ => none, []⟩, fun _ => none, []⟩

/-- The kernel only hands out descriptors that are not open. -/
def allocate (process : Process) (name : Nat) (fd : Fd) (handle : Handle)
    (file : File) : Option Process :=
  match process.handles name, process.descriptors.files fd with
  | none, none =>
      some { process with
        descriptors := process.descriptors.withFile fd (some file)
        handles := Function.update process.handles name (some handle) }
  | _, _ => none

def step (build : Build) (report : SocketOption → Option Int → Int)
    (process : Process) : ProcessEvent → Option Process
  | .openFile name fd file => process.allocate name fd (.other fd) file
  | .bind name fd addr => process.allocate name fd (.std fd) (.bound addr)
  | .fromStd name config setup =>
      match process.handles name with
      | some (.std fd) =>
          match fromStd build fd config setup process.descriptors with
          | (.ok socket, descriptors) =>
              some ⟨descriptors,
                Function.update process.handles name (some (.binger socket)),
                (name, .done (.ok ())) :: process.replies⟩
          | (.error error, descriptors) =>
              some ⟨descriptors, Function.update process.handles name none,
                (name, .done (.error error)) :: process.replies⟩
      | _ => none
  | .call name method first second =>
      match process.handles name with
      | some (.binger socket) =>
          let (reply, descriptors) :=
            socket.call report method first second process.descriptors
          some ⟨descriptors, process.handles, (name, reply) :: process.replies⟩
      | _ => none
  | .io name activity os =>
      match process.handles name with
      | some (.binger socket) =>
          let (socket, descriptors) :=
            socket.act activity os process.descriptors
          some ⟨descriptors,
            Function.update process.handles name (some (.binger socket)),
            process.replies⟩
      | _ => none
  | .drop name =>
      match process.handles name with
      | some handle =>
          some { process with
            descriptors := handle.drop process.descriptors
            handles := Function.update process.handles name none }
      | none => none

end Process

/-! ## Objects -/

inductive Kind where
  | other
  | std
  | binger (socket : BingerUdp)

structure Object where
  kind : Kind
  file : File

structure Objects where
  objects : Nat → Option Object
  replies : List (Nat × Reply)

namespace Objects

def empty : Objects := ⟨fun _ => none, []⟩

def put (state : Objects) (name : Nat) (object : Option Object) : Objects :=
  { state with objects := Function.update state.objects name object }

def reply (state : Objects) (name : Nat) (reply : Reply) : Objects :=
  { state with replies := (name, reply) :: state.replies }

def step (build : Build) (report : SocketOption → Option Int → Int)
    (state : Objects) : ProcessEvent → Option Objects
  | .openFile name _ file =>
      match state.objects name with
      | none => some (state.put name (some ⟨.other, file⟩))
      | some _ => none
  | .bind name _ addr =>
      match state.objects name with
      | none => some (state.put name (some ⟨.std, .bound addr⟩))
      | some _ => none
  | .fromStd name config setup =>
      match state.objects name with
      | some ⟨.std, file⟩ =>
          match firstRefusal (setup.answers build config) with
          | none =>
              some ((state.put name (some ⟨.binger
                (newSocket build config setup), file.configured config⟩)).reply
                  name (.done (.ok ())))
          | some fault =>
              some ((state.put name none).reply name
                (.done (.error fault.error)))
      | _ => none
  | .call name method first second =>
      match state.objects name with
      | some ⟨.binger socket, file⟩ =>
          let (reply, file) := file.call report method first second
          some ((state.put name (some ⟨.binger socket, file⟩)).reply name reply)
      | _ => none
  | .io name activity os =>
      match state.objects name with
      | some ⟨.binger socket, file⟩ =>
          some (state.put name (some ⟨.binger
            (activity.run socket { os with peer := file.peer }), file⟩))
      | _ => none
  | .drop name =>
      match state.objects name with
      | some _ => some (state.put name none)
      | none => none

end Objects

/-! ## Descriptors behind objects -/

def Handle.kind : Handle → Kind
  | .other _ => .other
  | .std _ => .std
  | .binger socket => .binger socket.socket

namespace Process

def keys (process : Process) (name : Nat) : Option Fd :=
  (process.handles name).map Handle.fd

def objects (process : Process) : Objects where
  objects name :=
    (contents process.keys process.descriptors.files name).bind fun file =>
      (process.handles name).map fun handle => ⟨handle.kind, file⟩
  replies := process.replies

/-- Every open descriptor belongs to one handle, every handle has an open
descriptor, and no descriptor was named that was not open. -/
structure Sound (process : Process) : Prop where
  owned : Owned process.keys process.descriptors.files
  misused : process.descriptors.misused = []

theorem sound_empty : empty.Sound := ⟨owned_empty, rfl⟩

def set (process : Process) (name : Nat) (fd : Fd)
    (entry : Option (Handle × File)) (replies : List (Nat × Reply)) :
    Process where
  descriptors := process.descriptors.withFile fd (entry.map Prod.snd)
  handles := Function.update process.handles name (entry.map Prod.fst)
  replies := replies

section Set

variable {process : Process} {name : Nat} {fd : Fd}
  {entry : Option (Handle × File)}

theorem keys_set (hfd : ∀ bound ∈ entry, bound.1.fd = fd)
    (replies : List (Nat × Reply)) :
    (process.set name fd entry replies).keys =
      Function.update process.keys name
        ((entry.map Prod.snd).map fun _ => fd) := by
  funext other
  by_cases heq : other = name
  · subst heq
    cases entry with
    | none => simp [keys, set]
    | some bound => simpa [keys, set] using hfd bound rfl
  · simp [keys, set, Function.update_of_ne heq]

theorem Sound.set (h : process.Sound)
    (havail : Available process.keys process.descriptors.files name fd)
    (hfd : ∀ bound ∈ entry, bound.1.fd = fd)
    (replies : List (Nat × Reply)) :
    (process.set name fd entry replies).Sound := by
  refine ⟨?_, h.misused⟩
  rw [keys_set hfd]
  exact h.owned.set havail _

theorem Sound.objects_set (h : process.Sound)
    (havail : Available process.keys process.descriptors.files name fd)
    (hfd : ∀ bound ∈ entry, bound.1.fd = fd)
    (replies : List (Nat × Reply)) :
    (process.set name fd entry replies).objects =
      ⟨Function.update process.objects.objects name
        (entry.map fun bound => ⟨bound.1.kind, bound.2⟩), replies⟩ := by
  have hcontents : contents (process.set name fd entry replies).keys
      (process.set name fd entry replies).descriptors.files = _ :=
    (congrArg (contents · _) (keys_set hfd replies)).trans
      (h.owned.contents_set havail (entry.map Prod.snd))
  rw [objects, hcontents]
  congr 1
  funext other
  by_cases heq : other = name
  · subst heq
    cases entry <;> simp [Process.set]
  · simp [Process.set, objects, Function.update_of_ne heq]

end Set

section Step

variable {build : Build} {report : SocketOption → Option Int → Int}
  {process next : Process} {name : Nat}

theorem objects_eq_none (h : process.handles name = none) :
    process.objects.objects name = none := by
  simp [objects, contents, keys, h]

theorem Sound.exists_file (hsound : process.Sound) {handle : Handle}
    (h : process.handles name = some handle) :
    ∃ file, process.descriptors.files handle.fd = some file ∧
      process.objects.objects name = some ⟨handle.kind, file⟩ := by
  have hkey : process.keys name = some handle.fd := by
    rw [keys, h, Option.map_some]
  obtain ⟨file, hfile⟩ := hsound.owned.occupied hkey
  refine ⟨file, hfile, ?_⟩
  simp [objects, contents, hkey, hfile, h]

theorem available_of_handle {handle : Handle}
    (h : process.handles name = some handle) :
    Available process.keys process.descriptors.files name handle.fd :=
  .inl (by rw [keys, h, Option.map_some])

def Simulated (build : Build) (report : SocketOption → Option Int → Int)
    (process : Process) (event : ProcessEvent) (next : Process) : Prop :=
  ∃ name fd entry replies,
    Available process.keys process.descriptors.files name fd ∧
    (∀ bound ∈ entry, bound.1.fd = fd) ∧
    next = process.set name fd entry replies ∧
    Objects.step build report process.objects event =
      some ⟨Function.update process.objects.objects name
        (entry.map fun bound => ⟨bound.1.kind, bound.2⟩), replies⟩

theorem simulated_allocate {fd : Fd} {handle : Handle} {file : File}
    {event : ProcessEvent}
    (h : process.allocate name fd handle file = some next)
    (hfd : handle.fd = fd)
    (hobjects : process.objects.objects name = none →
      Objects.step build report process.objects event =
        some (process.objects.put name (some ⟨handle.kind, file⟩))) :
    Simulated build report process event next := by
  rw [allocate] at h
  split at h
  · next hname hfree =>
      refine ⟨name, fd, some (handle, file), process.replies, ?_, ?_, ?_, ?_⟩
      · exact .inr ⟨by rw [keys, hname, Option.map_none], hfree⟩
      · simpa using hfd
      · exact (Option.some_inj.mp h).symm
      · exact hobjects (objects_eq_none hname)
  · cases h

theorem Sound.simulated_fromStd (hsound : process.Sound) {config : Config}
    {setup : Setup}
    (h : process.step build report (.fromStd name config setup) =
      some next) :
    Simulated build report process (.fromStd name config setup) next := by
  rw [step] at h
  split at h
  · next fd hname =>
      obtain ⟨file, hfile, hobject⟩ := hsound.exists_file hname
      change process.descriptors.files fd = some file at hfile
      rw [fromStd_eq hfile] at h
      cases hrefused : firstRefusal (setup.answers build config) with
      | none =>
          rw [hrefused] at h
          refine ⟨name, fd, some (.binger (takeOver build fd config setup),
            file.configured config), (name, .done (.ok ())) :: process.replies,
            available_of_handle hname, ?_, ?_, ?_⟩
          · simp [Handle.fd, takeOver]
          · exact (Option.some_inj.mp h).symm
          · simp only [Objects.step, hobject, Handle.kind, hrefused]
            rfl
      | some fault =>
          rw [hrefused] at h
          refine ⟨name, fd, none,
            (name, .done (.error fault.error)) :: process.replies,
            available_of_handle hname, by simp, ?_, ?_⟩
          · exact (Option.some_inj.mp h).symm
          · simp only [Objects.step, hobject, Handle.kind, hrefused]
            rfl
  · cases h

theorem Sound.simulated_call (hsound : process.Sound) {method : Method}
    {first second : Except Fault Unit}
    (h : process.step build report (.call name method first second) =
      some next) :
    Simulated build report process (.call name method first second) next := by
  rw [step] at h
  split at h
  · next socket hname =>
      obtain ⟨file, hfile, hobject⟩ := hsound.exists_file hname
      change process.descriptors.files socket.fd = some file at hfile
      rw [call_eq report hfile] at h
      rcases hcall : file.call report method first second with
        ⟨reply, changed⟩
      rw [hcall] at h
      have hsame : Function.update process.handles name
          (some (.binger socket)) = process.handles := by
        rw [← hname, Function.update_eq_self]
      refine ⟨name, socket.fd, some (.binger socket, changed),
        (name, reply) :: process.replies, available_of_handle hname,
        by simp [Handle.fd], ?_, ?_⟩
      · rw [← Option.some_inj.mp h]
        simp only [Process.set, Option.map_some, hsame]
        rfl
      · simp only [Objects.step, hobject, Handle.kind, hcall]
        rfl
  · cases h

theorem Sound.simulated_io (hsound : process.Sound) {activity : Activity}
    {os : Os}
    (h : process.step build report (.io name activity os) = some next) :
    Simulated build report process (.io name activity os) next := by
  rw [step] at h
  split at h
  · next socket hname =>
      obtain ⟨file, hfile, hobject⟩ := hsound.exists_file hname
      change process.descriptors.files socket.fd = some file at hfile
      obtain ⟨hfd, hsocket, hdescriptors⟩ := act_eq hfile activity os
      refine ⟨name, socket.fd,
        some (.binger (socket.act activity os process.descriptors).1, file),
        process.replies, available_of_handle hname, ?_, ?_, ?_⟩
      · simpa [Handle.fd] using hfd
      · have hnext : Process.mk
            (socket.act activity os process.descriptors).2
            (Function.update process.handles name
              (some (.binger (socket.act activity os process.descriptors).1)))
            process.replies = next := Option.some_inj.mp h
        rw [← hnext, hdescriptors]
        simp only [Process.set, Option.map_some, withFile_eq_self hfile]
      · simp only [Objects.step, hobject, Handle.kind, ← hsocket]
        rfl
  · cases h

theorem Sound.simulated (hsound : process.Sound) {event : ProcessEvent}
    (h : process.step build report event = some next) :
    Simulated build report process event next := by
  cases event with
  | openFile name fd file =>
      refine simulated_allocate h rfl ?_
      intro hnone
      rw [Objects.step, hnone]
      rfl
  | bind name fd addr =>
      refine simulated_allocate h rfl ?_
      intro hnone
      rw [Objects.step, hnone]
      rfl
  | fromStd name config setup => exact hsound.simulated_fromStd h
  | call name method first second => exact hsound.simulated_call h
  | io name activity os => exact hsound.simulated_io h
  | drop name =>
      rw [step] at h
      split at h
      · next handle hname =>
          obtain ⟨file, hfile, hobject⟩ := hsound.exists_file hname
          refine ⟨name, handle.fd, none, process.replies,
            available_of_handle hname, by simp, ?_, ?_⟩
          · rw [← Option.some_inj.mp h, Handle.drop_eq hfile]
            rfl
          · rw [Objects.step, hobject]
            rfl
      · cases h

theorem Sound.step (hsound : process.Sound) {event : ProcessEvent}
    (h : process.step build report event = some next) :
    next.Sound ∧
      Objects.step build report process.objects event = some next.objects := by
  obtain ⟨name, fd, entry, replies, havail, hfd, rfl, hstep⟩ :=
    hsound.simulated h
  exact ⟨hsound.set havail hfd replies,
    by rw [hstep, hsound.objects_set havail hfd]⟩

end Step

end Process

end Binger.Socket
