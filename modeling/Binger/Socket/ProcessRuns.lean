import Binger.Socket.Lifecycle

/-!
# Runs of a process

What a process relies on over a run: no descriptor is leaked or used after its
release, a live socket stays as it was configured, and `ttl` reads what
`set_ttl` wrote.
-/

namespace Binger.Socket

open Binger.Foundation Binger.Platform Binger.Sockaddr Descriptors

/-! ## Live sockets -/

def ProcessEvent.name : ProcessEvent → Nat
  | .openFile name _ _ => name
  | .bind name _ _ => name
  | .fromStd name _ _ => name
  | .call name _ _ _ => name
  | .io name _ _ => name
  | .drop name => name

namespace Objects

variable {build : Build} {report : SocketOption → Option Int → Int}
  {state next : Objects} {event : ProcessEvent} {name : Nat}

theorem step_objects (h : state.step build report event = some next) :
    ∃ object, next.objects =
      Function.update state.objects event.name object := by
  cases event <;> rw [step] at h <;> (repeat' split at h) <;> cases h <;>
    exact ⟨_, rfl⟩

theorem step_binger (h : state.step build report event = some next)
    {socket : BingerUdp} {file : File}
    (hnext : next.objects name = some ⟨.binger socket, file⟩) :
    (∃ config setup, ∃ before : File, event = .fromStd name config setup ∧
      socket = newSocket build config setup ∧
      file = before.configured config) ∨
    (∃ method first second, ∃ before : File,
      event = .call name method first second ∧
      state.objects name = some ⟨.binger socket, before⟩ ∧
      file = (before.call report method first second).2) ∨
    (∃ activity os, ∃ before : BingerUdp, event = .io name activity os ∧
      state.objects name = some ⟨.binger before, file⟩ ∧
      socket = activity.run before { os with peer := file.peer }) ∨
    state.objects name = some ⟨.binger socket, file⟩ ∧
      ∀ config setup, event ≠ .fromStd name config setup := by
  by_cases hname : name = event.name
  · subst hname
    cases event with
    | openFile name fd opened =>
        rw [step] at h
        split at h
        · rw [← Option.some_inj.mp h] at hnext
          simp [put, ProcessEvent.name] at hnext
        · cases h
    | bind name fd addr =>
        rw [step] at h
        split at h
        · rw [← Option.some_inj.mp h] at hnext
          simp [put, ProcessEvent.name] at hnext
        · cases h
    | fromStd name config setup =>
        left
        rw [step] at h
        split at h
        · next before hbefore =>
            split at h
            · rw [← Option.some_inj.mp h] at hnext
              simp only [put, reply, ProcessEvent.name,
                Function.update_self, Option.some_inj, Object.mk.injEq,
                Kind.binger.injEq] at hnext
              exact ⟨config, setup, before, rfl, hnext.1.symm, hnext.2.symm⟩
            · rw [← Option.some_inj.mp h] at hnext
              simp [put, reply, ProcessEvent.name] at hnext
        · cases h
    | call name method first second =>
        right
        left
        rw [step] at h
        split at h
        · next socket' before hbefore =>
            rw [← Option.some_inj.mp h] at hnext
            simp only [put, reply, ProcessEvent.name,
              Function.update_self, Option.some_inj, Object.mk.injEq,
              Kind.binger.injEq] at hnext
            obtain ⟨rfl, rfl⟩ := hnext
            exact ⟨method, first, second, before, rfl, hbefore, rfl⟩
        · cases h
    | io name activity os =>
        right
        right
        left
        rw [step] at h
        split at h
        · next before file' hbefore =>
            rw [← Option.some_inj.mp h] at hnext
            simp only [put, ProcessEvent.name, Function.update_self,
              Option.some_inj, Object.mk.injEq, Kind.binger.injEq] at hnext
            obtain ⟨rfl, rfl⟩ := hnext
            exact ⟨activity, os, before, rfl, hbefore, rfl⟩
        · cases h
    | drop name =>
        rw [step] at h
        split at h
        · rw [← Option.some_inj.mp h] at hnext
          simp [put, ProcessEvent.name] at hnext
        · cases h
  · right
    right
    right
    obtain ⟨object, hobjects⟩ := step_objects h
    rw [hobjects, Function.update_of_ne hname] at hnext
    refine ⟨hnext, ?_⟩
    rintro config setup rfl
    exact hname rfl

theorem step_of_binger {socket : BingerUdp} {file : File}
    (hlive : state.objects name = some ⟨.binger socket, file⟩)
    (h : state.step build report event = some next) :
    event = .drop name ∨
    (∃ method first second, event = .call name method first second ∧
      next = (state.put name (some ⟨.binger socket,
        (file.call report method first second).2⟩)).reply name
          (file.call report method first second).1) ∨
    (∃ activity os, event = .io name activity os ∧
      next = state.put name (some ⟨.binger
        (activity.run socket { os with peer := file.peer }), file⟩)) ∨
    next.objects name = some ⟨.binger socket, file⟩ ∧ event.name ≠ name := by
  by_cases hname : event.name = name
  · cases event with
    | openFile name' fd opened =>
        obtain rfl : name' = name := hname
        rw [step, hlive] at h
        cases h
    | bind name' fd addr =>
        obtain rfl : name' = name := hname
        rw [step, hlive] at h
        cases h
    | fromStd name' config setup =>
        obtain rfl : name' = name := hname
        rw [step, hlive] at h
        cases h
    | call name' method first second =>
        obtain rfl : name' = name := hname
        rw [step, hlive] at h
        exact .inr (.inl ⟨method, first, second, rfl,
          (Option.some_inj.mp h).symm⟩)
    | io name' activity os =>
        obtain rfl : name' = name := hname
        rw [step, hlive] at h
        exact .inr (.inr (.inl ⟨activity, os, rfl,
          (Option.some_inj.mp h).symm⟩))
    | drop name' =>
        obtain rfl : name' = name := hname
        exact .inl rfl
  · right
    right
    right
    obtain ⟨object, hobjects⟩ := step_objects h
    rw [hobjects, Function.update_of_ne (Ne.symm hname)]
    exact ⟨hlive, hname⟩

end Objects

/-! ## Configured sockets -/

def ProcessEvent.builds (name : Nat) : ProcessEvent → Option (Config × Setup)
  | .fromStd name' config setup =>
      if name' = name then some (config, setup) else none
  | _ => none

def builtWith (name : Nat) (past : List ProcessEvent) :
    Option (Config × Setup) :=
  past.reverse.findSome? (ProcessEvent.builds name)

theorem builtWith_append (name : Nat) (past : List ProcessEvent)
    (event : ProcessEvent) :
    builtWith name (past ++ [event]) =
      (event.builds name).or (builtWith name past) := by
  rw [builtWith, List.reverse_append]
  cases h : event.builds name <;> simp [builtWith, h]

theorem ProcessEvent.builds_eq_none {name : Nat} {event : ProcessEvent}
    (h : ∀ config setup, event ≠ .fromStd name config setup) :
    event.builds name = none := by
  cases event with
  | fromStd name' config setup =>
      rw [builds, if_neg]
      rintro rfl
      exact h config setup rfl
  | _ => rfl

namespace Objects

/-- Every `BingerUdp` is equipped and its file set up as the last `from_std` on
its name was asked to. -/
def Configured (build : Build) (past : List ProcessEvent) (state : Objects) :
    Prop :=
  ∀ name socket file, state.objects name = some ⟨.binger socket, file⟩ →
    ∃ config setup, builtWith name past = some (config, setup) ∧
      socket.Equipped (newSocket build config setup) ∧ file.Follows config

theorem Configured.step {build : Build}
    {report : SocketOption → Option Int → Int} {past : List ProcessEvent}
    {state next : Objects} {event : ProcessEvent}
    (h : state.Configured build past)
    (hstep : state.step build report event = some next) :
    next.Configured build (past ++ [event]) := by
  intro name socket file hnext
  rw [builtWith_append]
  rcases step_binger hstep hnext with
    ⟨config, setup, before, rfl, rfl, rfl⟩ |
    ⟨method, first, second, before, rfl, hbefore, rfl⟩ |
    ⟨activity, os, before, rfl, hbefore, rfl⟩ | ⟨hbefore, hnot⟩
  · refine ⟨config, setup, ?_, ⟨rfl, rfl, rfl, rfl, rfl, rfl⟩,
      before.follows_configured config⟩
    simp [ProcessEvent.builds]
  · obtain ⟨config, setup, hbuilt, hsocket, hfollows⟩ :=
      h name socket before hbefore
    exact ⟨config, setup, hbuilt, hsocket,
      hfollows.call report method first second⟩
  · obtain ⟨config, setup, hbuilt, hsocket, hfollows⟩ :=
      h name before file hbefore
    exact ⟨config, setup, hbuilt,
      (activity.run_equipped before _).trans hsocket, hfollows⟩
  · obtain ⟨config, setup, hbuilt, hsocket, hfollows⟩ :=
      h name socket file hbefore
    refine ⟨config, setup, ?_, hsocket, hfollows⟩
    rw [ProcessEvent.builds_eq_none hnot, Option.none_or, hbuilt]

theorem run_configured {build : Build}
    {report : SocketOption → Option Int → Int} {events : List ProcessEvent}
    {final : Objects}
    (hrun : run (step build report) empty events = some final) :
    final.Configured build events := by
  refine @run_invariant _ _ (step build report) (Configured build)
    (fun _ => True) ?_ events (fun _ _ => trivial) [] empty final ?_ hrun
  · intro past state event next hconfigured _ hstep
    exact hconfigured.step hstep
  · intro name socket file hobject
    cases hobject

def Holds (name : Nat) (option : SocketOption) (value : Int)
    (state : Objects) : Prop :=
  ∃ socket file, state.objects name = some ⟨.binger socket, file⟩ ∧
    file.setting option = some value

/-- The events that leave the option of a live socket alone. -/
def Leaves (name : Nat) (option : SocketOption) (event : ProcessEvent) :
    Prop :=
  event ≠ .drop name ∧ ∀ method first second,
    event = .call name method first second → option ∉ method.sets

theorem Holds.step {build : Build}
    {report : SocketOption → Option Int → Int} {name : Nat}
    {option : SocketOption} {value : Int} {state next : Objects}
    {event : ProcessEvent} (h : state.Holds name option value)
    (hleaves : Leaves name option event)
    (hstep : state.step build report event = some next) :
    next.Holds name option value := by
  obtain ⟨socket, file, hlive, hvalue⟩ := h
  rcases step_of_binger hlive hstep with
    hdrop | ⟨method, first, second, hcall, rfl⟩ | ⟨activity, os, -, rfl⟩ |
    ⟨hnext, -⟩
  · exact absurd hdrop hleaves.1
  · refine ⟨socket, (file.call report method first second).2, ?_, ?_⟩
    · simp [reply, put]
    · rw [File.call_setting (hleaves.2 method first second hcall), hvalue]
  · exact ⟨_, file, Function.update_self .., hvalue⟩
  · exact ⟨socket, file, hnext, hvalue⟩

theorem Holds.run {build : Build}
    {report : SocketOption → Option Int → Int} {name : Nat}
    {option : SocketOption} {value : Int} {state final : Objects}
    {events : List ProcessEvent} (h : state.Holds name option value)
    (hleaves : ∀ event ∈ events, Leaves name option event)
    (hrun : run (Objects.step build report) state events = some final) :
    final.Holds name option value :=
  @run_invariant _ _ (Objects.step build report)
    (fun _ => Holds name option value) (Leaves name option)
    (fun _ _ _ _ hholds hleaves hstep => hholds.step hleaves hstep) events
    hleaves [] state final h hrun

end Objects

/-! ## Runs -/

namespace Process

variable {build : Build} {report : SocketOption → Option Int → Int}
  {events : List ProcessEvent} {final : Process}

theorem run_sound (hrun : run (step build report) empty events = some final) :
    final.Sound ∧
      run (Objects.step build report) Objects.empty events =
        some final.objects :=
  run_simulates (fun _ _ _ hsound hstep => Sound.step hsound hstep)
    sound_empty hrun

/--
However sockets are bound, built, used and dropped, with failures anywhere and
descriptors handed out again: the open descriptors are those of the live
handles, one each, nothing is closed twice or used after its release, and all
calls answer as if every socket had a file of its own.
-/
theorem run_owns_descriptors
    (hrun : run (step build report) empty events = some final) :
    (∀ fd, (final.descriptors.files fd).isSome ↔
      ∃ name handle, final.handles name = some handle ∧ handle.fd = fd) ∧
    (∀ name name' handle handle', final.handles name = some handle →
      final.handles name' = some handle' → handle.fd = handle'.fd →
      name = name') ∧
    final.descriptors.misused = [] ∧
    ∃ objects,
      run (Objects.step build report) Objects.empty events = some objects ∧
      objects.replies = final.replies := by
  obtain ⟨hsound, hobjects⟩ := run_sound hrun
  refine ⟨?_, ?_, hsound.misused, final.objects, hobjects, rfl⟩
  · intro fd
    rw [hsound.owned.occupied_iff]
    simp [keys]
  · intro name name' handle handle' hname hname' hfd
    have hkey : final.keys name = some handle.fd := by
      rw [keys, hname, Option.map_some]
    have hkey' : final.keys name' = some handle.fd := by
      rw [keys, hname', Option.map_some, hfd]
    exact hsound.owned.unique hkey hkey'

def linuxBuild : Build := ⟨.linux, ⟨.linux, .little⟩, true⟩

def plainReport (_ : SocketOption) (value : Option Int) : Int := value.getD 64

def granted : Setup := ⟨.ok (), .ok (), .ok (), .ok (), 0, 0⟩

def largeBuffers : Config :=
  ((Config.new.withSendBufSize 65536).withRecvOsBufSize 131072).withMetrics
    true

def loopback (port : UInt16) : SocketAddr := .v4 .loopback port

def oneDatagram : Activity :=
  .send (.batch (byteEntries [[1, 2]]))

def reusingEvents : List ProcessEvent :=
  [.bind 0 3 (loopback 7000), .bind 1 4 (loopback 7001),
    .fromStd 0 largeBuffers { granted with sndbuf := .error (.hard 1) },
    .openFile 2 3 (.bound (loopback 7002)), .fromStd 1 largeBuffers granted,
    .call 1 (.setTtl 9) (.ok ()) (.ok ()), .drop 2,
    .io 1 oneDatagram (connectedOs [.ok ()]),
    .call 1 .ttl (.ok ()) (.ok ())]

def reusedProcess : Process :=
  (run (step linuxBuild plainReport) empty reusingEvents).getD empty

theorem run_reusingEvents :
    run (step linuxBuild plainReport) empty reusingEvents =
      some reusedProcess := rfl

theorem reused_descriptor_has_one_owner :
    ((reusedProcess.descriptors.files 4).isSome ↔
      ∃ name handle, reusedProcess.handles name = some handle ∧
        handle.fd = 4) ∧
    reusedProcess.descriptors.misused = [] := by
  obtain ⟨hopen, -, hmisused, -⟩ := run_owns_descriptors run_reusingEvents
  exact ⟨hopen 4, hmisused⟩

/--
Every live socket is as the last `from_std` on its name was asked to make it,
whatever was called, sent and received in the meantime: its file is open and
non-blocking and has the buffer sizes of the configuration, and it has metrics
and controllers where the configuration asks for them.
-/
theorem run_configures
    (hrun : run (step build report) empty events = some final) {name : Nat}
    {socket : OwnedUdp} (hlive : final.handles name = some (.binger socket)) :
    ∃ config setup file, builtWith name events = some (config, setup) ∧
      socket.socket.Equipped (newSocket build config setup) ∧
      final.descriptors.files socket.fd = some file ∧
      file.Follows config := by
  obtain ⟨hsound, hobjects⟩ := run_sound hrun
  obtain ⟨file, hfile, hobject⟩ := hsound.exists_file hlive
  obtain ⟨config, setup, hbuilt, hsocket, hfollows⟩ :=
    Objects.run_configured hobjects name socket.socket file hobject
  exact ⟨config, setup, file, hbuilt, hsocket, hfile, hfollows⟩

theorem second_socket_is_configured :
    ∃ socket config setup file,
      reusedProcess.handles 1 = some (.binger socket) ∧
      socket.socket.metrics.map BingerMetrics.packetsSent = some 1 ∧
      builtWith 1 reusingEvents = some (config, setup) ∧
      socket.socket.Equipped (newSocket linuxBuild config setup) ∧
      reusedProcess.descriptors.files socket.fd = some file ∧
      file.Follows config := by
  obtain ⟨socket, hlive, hsent⟩ :
      ∃ socket, reusedProcess.handles 1 = some (.binger socket) ∧
        socket.socket.metrics.map BingerMetrics.packetsSent = some 1 :=
    ⟨_, rfl, rfl⟩
  obtain ⟨config, setup, file, hbuilt, hsocket, hfile, hfollows⟩ :=
    run_configures run_reusingEvents hlive
  exact ⟨socket, config, setup, file, hlive, hsent, hbuilt, hsocket, hfile,
    hfollows⟩

/--
`ttl` reads what the last accepted `set_ttl` of the same socket wrote, whatever
the process did in between with other sockets and with other options of this
one.  The kernel is taken to report a time to live from 1 to 255 as it was set.
-/
theorem ttl_after_setTtl
    (hreport : ∀ value : Int, 1 ≤ value → value ≤ 255 →
      report .ipTtl (some value) = value)
    {name : Nat} {ttl : UInt32} (hlow : 1 ≤ ttl.toNat)
    (hhigh : ttl.toNat ≤ 255) {before middle : List ProcessEvent}
    {second second' : Except Fault Unit}
    (hleaves : ∀ event ∈ middle, Objects.Leaves name .ipTtl event)
    (hrun : run (step build report) empty
      (before ++ .call name (.setTtl ttl) (.ok ()) second ::
        (middle ++ [.call name .ttl (.ok ()) second'])) = some final) :
    final.replies.head? = some (name, .ttl (.ok ttl.toNat)) := by
  obtain ⟨-, hobjects⟩ := run_sound hrun
  obtain ⟨state, -, hafter⟩ := run_append_eq_some.mp hobjects
  obtain ⟨written, hset, hrest⟩ := run_cons_eq_some.mp hafter
  obtain ⟨kept, hmiddle, hlast⟩ := run_append_eq_some.mp hrest
  obtain ⟨read, hread, hend⟩ := run_cons_eq_some.mp hlast
  obtain rfl : read = final.objects := by simpa [run] using hend
  have hholds : written.Holds name .ipTtl (asCInt ttl.toNat) := by
    rw [Objects.step] at hset
    split at hset
    · next socket file hlive =>
        rw [← Option.some_inj.mp hset]
        refine ⟨socket, file.withSetting .ipTtl (asCInt ttl.toNat), ?_, ?_⟩
        · exact Function.update_self ..
        · exact File.setting_withSetting_self ..
    · cases hset
  obtain ⟨socket, file, hlive, hvalue⟩ := hholds.run hleaves hmiddle
  rw [Objects.step, hlive] at hread
  have hreplies : final.replies = _ :=
    congrArg Objects.replies (Option.some_inj.mp hread).symm
  have hkept : report .ipTtl (some (asCInt ttl.toNat)) = asCInt ttl.toNat := by
    rw [asCInt_of_lt (by omega)]
    exact hreport _ (by omega) (by omega)
  have hnumber : asU32 (report .ipTtl (file.setting .ipTtl)) = ttl.toNat := by
    rw [hvalue, hkept, asU32_asCInt ttl.toNat_lt]
  rw [hreplies]
  simp [Objects.reply, hnumber]

theorem second_socket_reads_its_ttl :
    reusedProcess.replies.head? = some (1, .ttl (.ok 9)) := by
  have hleaves : ∀ event ∈ [ProcessEvent.drop 2,
        .io 1 oneDatagram (connectedOs [.ok ()])],
      Objects.Leaves 1 .ipTtl event := by
    simp [Objects.Leaves]
  exact @ttl_after_setTtl linuxBuild plainReport reusedProcess
    (fun _ _ _ => rfl) 1 9 (by decide) (by decide) (reusingEvents.take 5)
    [.drop 2, .io 1 oneDatagram (connectedOs [.ok ()])] (.ok ()) (.ok ())
    hleaves run_reusingEvents

end Process

end Binger.Socket
