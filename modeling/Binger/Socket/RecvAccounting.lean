import Binger.Socket.Network

/-!
# Packets received

`packets_received` grows by what an attempt returns.  No datagram is lost
between the counter and the caller: over every run of the network it has grown
by the number of packets shown, and these and the queue make up what has
arrived.
-/

namespace Binger.Socket

open Binger.Foundation Binger.Platform Binger.Sockaddr

namespace Endpoint

def packetsReceived (endpoint : Endpoint) : Option Nat :=
  endpoint.world.socket.metrics.map BingerMetrics.packetsReceived

theorem settledSocket_packetsReceived (call : Tasks.SendCall)
    (result : IoResult Nat) (now : Nat) (socket : BingerUdp) :
    (Tasks.settledSocket call result now socket).metrics.map
        BingerMetrics.packetsReceived =
      socket.metrics.map BingerMetrics.packetsReceived := by
  have herror : ∀ error metrics,
      (BingerUdp.countSendError error metrics).packetsReceived =
        metrics.packetsReceived := by
    intro error metrics
    rw [BingerUdp.countSendError]
    split <;> rfl
  have hwait : (Tasks.settledSocket call result now socket).metrics =
      (call.payload.count result socket).metrics := by
    rw [Tasks.settledSocket]
    split
    · cases call.payload <;> rfl
    · rfl
  rw [hwait]
  cases call.payload with
  | batch entries =>
      cases result with
      | ok sent => simp [Tasks.Payload.count, Function.comp_def,
          BingerUdp.countSent]
      | error error => simp [Tasks.Payload.count, Function.comp_def, herror]
  | gso data segmentSize => rfl

theorem tryRecvBatch_packetsReceived {bufSize : Nat}
    {platform : RecvBatchRaw bufSize → Os → RecvOutcome bufSize × Os}
    {socket socket' : BingerUdp} {batch batch' : RecvBatchRaw bufSize}
    {os os' : Os} {result : IoResult Nat}
    (h : socket.tryRecvBatch platform batch os =
      (.ok (result, socket', batch'), os')) :
    socket'.metrics.map BingerMetrics.packetsReceived =
      socket.metrics.map fun metrics =>
        metrics.packetsReceived + result.toOption.getD 0 := by
  have herror : ∀ error metrics,
      (BingerUdp.countRecvError error metrics).packetsReceived =
        metrics.packetsReceived := by
    intro error metrics
    rw [BingerUdp.countRecvError]
    split <;> rfl
  rw [BingerUdp.tryRecvBatch] at h
  split at h
  · cases h
  · cases h
    simp [Function.comp_def, herror, Except.toOption]
  · cases h
    simp [Function.comp_def, BingerUdp.countReceived, Except.toOption]

def Counts (endpoint next : Endpoint) : Prop :=
  ∃ n, next.shown.length = endpoint.shown.length + n ∧
    next.packetsReceived = endpoint.packetsReceived.map (· + n)

theorem Counts.quiet {endpoint next : Endpoint}
    (hshown : next.shown = endpoint.shown)
    (hcount : next.packetsReceived = endpoint.packetsReceived) :
    Counts endpoint next := by
  refine ⟨0, by rw [hshown, Nat.add_zero], ?_⟩
  rw [hcount]
  cases endpoint.packetsReceived <;> rfl

theorem attempt_counts {endpoint : Endpoint} {r : Nat} {receiver : RecvTask}
    (hsingle : endpoint.Single)
    (hreceiver : endpoint.receivers[r]? = some receiver) (now : Nat)
    (h : Undisturbed endpoint.world.socket.backend endpoint.features
      receiver.bufSize endpoint.world.os) :
    Counts endpoint (endpoint.attempt r now receiver) := by
  obtain ⟨result, batch', os', taken, hcall, htakes⟩ :=
    tryRecvBatch_takes endpoint.world.socket.host receiver.batch h
  obtain ⟨socket', htry⟩ :=
    BingerUdp.tryRecvBatch_of_platform endpoint.world.socket hcall
  have hcounted := tryRecvBatch_packetsReceived htry
  have htaken : result.toOption.getD 0 = taken.length := by
    cases result with
    | ok n => exact htakes.count n rfl
    | error error => rw [htakes.failed error rfl]; rfl
  rw [htaken] at hcounted
  have hcounted' : socket'.metrics.map BingerMetrics.packetsReceived =
      endpoint.packetsReceived.map (· + taken.length) := by
    rw [hcounted, packetsReceived, Option.map_map]
    rfl
  cases hwaits : receiver.method.waits result with
  | true =>
      obtain rfl := nothing_taken_of_waits htakes hwaits
      rw [attempt_of_wait r now htry hwaits]
      exact ⟨0, rfl, hcounted'⟩
  | false =>
      have hreads := reads_of_takes htakes hwaits
        (hsingle receiver (List.mem_of_getElem? hreceiver))
      rw [attempt_of_done r now htry hwaits hreads]
      refine ⟨taken.length, ?_, hcounted'⟩
      rw [List.length_append, List.length_map, List.length_map]

theorem step_counts {endpoint next : Endpoint} {event : EndpointEvent}
    (hsingle : endpoint.Single) (hcalm : endpoint.Calm event)
    (h : endpoint.step event = some next) : Counts endpoint next := by
  cases event with
  | send event =>
      obtain ⟨world, hworld, rfl⟩ := Option.map_eq_some_iff.mp h
      refine .quiet rfl ?_
      cases Tasks.step_eq_some_iff.mp hworld with
      | start | issue | wake | cancel => rfl
      | @settle t now call result htask =>
          exact settledSocket_packetsReceived call result now
            endpoint.world.socket
  | attempt r now =>
      rw [step] at h
      split at h
      · next receiver hreceiver =>
          split at h
          · cases h
          · cases h
            exact attempt_counts hsingle hreceiver now
              (hcalm receiver hreceiver)
      · cases h
  | wake r outcome =>
      rw [step] at h
      split at h
      · split at h
        · split at h <;> cases h <;> exact .quiet rfl rfl
        · cases h
      · cases h
  | cancel r =>
      rw [step] at h
      split at h
      · split at h
        · cases h
          exact .quiet rfl rfl
        · cases h
      · cases h
  | startRecv | sendAnswer | recvFault =>
      cases h
      exact .quiet rfl rfl

end Endpoint

namespace Network

variable {ι : Type} [DecidableEq ι]

theorem step_counts {start net next : ι → Endpoint} {past : List (Event ι)}
    {event : Event ι} (h : Consistent start past net) (hcalm : Calm net event)
    (hstep : step net event = some next) (j : ι) :
    (net j).Counts (next j) := by
  cases event with
  | act i event =>
      obtain ⟨endpoint, hendpoint, rfl⟩ := Option.map_eq_some_iff.mp hstep
      by_cases hj : j = i
      · subst hj
        rw [Function.update_self]
        exact Endpoint.step_counts (h.single j) hcalm hendpoint
      · rw [Function.update_of_ne hj]
        exact .quiet rfl rfl
  | deliver i k j' control =>
      obtain ⟨arrived, -, rfl⟩ := Option.map_eq_some_iff.mp hstep
      by_cases hj : j = j'
      · subst hj
        rw [Function.update_self]
        exact .quiet rfl rfl
      · rw [Function.update_of_ne hj]
        exact .quiet rfl rfl

/-- At every endpoint, `packets_received` has grown by the number of packets
shown, and these and the queue account for everything that has arrived. -/
theorem received_counted {start final : ι → Endpoint}
    {events : List (Event ι)} (hfresh : Fresh start)
    (hcalm : EveryStep step (fun net event _ => Calm net event) start events)
    (hrun : run step start events = some final) (j : ι) :
    (final j).packetsReceived =
        (start j).packetsReceived.map (· + (final j).shown.length) ∧
      (final j).shown.length + (stock (final j).world.os.recvScript).length =
        (arrivals final j events).length := by
  have hinit : Consistent start [] start ∧ (start j).packetsReceived =
      (start j).packetsReceived.map (· + (start j).shown.length) := by
    refine ⟨hfresh.consistent, ?_⟩
    rw [hfresh.shown j]
    cases (start j).packetsReceived <;> rfl
  have hboth := @EveryStep.invariant _ _ step _
    (fun past net => Consistent start past net ∧
      (net j).packetsReceived =
        (start j).packetsReceived.map (· + (net j).shown.length)) ?_ [] start
    final events hinit hcalm hrun
  · obtain ⟨hconsistent, hcounted⟩ := hboth
    refine ⟨hcounted, ?_⟩
    obtain ⟨taken, hshown, hqueue⟩ := hconsistent.arrived j
    rw [List.nil_append] at hqueue
    rw [hqueue, List.length_append, hshown.length_eq]
  · rintro past net event next ⟨hconsistent, hcounted⟩ hevent hstep
    refine ⟨hconsistent.step hevent hstep, ?_⟩
    obtain ⟨n, hshown, hcount⟩ := step_counts hconsistent hevent hstep j
    rw [hcount, hcounted, hshown, Option.map_map]
    congr 1
    funext before
    exact Nat.add_assoc before _ n

theorem exchanged_packets_are_counted :
    ∃ final, run step pair exchange = some final ∧
      (final true).packetsReceived = some 1 ∧
      (final true).shown.length +
          (stock (final true).world.os.recvScript).length =
        (arrivals final true exchange).length := by
  obtain ⟨final, hrun, hshown, -⟩ := exchange_runs
  obtain ⟨hcounted, harrived⟩ :=
    received_counted pair_fresh exchange_calm hrun true
  rw [hshown] at hcounted
  exact ⟨final, hrun, hcounted, harrived⟩

end Network

end Binger.Socket
