import Binger.Batch.Send
import Binger.Foundation.Bounded
import Binger.Foundation.Runs

/-!
# Histories of a send batch

Seen through its live entries a send batch is a bounded list: `push` appends or
is refused, `clear` empties it.  What the slot vector holds behind the live
entries does not show in that view.

It shows in `entry`, which is bounded by the slot vector: a slot that was used
before a `clear` can be read until it is written again, with the pointer to a
buffer that its owner may have freed.
-/

namespace Binger

open Binger.Foundation

namespace SendBatchRaw

/-! ## The bounded list -/

theorem entries_length_le (batch : SendBatchRaw) :
    batch.entries.length ≤ batch.slotsCapacity := by
  have := batch.len_le
  have := batch.slots_le
  rw [entries_length]
  omega

def view (batch : SendBatchRaw) : Bounded SendSlot where
  items := batch.entries
  capacity := batch.slotsCapacity
  length_le := batch.entries_length_le

theorem push_eq_ok {batch next : SendBatchRaw} {data : Slice}
    {addr : Option SocketAddr} (h : batch.push data addr = .ok next) :
    batch.len < batch.slotsCapacity ∧ next.len = batch.len + 1 ∧
      next.slotsCapacity = batch.slotsCapacity ∧
      next.slots = batch.slots.take batch.len ++ ⟨data, addr⟩ ::
        batch.slots.drop (batch.len + 1) := by
  have hlen := batch.len_le
  unfold push at h
  split at h
  · cases h
  · next hroom =>
      split at h
      · next hgrow =>
          cases h
          have hall : batch.slots.length = batch.len := by omega
          refine ⟨by omega, rfl, rfl, ?_⟩
          rw [List.take_of_length_le (by omega), List.drop_eq_nil_of_le
            (by omega)]
      · next hgrow =>
          cases h
          refine ⟨by omega, rfl, rfl, ?_⟩
          exact List.set_eq_take_append_cons_drop.trans
            (if_pos (by omega))

theorem push_eq_error_iff {batch : SendBatchRaw} {data : Slice}
    {addr : Option SocketAddr} {error : BingerError} :
    batch.push data addr = .error error ↔
      batch.len = batch.slotsCapacity ∧
        error = .batchFull batch.slotsCapacity := by
  have := batch.len_le
  have := batch.slots_le
  unfold push
  split
  · next hfull =>
      rw [Except.error.injEq]
      constructor
      · rintro rfl
        exact ⟨by omega, rfl⟩
      · rintro ⟨-, rfl⟩
        rfl
  · next hroom =>
      split <;> simp only [reduceCtorEq, false_iff, not_and] <;> omega

theorem entries_push {batch next : SendBatchRaw} {data : Slice}
    {addr : Option SocketAddr} (h : batch.push data addr = .ok next) :
    next.entries = batch.entries ++ [⟨data, addr⟩] := by
  rcases push_eq_ok h with ⟨-, hlen, -, hslots⟩
  have hle := batch.len_le
  rw [entries, entries, hlen, hslots, List.take_append,
    List.take_of_length_le (by simp), List.length_take]
  simp [Nat.min_eq_left hle]

theorem view_push (batch : SendBatchRaw) (data : Slice)
    (addr : Option SocketAddr) :
    (batch.push data addr).toOption.map view =
      batch.view.push ⟨data, addr⟩ := by
  symm
  cases hpush : batch.push data addr with
  | error error =>
      rw [push_eq_error_iff] at hpush
      exact Bounded.push_eq_none_iff.mpr
        ((entries_length batch).trans hpush.1)
  | ok next =>
      rcases push_eq_ok hpush with ⟨hroom, -, hcapacity, -⟩
      refine Bounded.push_eq_some_iff.mpr ⟨?_, entries_push hpush, hcapacity⟩
      exact (entries_length batch).trans_lt hroom

theorem view_clear (batch : SendBatchRaw) :
    batch.clear.view = batch.view.clear := by
  ext1
  · simp [view, entries, clear, Bounded.clear, Bounded.empty]
  · rfl

/-! ## Operations -/

end SendBatchRaw

inductive SendOp where
  | push (data : Slice) (addr : Option SocketAddr)
  | clear
  deriving DecidableEq

def SendBatchRaw.perform (batch : SendBatchRaw) :
    SendOp → Except BingerError Unit × SendBatchRaw
  | .push data addr =>
      match batch.push data addr with
      | .ok batch => (.ok (), batch)
      | .error error => (.error error, batch)
  | .clear => (.ok (), batch.clear)

/-- The pushes that were accepted since the last `clear`. -/
def SendOp.record (pushed : List SendSlot) (result : Except BingerError Unit) :
    SendOp → List SendSlot
  | .push data addr =>
      match result with
      | .ok () => pushed ++ [⟨data, addr⟩]
      | .error _ => pushed
  | .clear => []

structure SendTrace where
  batch : SendBatchRaw
  pushed : List SendSlot

namespace SendTrace

def start (capacity : Nat) : SendTrace := ⟨.withCapacity capacity, []⟩

def step (trace : SendTrace) (op : SendOp) : Option SendTrace :=
  match trace.batch.perform op with
  | (result, batch) => some ⟨batch, op.record trace.pushed result⟩

structure Tracks (capacity : Nat) (trace : SendTrace) : Prop where
  items : trace.batch.view.items = trace.pushed
  capacity : trace.batch.view.capacity = capacity

theorem step_cases {trace next : SendTrace} {op : SendOp}
    (h : step trace op = some next) :
    (∃ data addr, op = .push data addr ∧
      trace.batch.push data addr = .ok next.batch ∧
      next.pushed = trace.pushed ++ [⟨data, addr⟩]) ∨
    (∃ data addr error, op = .push data addr ∧
      trace.batch.push data addr = .error error ∧ next = trace) ∨
    op = .clear ∧ next = ⟨trace.batch.clear, []⟩ := by
  cases op with
  | clear =>
      right
      right
      exact ⟨rfl, by simpa [step, SendBatchRaw.perform, SendOp.record]
        using h.symm⟩
  | push data addr =>
      cases hpush : trace.batch.push data addr with
      | ok batch =>
          left
          obtain rfl : ⟨batch, trace.pushed ++ [⟨data, addr⟩]⟩ = next := by
            simpa [step, SendBatchRaw.perform, hpush, SendOp.record] using h
          exact ⟨data, addr, rfl, hpush, rfl⟩
      | error error =>
          right
          left
          obtain rfl : trace = next := by
            simpa [step, SendBatchRaw.perform, hpush, SendOp.record] using h
          exact ⟨data, addr, error, rfl, hpush, rfl⟩

theorem Tracks.start (capacity : Nat) :
    Tracks capacity (start capacity) :=
  ⟨rfl, rfl⟩

theorem Tracks.step {capacity : Nat} {trace next : SendTrace} {op : SendOp}
    (tracks : Tracks capacity trace) (h : step trace op = some next) :
    Tracks capacity next := by
  rcases step_cases h with ⟨data, addr, -, hpush, hpushed⟩ |
    ⟨data, addr, error, -, -, rfl⟩ | ⟨-, rfl⟩
  · have hview := SendBatchRaw.view_push trace.batch data addr
    rw [hpush] at hview
    rcases Bounded.push_eq_some_iff.mp hview.symm with ⟨-, hitems, hcapacity⟩
    exact ⟨by rw [hitems, tracks.items, hpushed],
      hcapacity.trans tracks.capacity⟩
  · exact tracks
  · refine ⟨?_, tracks.capacity⟩
    rw [SendBatchRaw.view_clear]
    rfl

theorem Tracks.run {capacity : Nat} {trace final : SendTrace}
    {ops : List SendOp} (tracks : Tracks capacity trace)
    (h : run SendTrace.step trace ops = some final) : Tracks capacity final :=
  run_preserves (fun _ _ _ tracks hstep => tracks.step hstep) tracks h

theorem Tracks.len_eq {capacity : Nat} {trace : SendTrace}
    (tracks : Tracks capacity trace) :
    trace.batch.len = trace.pushed.length := by
  rw [← tracks.items]
  exact trace.batch.entries_length.symm

end SendTrace

/-- Behind any run the batch holds the pushes that were accepted since the last
`clear`, and refuses a further one exactly when it is full. -/
theorem SendBatchRaw.bounded_list (capacity : Nat) (ops : List SendOp) :
    ∃ trace, run SendTrace.step (.start capacity) ops = some trace ∧
      trace.batch.len = trace.pushed.length ∧
      (∀ i (hi : i < trace.pushed.length),
        trace.batch.entry i = .ok (trace.pushed.get ⟨i, hi⟩)) ∧
      (∀ data addr,
        ((trace.batch.perform (.push data addr)).1 =
            .error (.batchFull capacity) ↔ trace.batch.len = capacity) ∧
        ∀ error, (trace.batch.perform (.push data addr)).1 = .error error →
          error = .batchFull capacity ∧
            (trace.batch.perform (.push data addr)).2 = trace.batch) ∧
      trace.batch.slots.length ≤ capacity := by
  rcases exists_run (fun _ _ => ⟨_, rfl⟩) (SendTrace.start capacity) ops with
    ⟨trace, hrun⟩
  have tracks := (SendTrace.Tracks.start capacity).run hrun
  have hcapacity : trace.batch.slotsCapacity = capacity := tracks.capacity
  refine ⟨trace, hrun, tracks.len_eq, ?_, ?_, ?_⟩
  · rcases trace with ⟨batch, pushed⟩
    obtain rfl : batch.entries = pushed := tracks.items
    intro i hi
    exact batch.entry_eq_entries hi
  · intro data addr
    have herror : ∀ error, trace.batch.push data addr = .error error ↔
        trace.batch.len = capacity ∧ error = .batchFull capacity := by
      intro error
      rw [push_eq_error_iff, hcapacity]
    cases hpush : trace.batch.push data addr with
    | ok next =>
        have hroom : trace.batch.len ≠ capacity := by
          intro hfull
          have := (herror (.batchFull capacity)).mpr ⟨hfull, rfl⟩
          rw [hpush] at this
          cases this
        simp [perform, hpush, hroom]
    | error error =>
        rcases (herror error).mp hpush with ⟨hfull, rfl⟩
        simp [perform, hpush, hfull]
  · rw [← hcapacity]
    exact trace.batch.slots_le

/-! ## `SendBatch<N>` -/

structure SendBatch (n : Nat) where
  raw : SendBatchRaw

inductive SendBatchOp where
  | push (buf : Slice) (addr : SocketAddr)
  | pushConnected (buf : Slice)
  | clear
  | deref (op : SendOp)
  deriving DecidableEq

namespace SendBatch

variable {n : Nat}

def new (n : Nat) : SendBatch n := ⟨.withCapacity n⟩

def push (batch : SendBatch n) (buf : Slice) (addr : SocketAddr) :
    Except BingerError Unit × SendBatch n :=
  match batch.raw.perform (.push buf (some addr)) with
  | (result, raw) => (result, ⟨raw⟩)

def pushConnected (batch : SendBatch n) (buf : Slice) :
    Except BingerError Unit × SendBatch n :=
  match batch.raw.perform (.push buf none) with
  | (result, raw) => (result, ⟨raw⟩)

def clear (batch : SendBatch n) : SendBatch n := ⟨batch.raw.clear⟩

/-- An operation on the batch, or on the raw batch behind `DerefMut`. -/
def perform (batch : SendBatch n) :
    SendBatchOp → Except BingerError Unit × SendBatch n
  | .push buf addr => batch.push buf addr
  | .pushConnected buf => batch.pushConnected buf
  | .clear => (.ok (), batch.clear)
  | .deref op =>
      match batch.raw.perform op with
      | (result, raw) => (result, ⟨raw⟩)

end SendBatch

def SendBatchOp.raw : SendBatchOp → SendOp
  | .push buf addr => .push buf (some addr)
  | .pushConnected buf => .push buf none
  | .clear => .clear
  | .deref op => op

theorem SendBatch.perform_eq {n : Nat} (batch : SendBatch n)
    (op : SendBatchOp) :
    batch.perform op = ((batch.raw.perform op.raw).1,
      ⟨(batch.raw.perform op.raw).2⟩) := by
  cases op <;> rfl

def SendBatch.step (n : Nat) (trace : SendTrace) (op : SendBatchOp) :
    Option SendTrace :=
  match (SendBatch.mk trace.batch : SendBatch n).perform op with
  | (result, batch) => some ⟨batch.raw, op.raw.record trace.pushed result⟩

theorem SendBatch.step_eq (n : Nat) (trace : SendTrace) (op : SendBatchOp) :
    SendBatch.step n trace op = trace.step op.raw := by
  rw [step, perform_eq, SendTrace.step]

/-! ## Reading behind the live entries -/

/-- No index at or behind `len` can be read, and what can be read was pushed
since the last `clear`. -/
structure SendTrace.Sealed (trace : SendTrace) : Prop where
  panics : ∀ idx, trace.batch.len ≤ idx →
    ∃ panic, trace.batch.entry idx = .error panic
  pushed : ∀ idx slot, trace.batch.entry idx = .ok slot →
    slot ∈ trace.pushed

theorem SendBatchRaw.entry_eq_error_iff (batch : SendBatchRaw) (idx : Nat) :
    (∃ panic, batch.entry idx = .error panic) ↔
      batch.slots.length ≤ idx := by
  rw [entry]
  cases hslot : batch.slots[idx]? with
  | none => simpa using List.getElem?_eq_none_iff.mp hslot
  | some slot =>
      rcases List.getElem?_eq_some_iff.mp hslot with ⟨hidx, -⟩
      simpa using hidx

theorem SendTrace.sealed_iff {capacity : Nat} {trace : SendTrace}
    (tracks : Tracks capacity trace) :
    trace.Sealed ↔ trace.batch.slots.length = trace.batch.len := by
  have hle := trace.batch.len_le
  constructor
  · intro h
    have hpanics := (trace.batch.entry_eq_error_iff trace.batch.len).mp
      (h.panics _ le_rfl)
    omega
  · intro hall
    constructor
    · intro idx hidx
      exact (trace.batch.entry_eq_error_iff idx).mpr (by omega)
    · intro idx slot hentry
      have hslot : trace.batch.slots[idx]? = some slot := by
        rw [SendBatchRaw.entry] at hentry
        split at hentry
        · next found =>
            cases hentry
            exact found
        · cases hentry
      rw [← tracks.items]
      change slot ∈ trace.batch.slots.take trace.batch.len
      rw [List.take_of_length_le hall.le]
      exact List.mem_of_getElem? hslot

theorem SendTrace.sealed_step {capacity : Nat} {trace next : SendTrace}
    {op : SendOp} (tracks : Tracks capacity trace) (hsealed : trace.Sealed)
    (h : step trace op = some next) :
    next.Sealed ↔ (op = .clear → trace.batch.len = 0) := by
  have hall := (sealed_iff tracks).mp hsealed
  rw [sealed_iff (tracks.step h)]
  rcases step_cases h with ⟨data, addr, rfl, hpush, -⟩ |
    ⟨data, addr, error, rfl, -, rfl⟩ | ⟨rfl, rfl⟩
  · rcases SendBatchRaw.push_eq_ok hpush with ⟨-, hlen, -, hslots⟩
    rw [hslots, hlen]
    simp [hall]
  · simp [hall]
  · simp only [forall_const]
    rw [← hall]
    rfl

theorem SendTrace.sealed_run_iff {α : Type} (raw : α → SendOp)
    {step' : SendTrace → α → Option SendTrace}
    (hstep : ∀ trace op, step' trace op = step trace (raw op))
    (capacity : Nat) (ops : List α) :
    EveryStep step' (fun trace op _ => raw op = .clear → trace.batch.len = 0)
        (start capacity) ops ↔
      ∀ before after reached, ops = before ++ after →
        run step' (start capacity) before = some reached →
          reached.Sealed := by
  have hinit := Tracks.start capacity
  refine everyStep_iff_reached_of_inv ?_ ?_ hinit
    ((sealed_iff hinit).mpr rfl) ops
  · intro trace op next tracks h
    rw [hstep] at h
    exact tracks.step h
  · intro trace op next tracks hsealed h
    rw [hstep] at h
    exact sealed_step tracks hsealed h

/-- The runs in which nothing from before a `clear` is handed out are those
that clear empty batches only, for a raw batch and for a `SendBatch<N>`. -/
theorem SendBatchRaw.cleared_unreachable_iff (capacity : Nat) :
    (∀ ops, EveryStep SendTrace.step (fun trace op _ =>
        op = .clear → trace.batch.len = 0) (.start capacity) ops ↔
      ∀ before after reached, ops = before ++ after →
        run SendTrace.step (.start capacity) before = some reached →
          reached.Sealed) ∧
    ∀ ops, EveryStep (SendBatch.step capacity) (fun trace op _ =>
        op.raw = .clear → trace.batch.len = 0)
          ⟨(SendBatch.new capacity).raw, []⟩ ops ↔
      ∀ before after reached, ops = before ++ after →
        run (SendBatch.step capacity) ⟨(SendBatch.new capacity).raw, []⟩
          before = some reached → reached.Sealed := by
  constructor
  · intro ops
    exact SendTrace.sealed_run_iff id (fun _ _ => rfl) capacity ops
  · intro ops
    exact SendTrace.sealed_run_iff SendBatchOp.raw (SendBatch.step_eq capacity)
      capacity ops

/-- A payload that was cleared away is still behind index 0. -/
theorem cleared_payload_readable :
    ∃ trace, run SendTrace.step (.start 1)
        [.push ⟨4096, [1, 2]⟩ none, .clear] = some trace ∧
      trace.batch.len = 0 ∧
      trace.batch.entry 0 = .ok ⟨⟨4096, [1, 2]⟩, none⟩ ∧ ¬ trace.Sealed := by
  refine ⟨_, rfl, rfl, rfl, ?_⟩
  intro hsealed
  rcases hsealed.panics 0 le_rfl with ⟨panic, hpanic⟩
  cases hpanic

end Binger
