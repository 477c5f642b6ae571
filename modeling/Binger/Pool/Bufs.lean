import Mathlib.Algebra.BigOperators.Group.Multiset.Basic
import Mathlib.Algebra.Order.Group.Multiset
import Mathlib.Tactic.Abel
import Binger.Foundation.Bounded
import Binger.Foundation.Runs

/-!
# The buffer pool

All clones of a pool share one bounded queue.  `get` pops from it and then
works on the popped buffer alone, so other threads can step in between; `put`
is one push, and a buffer that finds no room is dropped.

Between the two calls the holder of a buffer can do with it what it likes:
write, grow or shrink it, split it, hand it to another thread, and give back
buffers that it got elsewhere.  Every buffer has an identity of its own, which
a buffer that is split off does not share.
-/

namespace Binger.Pool

open Binger.Foundation

/-! ## Buffers -/

structure BytesMut where
  bytes : List UInt8
  capacity : Nat
  len_le : bytes.length ≤ capacity

namespace BytesMut

theorem length_zeroed_le (n slack : Nat) :
    (List.replicate n (0 : UInt8)).length ≤ n + slack := by
  rw [List.length_replicate]
  omega

/-- The allocator may give `slack` bytes more than it was asked for. -/
def zeroed (n slack : Nat) : BytesMut where
  bytes := List.replicate n 0
  capacity := n + slack
  len_le := length_zeroed_le n slack

def clear (buf : BytesMut) : BytesMut where
  bytes := []
  capacity := buf.capacity
  len_le := Nat.zero_le buf.capacity

end BytesMut

structure Buffer where
  id : Nat
  data : BytesMut

/-! ## The pool and its callers -/

structure GetCall where
  caller : Nat
  bufSize : Nat
  popped : Option Buffer

def GetCall.finish (call : GetCall) (fresh slack : Nat) : Buffer × Nat :=
  match call.popped with
  | some buffer => (⟨buffer.id, buffer.data.clear⟩, fresh)
  | none => (⟨fresh, .zeroed call.bufSize slack⟩, fresh + 1)

structure Holding where
  caller : Nat
  buffer : Buffer

/-- The shared queue, the `buf_size` of every clone, the calls under way, the
buffers in the hands of callers, and the next identity. -/
structure System where
  queue : Bounded Buffer
  clones : List Nat
  calls : List GetCall
  held : List Holding
  fresh : Nat

inductive Action where
  | clone (pool : Nat)
  | pop (caller pool : Nat)
  | finish (call slack : Nat)
  | put (holding pool : Nat)
  | use (holding : Nat) (data : BytesMut)
  | create (caller : Nat) (data : BytesMut)
  | give (holding caller : Nat)
  | drop (holding : Nat)

/-- `BufferPool::new`.  `ArrayQueue::new` panics without room for a buffer. -/
def new (capacity bufSize : Nat) : Option System :=
  if capacity = 0 then none
  else some ⟨.empty capacity, [bufSize], [], [], 0⟩

namespace System

def available (system : System) : Nat := system.queue.items.length

def capacity (system : System) : Nat := system.queue.capacity

/-- `put` hands the buffer to the queue, which drops it when it is full. -/
def put (system : System) (buffer : Buffer) : System :=
  match system.queue.push buffer with
  | some queue => { system with queue := queue }
  | none => system

def pop (system : System) (caller bufSize : Nat) : System :=
  match system.queue.pop with
  | some (buffer, queue) =>
      { system with
        queue := queue
        calls := system.calls ++ [⟨caller, bufSize, some buffer⟩] }
  | none =>
      { system with
        calls := system.calls ++ [⟨caller, bufSize, none⟩] }

def step (system : System) : Action → Option System
  | .clone pool => do
      let bufSize ← system.clones[pool]?
      return { system with clones := system.clones ++ [bufSize] }
  | .pop caller pool => do
      let bufSize ← system.clones[pool]?
      return system.pop caller bufSize
  | .finish call slack => do
      let running ← system.calls[call]?
      let (buffer, fresh) := running.finish system.fresh slack
      return { system with
        calls := system.calls.eraseIdx call
        held := system.held ++ [⟨running.caller, buffer⟩]
        fresh := fresh }
  | .put holding pool => do
      let _ ← system.clones[pool]?
      let given ← system.held[holding]?
      return { system with
        held := system.held.eraseIdx holding }.put given.buffer
  | .use holding data => do
      let ⟨caller, buffer⟩ ← system.held[holding]?
      return { system with
        held := system.held.set holding ⟨caller, ⟨buffer.id, data⟩⟩ }
  | .create caller data =>
      return { system with
        held := system.held ++ [⟨caller, ⟨system.fresh, data⟩⟩]
        fresh := system.fresh + 1 }
  | .give holding caller => do
      let ⟨_, buffer⟩ ← system.held[holding]?
      return { system with held := system.held.set holding ⟨caller, buffer⟩ }
  | .drop holding => do
      let _ ← system.held[holding]?
      return { system with held := system.held.eraseIdx holding }

def buffers (system : System) : List Buffer :=
  system.queue.items ++ system.calls.filterMap GetCall.popped ++
    system.held.map Holding.buffer

theorem step_cases {system next : System} {action : Action}
    (h : step system action = some next) :
    (∃ pool bufSize, action = .clone pool ∧
      system.clones[pool]? = some bufSize ∧
      next = { system with clones := system.clones ++ [bufSize] }) ∨
    (∃ caller pool bufSize, action = .pop caller pool ∧
      system.clones[pool]? = some bufSize ∧
      next = system.pop caller bufSize) ∨
    (∃ call slack running, action = .finish call slack ∧
      system.calls[call]? = some running ∧
      next = { system with
        calls := system.calls.eraseIdx call
        held := system.held ++
          [⟨running.caller, (running.finish system.fresh slack).1⟩]
        fresh := (running.finish system.fresh slack).2 }) ∨
    (∃ holding pool given, action = .put holding pool ∧
      system.held[holding]? = some given ∧
      next = { system with
        held := system.held.eraseIdx holding }.put given.buffer) ∨
    (∃ holding given new, ((∃ data, action = .use holding data) ∨
        ∃ caller, action = .give holding caller) ∧
      system.held[holding]? = some given ∧
      new.buffer.id = given.buffer.id ∧
      next = { system with held := system.held.set holding new }) ∨
    (∃ caller data, action = .create caller data ∧
      next = { system with
        held := system.held ++ [⟨caller, ⟨system.fresh, data⟩⟩]
        fresh := system.fresh + 1 }) ∨
    ∃ holding dropped, action = .drop holding ∧
      system.held[holding]? = some dropped ∧
      next = { system with held := system.held.eraseIdx holding } := by
  cases action <;>
    simp only [step, bind, Option.bind_eq_some_iff, pure,
      Option.some.injEq] at h
  case clone pool =>
    rcases h with ⟨bufSize, hpool, rfl⟩
    exact .inl ⟨pool, bufSize, rfl, hpool, rfl⟩
  case pop caller pool =>
    rcases h with ⟨bufSize, hpool, rfl⟩
    exact .inr (.inl ⟨caller, pool, bufSize, rfl, hpool, rfl⟩)
  case finish call slack =>
    rcases h with ⟨running, hcall, rfl⟩
    exact .inr (.inr (.inl ⟨call, slack, running, rfl, hcall, rfl⟩))
  case put holding pool =>
    rcases h with ⟨-, -, given, hheld, rfl⟩
    exact .inr (.inr (.inr (.inl ⟨holding, pool, given, rfl, hheld, rfl⟩)))
  case use holding data =>
    rcases h with ⟨given, hheld, rfl⟩
    exact .inr (.inr (.inr (.inr (.inl ⟨holding, given,
      ⟨given.caller, ⟨given.buffer.id, data⟩⟩, .inl ⟨data, rfl⟩, hheld, rfl,
      rfl⟩))))
  case create caller data =>
    exact .inr (.inr (.inr (.inr (.inr (.inl ⟨caller, data, rfl, h.symm⟩)))))
  case give holding caller =>
    rcases h with ⟨given, hheld, rfl⟩
    exact .inr (.inr (.inr (.inr (.inl ⟨holding, given,
      ⟨caller, given.buffer⟩, .inr ⟨caller, rfl⟩, hheld, rfl, rfl⟩))))
  case drop holding =>
    rcases h with ⟨dropped, hheld, rfl⟩
    exact .inr (.inr (.inr (.inr (.inr (.inr ⟨holding, dropped, rfl, hheld,
      rfl⟩)))))

end System

/-! ## Ownership -/

def GetCall.ids (call : GetCall) : Multiset Nat :=
  match call.popped with
  | some buffer => {buffer.id}
  | none => 0

namespace System

def ids (system : System) : Multiset Nat :=
  (system.queue.items : Multiset Buffer).map Buffer.id +
    ((system.calls : Multiset GetCall).map GetCall.ids).sum +
    (system.held : Multiset Holding).map fun holding => holding.buffer.id

theorem sum_ids (calls : List GetCall) :
    ((calls : Multiset GetCall).map GetCall.ids).sum =
      ((calls.filterMap GetCall.popped).map Buffer.id : List Nat) := by
  induction calls with
  | nil => rfl
  | cons call calls ih =>
      rw [← Multiset.cons_coe, Multiset.map_cons, Multiset.sum_cons, ih,
        GetCall.ids, List.filterMap_cons]
      cases call.popped with
      | none => exact Multiset.zero_add _
      | some buffer => exact Multiset.singleton_add _ _

theorem ids_eq (system : System) :
    system.ids = (system.buffers.map Buffer.id : List Nat) := by
  rw [ids, sum_ids, buffers]
  simp [Function.comp_def]

end System

theorem coe_concat {α : Type} (list : List α) (item : α) :
    (list ++ [item] : Multiset α) = (list : Multiset α) + {item} := by
  rw [← Multiset.coe_add, Multiset.coe_singleton]

theorem coe_eq_add_eraseIdx {α : Type} {list : List α} {i : Nat} {item : α}
    (h : list[i]? = some item) :
    (list : Multiset α) = {item} + (list.eraseIdx i : Multiset α) := by
  rcases List.getElem?_eq_some_iff.mp h with ⟨hi, rfl⟩
  exact Multiset.coe_eq_coe.mpr (List.getElem_cons_eraseIdx_perm hi).symm

theorem coe_set_eq_add_eraseIdx {α : Type} {list : List α} {i : Nat}
    {item : α} (h : list[i]? = some item) (new : α) :
    (list.set i new : Multiset α) = {new} + (list.eraseIdx i : Multiset α) := by
  rcases List.getElem?_eq_some_iff.mp h with ⟨hi, -⟩
  exact Multiset.coe_eq_coe.mpr (List.set_perm_cons_eraseIdx hi new)

namespace System

theorem ids_pop (system : System) (caller bufSize : Nat) :
    (system.pop caller bufSize).ids = system.ids := by
  rw [pop]
  split
  · next buffer queue hpop =>
      rcases Bounded.pop_eq_some_iff.mp hpop with ⟨hitems, -⟩
      simp only [ids, hitems, coe_concat, ← Multiset.cons_coe,
        Multiset.map_add, Multiset.map_singleton, Multiset.sum_add,
        Multiset.sum_singleton, GetCall.ids, ← Multiset.singleton_add]
      abel
  · simp only [ids, coe_concat, Multiset.map_add, Multiset.map_singleton,
      Multiset.sum_add, Multiset.sum_singleton, GetCall.ids, add_zero]

theorem ids_put (system : System) (buffer : Buffer) :
    (system.put buffer).ids ≤ {buffer.id} + system.ids := by
  rw [put]
  split
  · next queue hpush =>
      rcases Bounded.push_eq_some_iff.mp hpush with ⟨-, hitems, -⟩
      apply le_of_eq
      simp only [ids, hitems, coe_concat, Multiset.map_add,
        Multiset.map_singleton]
      abel
  · exact Multiset.le_add_left _ _

theorem fresh_pop (system : System) (caller bufSize : Nat) :
    (system.pop caller bufSize).fresh = system.fresh := by
  rw [pop]
  split <;> rfl

theorem fresh_put (system : System) (buffer : Buffer) :
    (system.put buffer).fresh = system.fresh := by
  rw [put]
  split <;> rfl

theorem ids_finish {system : System} {call : Nat} {running : GetCall}
    (h : system.calls[call]? = some running) (slack : Nat) :
    let next : System := { system with
      calls := system.calls.eraseIdx call
      held := system.held ++
        [⟨running.caller, (running.finish system.fresh slack).1⟩]
      fresh := (running.finish system.fresh slack).2 }
    (next.ids ≤ system.ids ∧ next.fresh = system.fresh) ∨
      (next.ids ≤ {system.fresh} + system.ids ∧
        next.fresh = system.fresh + 1) := by
  have hcalls := coe_eq_add_eraseIdx h
  cases hpopped : running.popped with
  | some buffer =>
      left
      refine ⟨le_of_eq ?_, by rw [GetCall.finish, hpopped]⟩
      simp only [GetCall.finish, hpopped, ids, hcalls, coe_concat,
        Multiset.map_add, Multiset.map_singleton, Multiset.sum_add,
        Multiset.sum_singleton, GetCall.ids]
      abel
  | none =>
      right
      refine ⟨le_of_eq ?_, by rw [GetCall.finish, hpopped]⟩
      simp only [GetCall.finish, hpopped, ids, hcalls, coe_concat,
        Multiset.map_add, Multiset.map_singleton, Multiset.sum_add,
        Multiset.sum_singleton, GetCall.ids]
      abel

theorem step_ids {system next : System} {action : Action}
    (h : step system action = some next) :
    (next.ids ≤ system.ids ∧ next.fresh = system.fresh) ∨
      (next.ids ≤ {system.fresh} + system.ids ∧
        next.fresh = system.fresh + 1) := by
  rcases step_cases h with
    ⟨pool, bufSize, -, -, rfl⟩ |
    ⟨caller, pool, bufSize, -, -, rfl⟩ |
    ⟨call, slack, running, -, hcall, rfl⟩ |
    ⟨holding, pool, given, -, hheld, rfl⟩ |
    ⟨holding, given, new, -, hheld, hid, rfl⟩ |
    ⟨caller, data, -, rfl⟩ |
    ⟨holding, dropped, -, hheld, rfl⟩
  · exact .inl ⟨le_refl _, rfl⟩
  · exact .inl ⟨(ids_pop system caller bufSize).le,
      fresh_pop system caller bufSize⟩
  · exact ids_finish hcall slack
  · left
    refine ⟨(ids_put _ _).trans (le_of_eq ?_), fresh_put _ _⟩
    simp only [ids, coe_eq_add_eraseIdx hheld, Multiset.map_add,
      Multiset.map_singleton]
    abel
  · left
    refine ⟨le_of_eq ?_, rfl⟩
    simp only [ids, coe_set_eq_add_eraseIdx hheld, coe_eq_add_eraseIdx hheld,
      Multiset.map_add, Multiset.map_singleton, hid]
  · right
    refine ⟨le_of_eq ?_, rfl⟩
    simp only [ids, coe_concat, Multiset.map_add, Multiset.map_singleton]
    abel
  · left
    refine ⟨?_, rfl⟩
    simp only [ids, coe_eq_add_eraseIdx hheld, Multiset.map_add,
      Multiset.map_singleton]
    gcongr
    exact Multiset.le_add_left _ _

/-- No buffer is in two places, and new identities are new. -/
structure Owned (system : System) : Prop where
  nodup : system.ids.Nodup
  fresh : ∀ id ∈ system.ids, id < system.fresh

theorem Owned.step {system next : System} {action : Action}
    (owned : Owned system) (h : step system action = some next) :
    Owned next := by
  rcases step_ids h with ⟨hids, hfresh⟩ | ⟨hids, hfresh⟩
  · refine ⟨Multiset.nodup_of_le hids owned.nodup, ?_⟩
    intro id hid
    rw [hfresh]
    exact owned.fresh id (Multiset.mem_of_le hids hid)
  · have hnew : system.fresh ∉ system.ids := by
      intro hmem
      exact absurd (owned.fresh _ hmem) (lt_irrefl _)
    rw [Multiset.singleton_add] at hids
    refine ⟨Multiset.nodup_of_le hids
      (Multiset.nodup_cons.mpr ⟨hnew, owned.nodup⟩), ?_⟩
    intro id hid
    rw [hfresh]
    rcases Multiset.mem_cons.mp (Multiset.mem_of_le hids hid) with rfl | hmem
    · exact Nat.lt_succ_self _
    · exact Nat.lt_succ_of_lt (owned.fresh id hmem)

/-! ## One queue and one buffer size -/

structure Pooled (capacity bufSize : Nat) (system : System) : Prop where
  capacity_eq : system.capacity = capacity
  nonempty : system.clones ≠ []
  clones : ∀ size ∈ system.clones, size = bufSize
  calls : ∀ call ∈ system.calls, call.bufSize = bufSize

theorem Pooled.withHeld {capacity bufSize : Nat} {system : System}
    (pooled : Pooled capacity bufSize system) (held : List Holding)
    (fresh : Nat) :
    Pooled capacity bufSize { system with held := held, fresh := fresh } :=
  ⟨pooled.capacity_eq, pooled.nonempty, pooled.clones, pooled.calls⟩

theorem Pooled.pop {capacity bufSize : Nat} {system : System}
    (pooled : Pooled capacity bufSize system) (caller : Nat) :
    Pooled capacity bufSize (system.pop caller bufSize) := by
  have hcalls : ∀ popped, ∀ call ∈ system.calls ++
      [(⟨caller, bufSize, popped⟩ : GetCall)], call.bufSize = bufSize := by
    intro popped call hmem
    rcases List.mem_append.mp hmem with hmem | hmem
    · exact pooled.calls call hmem
    · rw [List.mem_singleton.mp hmem]
  rw [System.pop]
  split
  · next buffer queue hpop =>
      have hcapacity := (Bounded.pop_eq_some_iff.mp hpop).2
      exact ⟨hcapacity.trans pooled.capacity_eq, pooled.nonempty,
        pooled.clones, hcalls _⟩
  · exact ⟨pooled.capacity_eq, pooled.nonempty, pooled.clones, hcalls _⟩

theorem Pooled.put {capacity bufSize : Nat} {system : System}
    (pooled : Pooled capacity bufSize system) (buffer : Buffer) :
    Pooled capacity bufSize (system.put buffer) := by
  rw [System.put]
  split
  · next queue hpush =>
      have hcapacity := (Bounded.push_eq_some_iff.mp hpush).2.2
      exact ⟨hcapacity.trans pooled.capacity_eq, pooled.nonempty,
        pooled.clones, pooled.calls⟩
  · exact pooled

theorem Pooled.step {capacity bufSize : Nat} {system next : System}
    {action : Action} (pooled : Pooled capacity bufSize system)
    (h : step system action = some next) : Pooled capacity bufSize next := by
  rcases step_cases h with
    ⟨pool, size, -, hpool, rfl⟩ |
    ⟨caller, pool, size, -, hpool, rfl⟩ |
    ⟨call, slack, running, -, hcall, rfl⟩ |
    ⟨holding, pool, given, -, hheld, rfl⟩ |
    ⟨holding, given, new, -, hheld, -, rfl⟩ |
    ⟨caller, data, -, rfl⟩ |
    ⟨holding, dropped, -, hheld, rfl⟩
  · obtain rfl := pooled.clones size (List.mem_of_getElem? hpool)
    refine ⟨pooled.capacity_eq, by simp, ?_, pooled.calls⟩
    intro other hmem
    rcases List.mem_append.mp hmem with hmem | hmem
    · exact pooled.clones other hmem
    · exact List.mem_singleton.mp hmem
  · obtain rfl := pooled.clones size (List.mem_of_getElem? hpool)
    exact pooled.pop caller
  · refine ⟨pooled.capacity_eq, pooled.nonempty, pooled.clones, ?_⟩
    intro other hmem
    exact pooled.calls other (List.mem_of_mem_eraseIdx hmem)
  · exact (pooled.withHeld _ _).put given.buffer
  · exact pooled.withHeld _ _
  · exact pooled.withHeld _ _
  · exact pooled.withHeld _ _

def Returns (P : Buffer → Prop) (system : System) (action : Action)
    (next : System) : Prop :=
  ∀ call slack, action = .finish call slack →
    ∃ holding, next.held = system.held ++ [holding] ∧ P holding.buffer

def Blank (bufSize : Nat) (buffer : Buffer) : Prop :=
  buffer.data.bytes = [] ∨ buffer.data.bytes = List.replicate bufSize 0

theorem returns_of_finish {P : Buffer → Prop} {system next : System}
    {action : Action} (h : step system action = some next)
    (hfinish : ∀ running ∈ system.calls, ∀ slack,
      P (GetCall.finish running system.fresh slack).1) :
    Returns P system action next := by
  rintro call slack rfl
  simp only [System.step, bind, Option.bind_eq_some_iff, pure,
    Option.some.injEq] at h
  rcases h with ⟨running, hcall, rfl⟩
  exact ⟨_, rfl, hfinish running (List.mem_of_getElem? hcall) slack⟩

theorem Pooled.returns_blank {capacity bufSize : Nat} {system next : System}
    {action : Action} (pooled : Pooled capacity bufSize system)
    (h : System.step system action = some next) :
    Returns (Blank bufSize) system action next := by
  apply returns_of_finish h
  intro running hmem slack
  rw [GetCall.finish]
  split
  · exact .inl rfl
  · right
    rw [← pooled.calls running hmem]
    rfl

end System

theorem owned_new {capacity bufSize : Nat} {system : System}
    (h : new capacity bufSize = some system) :
    system.Owned ∧ system.Pooled capacity bufSize := by
  rw [new] at h
  split at h
  · cases h
  · cases h
    refine ⟨⟨Multiset.nodup_zero, ?_⟩, rfl, by simp, by simp, by simp⟩
    intro id hid
    exact absurd hid (Multiset.notMem_zero id)

/-- Any interleaving leaves every buffer in one place and the queue within its
bound, and no `get` shows what an earlier holder wrote. -/
theorem pool_isolated {capacity bufSize : Nat} {system : System}
    (h : new capacity bufSize = some system) (actions : List Action) :
    (∀ reached, run System.step system actions = some reached →
      (reached.buffers.map Buffer.id).Nodup ∧
        reached.available ≤ reached.capacity ∧
        reached.capacity = capacity) ∧
    EveryStep System.step (System.Returns (System.Blank bufSize)) system
      actions := by
  rcases owned_new h with ⟨owned, pooled⟩
  constructor
  · intro reached hrun
    have howned := run_preserves (fun _ _ _ owned => owned.step) owned hrun
    have hpooled := run_preserves (fun _ _ _ pooled => pooled.step) pooled hrun
    refine ⟨?_, reached.queue.length_le, hpooled.capacity_eq⟩
    have hnodup := howned.nodup
    rwa [System.ids_eq, Multiset.coe_nodup] at hnodup
  · exact EveryStep.of_inv (fun _ _ _ pooled => pooled.step)
      (fun _ _ _ pooled => pooled.returns_blank) pooled actions

def exchangeOf (data : BytesMut) : List Action :=
  [.create 0 data, .put 0 0, .pop 1 0, .finish 0 0]

theorem exchange_isolated :
    ∃ system reached, new 1 2 = some system ∧
      run System.step system (exchangeOf (.zeroed 2 0)) = some reached ∧
      (reached.buffers.map Buffer.id).Nodup := by
  have hrun : ∃ system reached, new 1 2 = some system ∧
      run System.step system (exchangeOf (.zeroed 2 0)) = some reached :=
    ⟨_, _, rfl, rfl⟩
  rcases hrun with ⟨system, reached, hnew, hrun⟩
  exact ⟨system, reached, hnew, hrun,
    ((pool_isolated hnew _).1 reached hrun).1⟩

end Binger.Pool
