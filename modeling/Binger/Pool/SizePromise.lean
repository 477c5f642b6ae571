import Binger.Pool.Bufs

/-!
# The size of pooled buffers

A pool is made for buffers of `buf_size` bytes, and a `get` that has to
allocate gives one.  A `get` that finds a buffer in the queue gives what some
caller put there, and `put` takes buffers of any capacity.
-/

namespace Binger.Pool

open Binger.Foundation

namespace System

def RoomFor (bufSize : Nat) (buffer : Buffer) : Prop :=
  bufSize ≤ buffer.data.capacity

structure Roomy (bufSize : Nat) (system : System) : Prop where
  queue : ∀ buffer ∈ system.queue.items, RoomFor bufSize buffer
  calls : ∀ call ∈ system.calls, ∀ buffer, call.popped = some buffer →
    RoomFor bufSize buffer

def isGet : Action → Bool
  | .pop _ _ | .finish _ _ => true
  | _ => false

/-- However the pool is drained from here on, every buffer has room. -/
def KeepsPromise (bufSize : Nat) (system : System) : Prop :=
  ∀ gets : List Action, (∀ action ∈ gets, isGet action = true) →
    EveryStep System.step (Returns (RoomFor bufSize)) system gets

def PutsRoomy (bufSize : Nat) (system : System) (action : Action)
    (_ : System) : Prop :=
  ∀ holding pool given, action = .put holding pool →
    system.held[holding]? = some given →
    system.available < system.capacity → RoomFor bufSize given.buffer

theorem Roomy.withHeld {bufSize : Nat} {system : System}
    (roomy : Roomy bufSize system) (held : List Holding) (fresh : Nat) :
    Roomy bufSize { system with held := held, fresh := fresh } :=
  ⟨roomy.queue, roomy.calls⟩

theorem Roomy.pop {bufSize : Nat} {system : System}
    (roomy : Roomy bufSize system) (caller size : Nat) :
    Roomy bufSize (system.pop caller size) := by
  rw [System.pop]
  split
  · next buffer queue hpop =>
      rcases Bounded.pop_eq_some_iff.mp hpop with ⟨hitems, -⟩
      have hqueue := roomy.queue
      rw [hitems, List.forall_mem_cons] at hqueue
      refine ⟨hqueue.2, ?_⟩
      intro call hmem found hfound
      rcases List.mem_append.mp hmem with hmem | hmem
      · exact roomy.calls call hmem found hfound
      · rw [List.mem_singleton.mp hmem] at hfound
        cases hfound
        exact hqueue.1
  · refine ⟨roomy.queue, ?_⟩
    intro call hmem found hfound
    rcases List.mem_append.mp hmem with hmem | hmem
    · exact roomy.calls call hmem found hfound
    · rw [List.mem_singleton.mp hmem] at hfound
      cases hfound

theorem roomy_put_iff {bufSize : Nat} {system : System}
    (roomy : Roomy bufSize system) (buffer : Buffer) :
    Roomy bufSize (system.put buffer) ↔
      (system.available < system.capacity → RoomFor bufSize buffer) := by
  rw [System.put]
  cases hpush : system.queue.push buffer with
  | some queue =>
      rcases Bounded.push_eq_some_iff.mp hpush with ⟨hroom, hitems, -⟩
      constructor
      · intro h _
        exact h.queue buffer (by simp [hitems])
      · intro h
        refine ⟨?_, roomy.calls⟩
        intro other hmem
        rw [hitems, List.mem_append, List.mem_singleton] at hmem
        rcases hmem with hmem | rfl
        · exact roomy.queue other hmem
        · exact h hroom
  | none =>
      have hfull := Bounded.push_eq_none_iff.mp hpush
      refine iff_of_true roomy ?_
      intro hroom
      rw [available, System.capacity] at hroom
      omega

theorem roomy_step_iff {bufSize : Nat} {system next : System}
    {action : Action} (roomy : Roomy bufSize system)
    (h : step system action = some next) :
    Roomy bufSize next ↔ PutsRoomy bufSize system action next := by
  rcases step_cases h with
    ⟨pool, size, rfl, -, rfl⟩ |
    ⟨caller, pool, size, rfl, -, rfl⟩ |
    ⟨call, slack, running, rfl, -, rfl⟩ |
    ⟨holding, pool, given, rfl, hheld, rfl⟩ |
    ⟨holding, given, new, haction, -, -, rfl⟩ |
    ⟨caller, data, rfl, rfl⟩ |
    ⟨holding, dropped, rfl, -, rfl⟩
  · exact iff_of_true ⟨roomy.queue, roomy.calls⟩ nofun
  · exact iff_of_true (roomy.pop caller size) nofun
  · refine iff_of_true ⟨roomy.queue, ?_⟩ nofun
    intro other hmem
    exact roomy.calls other (List.mem_of_mem_eraseIdx hmem)
  · rw [roomy_put_iff (roomy.withHeld (system.held.eraseIdx holding)
      system.fresh)]
    constructor
    · rintro h _ _ other ⟨⟩ hother hroom
      cases hheld.symm.trans hother
      exact h hroom
    · intro h hroom
      exact h holding pool given rfl hheld hroom
  · refine iff_of_true (roomy.withHeld _ _) ?_
    rcases haction with ⟨data, rfl⟩ | ⟨caller, rfl⟩
    · exact nofun
    · exact nofun
  · exact iff_of_true (roomy.withHeld _ _) nofun
  · exact iff_of_true (roomy.withHeld _ _) nofun

/-! ## Draining the pool -/

theorem Roomy.step_get {bufSize : Nat} {system next : System}
    {action : Action} (roomy : Roomy bufSize system)
    (hget : isGet action = true) (h : step system action = some next) :
    Roomy bufSize next := by
  apply (roomy_step_iff roomy h).mpr
  rintro holding pool given rfl
  cases hget

theorem Roomy.returns {capacity bufSize : Nat} {system next : System}
    {action : Action} (pooled : Pooled capacity bufSize system)
    (roomy : Roomy bufSize system) (h : System.step system action = some next) :
    Returns (RoomFor bufSize) system action next := by
  apply returns_of_finish h
  intro running hmem slack
  rw [GetCall.finish]
  split
  · next buffer hpopped => exact roomy.calls running hmem buffer hpopped
  · rw [pooled.calls running hmem]
    exact Nat.le_add_right bufSize slack

theorem Pooled.step_pop {capacity bufSize : Nat} {system : System}
    (pooled : Pooled capacity bufSize system) (caller : Nat) :
    System.step system (.pop caller 0) = some (system.pop caller bufSize) := by
  have hclones := pooled.clones
  cases hlist : system.clones with
  | nil => exact absurd hlist pooled.nonempty
  | cons size clones =>
      rw [hlist] at hclones
      obtain rfl := hclones size List.mem_cons_self
      simp [System.step, hlist]

theorem pop_of_items {system : System} {first : Buffer} {rest : List Buffer}
    (h : system.queue.items = first :: rest) (caller bufSize : Nat) :
    (system.pop caller bufSize).queue.items = rest ∧
      (system.pop caller bufSize).calls =
        system.calls ++ [⟨caller, bufSize, some first⟩] := by
  rw [pop]
  split
  · next buffer queue hpop =>
      rcases Bounded.pop_eq_some_iff.mp hpop with ⟨hitems, -⟩
      cases hitems.symm.trans h
      exact ⟨rfl, rfl⟩
  · next hpop =>
      rw [Bounded.pop_eq_none_iff.mp hpop] at h
      cases h

theorem exists_popped {capacity bufSize : Nat} {buffer : Buffer}
    {before after : List Buffer} {system : System}
    (pooled : Pooled capacity bufSize system)
    (hitems : system.queue.items = before ++ buffer :: after) :
    ∃ gets reached, (∀ action ∈ gets, isGet action = true) ∧
      run System.step system gets = some reached ∧
      ∃ call ∈ reached.calls, call.popped = some buffer := by
  induction before generalizing system with
  | nil =>
      refine ⟨[.pop 0 0], system.pop 0 bufSize, by simp [isGet], ?_,
        ⟨0, bufSize, some buffer⟩, ?_, rfl⟩
      · exact run_cons_eq_some.mpr ⟨_, pooled.step_pop 0, rfl⟩
      · rw [(pop_of_items hitems 0 bufSize).2]
        exact List.mem_append_right _ List.mem_cons_self
  | cons first before ih =>
      rcases ih (pooled.pop 0) (pop_of_items hitems 0 bufSize).1 with
        ⟨gets, reached, hgets, hrun, hcall⟩
      refine ⟨.pop 0 0 :: gets, reached, ?_, ?_, hcall⟩
      · rw [List.forall_mem_cons]
        exact ⟨rfl, hgets⟩
      · exact run_cons_eq_some.mpr ⟨_, pooled.step_pop 0, hrun⟩

theorem KeepsPromise.roomFor {bufSize : Nat} {system reached : System}
    (hkeeps : KeepsPromise bufSize system) {gets : List Action}
    (hgets : ∀ action ∈ gets, isGet action = true)
    (hrun : run System.step system gets = some reached) {call : GetCall}
    (hmem : call ∈ reached.calls) {buffer : Buffer}
    (hpopped : call.popped = some buffer) : RoomFor bufSize buffer := by
  rcases List.mem_iff_getElem?.mp hmem with ⟨i, hi⟩
  have hall : ∀ action ∈ gets ++ [.finish i 0], isGet action = true := by
    intro action hmem
    rcases List.mem_append.mp hmem with hmem | hmem
    · exact hgets action hmem
    · rw [List.mem_singleton.mp hmem]
      rfl
  have hstep : System.step reached (.finish i 0) = some { reached with
      calls := reached.calls.eraseIdx i
      held := reached.held ++ [⟨call.caller, ⟨buffer.id, buffer.data.clear⟩⟩]
      fresh := reached.fresh } := by
    simp [System.step, hi, GetCall.finish, hpopped]
  rcases (hkeeps _ hall).holds_at hrun hstep i 0 rfl with
    ⟨holding, hheld, hroom⟩
  rw [List.append_cancel_left_eq, List.singleton_inj] at hheld
  rw [← hheld] at hroom
  exact hroom

theorem keepsPromise_iff {capacity bufSize : Nat} {system : System}
    (pooled : Pooled capacity bufSize system) :
    KeepsPromise bufSize system ↔ Roomy bufSize system := by
  constructor
  · intro hkeeps
    constructor
    · intro buffer hmem
      rcases List.append_of_mem hmem with ⟨before, after, hitems⟩
      rcases exists_popped pooled hitems with
        ⟨gets, reached, hgets, hrun, call, hcall, hpopped⟩
      exact hkeeps.roomFor hgets hrun hcall hpopped
    · intro call hcall buffer hpopped
      exact hkeeps.roomFor (List.forall_mem_nil _) rfl hcall hpopped
  · intro roomy gets hgets
    induction gets generalizing system with
    | nil => trivial
    | cons action gets ih =>
        rw [List.forall_mem_cons] at hgets
        rw [EveryStep]
        cases hstep : System.step system action with
        | none => trivial
        | some next =>
            exact ⟨roomy.returns pooled hstep,
              ih (pooled.step hstep) (roomy.step_get hgets.1 hstep) hgets.2⟩

end System

/-- The promise is kept throughout a run exactly when every `put` that the pool
accepts has room for `buf_size` bytes. -/
theorem size_promise_iff {capacity bufSize : Nat} {system : System}
    (h : new capacity bufSize = some system) (actions : List Action) :
    EveryStep System.step (System.PutsRoomy bufSize) system actions ↔
      ∀ before after reached, actions = before ++ after →
        run System.step system before = some reached →
          System.KeepsPromise bufSize reached := by
  have pooled := (owned_new h).2
  have hempty : system.Roomy bufSize := by
    rw [new] at h
    split at h
    · cases h
    · cases h
      exact ⟨List.forall_mem_nil _, List.forall_mem_nil _⟩
  refine everyStep_iff_reached_of_inv (fun _ _ _ pooled => pooled.step) ?_
    pooled ((System.keepsPromise_iff pooled).mpr hempty) actions
  intro state action next pooled hkeeps hstep
  rw [System.keepsPromise_iff pooled] at hkeeps
  rw [System.keepsPromise_iff (pooled.step hstep)]
  exact System.roomy_step_iff hkeeps hstep

/-- A buffer of two bytes comes out of a pool for buffers of 64 bytes. -/
theorem small_buffer_returned :
    ∃ system, new 4 64 = some system ∧
      ¬ EveryStep System.step (System.Returns (System.RoomFor 64)) system
        (exchangeOf (.zeroed 2 0)) := by
  refine ⟨_, rfl, ?_⟩
  rintro ⟨-, -, -, hreturns, -⟩
  rcases hreturns 0 0 rfl with ⟨holding, hheld, hroom⟩
  cases hheld
  exact absurd hroom (show ¬ 64 ≤ 2 by decide)

theorem large_buffer_promise :
    ∃ system, new 4 64 = some system ∧
      ∀ before after reached, exchangeOf (.zeroed 64 0) = before ++ after →
        run System.step system before = some reached →
          System.KeepsPromise 64 reached := by
  refine ⟨_, rfl, (@size_promise_iff 4 64 _ rfl _).mp ?_⟩
  refine ⟨nofun, ?_, nofun, nofun, trivial⟩
  rintro _ _ given ⟨⟩ hgiven -
  cases hgiven
  exact le_refl 64

end Binger.Pool
