/-
**The handles of the cancellable operations: who still refers to an operation, and who has cancelled it.**

The six handle classes hold one `std::shared_ptr` to an operation, cancel the operation when they are
destroyed, and are moved and never copied. They differ in their move assignment: the Boost.Asio mutex handle
and the Qt handles cancel what they hold and then take over the other's pointer, and the Boost.Asio event
and semaphore handles have the defaulted assignment, which only takes over the pointer.

* `Accounted` — an operation is held by exactly one handle and has not been cancelled, or is held by none
  and has been cancelled once.
* `handles_account_for_operations` — it stays so in exactly the steps that do not assign to a handle which
  holds an operation by a defaulted assignment; `asioEvent_handle_abandons` is such a step.
-/

import NovaSync.Concurrency.Transition

set_option linter.unusedSectionVars false

namespace NovaSync.CancellableHandles

open Concurrency

/-! ### The handles -/

/-- `boost_asio_acquire_handle`, `boost_asio_event_wait_handle`, `boost_asio_semaphore_acquire_handle`,
`qt_acquire_handle`, `qt_event_wait_handle`, `qt_semaphore_acquire_handle`. -/
inductive Kind
  | asioMutex
  | asioEvent
  | asioSemaphore
  | qtMutex
  | qtEvent
  | qtSemaphore
deriving DecidableEq, Repr

/-- `operator=( handle&& ) = default`. -/
def Kind.assignDefaulted : Kind → Bool
  | .asioEvent | .asioSemaphore => true
  | .asioMutex | .qtMutex | .qtEvent | .qtSemaphore => false

/-- The `op_` of every handle: `none` where there is no handle, and `some none` where it is empty. Operations
are numbered as they are made; `cancels` is a history variable: the calls of `op->cancel()`. -/
structure State (Handle : Type*) where
  handle : Handle → Option (Option ℕ)
  made : ℕ
  cancels : ℕ → ℕ

inductive Action (Handle : Type*)
  | constructEmpty (h : Handle)
  | construct (h : Handle)
  | moveConstruct (h other : Handle)
  | moveAssign (h other : Handle)
  | cancel (h : Handle)
  | destroy (h : Handle)
deriving DecidableEq, Repr

variable {Handle : Type*} [DecidableEq Handle]

namespace State

/-- The handle's `op_` is the operation. -/
def Refers (state : State Handle) (h : Handle) (op : ℕ) : Prop := state.handle h = some (some op)

def put (state : State Handle) (h : Handle) (op : Option (Option ℕ)) : State Handle :=
  { state with handle := Function.update state.handle h op }

/-- `cancel()`: `if ( op_ ) { op_->cancel(); op_.reset(); }`. -/
def cancel (state : State Handle) (h : Handle) : State Handle :=
  match state.handle h with
  | some (some op) =>
      { state.put h (some none) with
        cancels := Function.update state.cancels op (state.cancels op + 1) }
  | _ => state

/-- `op_ = std::move( other.op_ )`, or `op_( std::move( other.op_ ) )`. -/
def take (state : State Handle) (h other : Handle) : State Handle :=
  (state.put h (state.handle other)).put other (some none)

/-- `operator=( handle&& other )`. -/
def assign (kind : Kind) (state : State Handle) (h other : Handle) : State Handle :=
  if kind.assignDefaulted then state.take h other else (state.cancel h).take h other

end State

/-- The state after an action; a handle is moved between distinct places. -/
def next (kind : Kind) (state : State Handle) : Action Handle → Option (State Handle)
  | .constructEmpty h =>
      if state.handle h = none then some (state.put h (some none)) else none
  | .construct h =>
      if state.handle h = none then
        some { state.put h (some (some state.made)) with made := state.made + 1 }
      else none
  | .moveConstruct h other =>
      if state.handle h = none ∧ state.handle other ≠ none then some (state.take h other) else none
  | .moveAssign h other =>
      if state.handle h ≠ none ∧ state.handle other ≠ none ∧ h ≠ other then
        some (state.assign kind h other)
      else none
  | .cancel h => if state.handle h ≠ none then some (state.cancel h) else none
  | .destroy h => if state.handle h ≠ none then some ((state.cancel h).put h none) else none

/-- The handles of a class, at the start none. -/
def system (kind : Kind) (Handle : Type*) [DecidableEq Handle] :
    System (State Handle) (Action Handle) where
  start := { handle := fun _ => none, made := 0, cancels := fun _ => 0 }
  next := next kind

/-! ### Operations are accounted for -/

/-- **Held by exactly one handle, or cancelled exactly once.** -/
def Accounted (state : State Handle) (op : ℕ) : Prop :=
  (∃! h, state.Refers h op) ∧ state.cancels op = 0 ∨ (∀ h, ¬ state.Refers h op) ∧ state.cancels op = 1

/-- Every operation that was made is accounted for, and no other is known. -/
structure Sound (state : State Handle) : Prop where
  accounted : ∀ op < state.made, Accounted state op
  known : ∀ h op, state.Refers h op → op < state.made
  unmade : ∀ op, state.made ≤ op → state.cancels op = 0

variable {kind : Kind} {state after : State Handle} {h other : Handle}

/-- Two handles do not hold one operation. -/
theorem Sound.unique (sound : Sound state) {op : ℕ} (here : state.Refers h op)
    (there : state.Refers other op) : h = other := by
  rcases sound.accounted op (sound.known h op here) with ⟨⟨only, -, single⟩, -⟩ | ⟨nobody, -⟩
  · exact (single h here).trans (single other there).symm
  · exact absurd here (nobody h)

theorem Sound.uncancelled (sound : Sound state) {op : ℕ} (here : state.Refers h op) :
    state.cancels op = 0 := by
  rcases sound.accounted op (sound.known h op here) with ⟨-, none⟩ | ⟨nobody, -⟩
  · exact none
  · exact absurd here (nobody h)

/-- The references are carried from place to place: nobody loses one, and nobody gets one twice. -/
theorem Accounted.carry {op : ℕ} (accounted : Accounted state op) (image : Handle → Handle)
    (same : after.cancels op = state.cancels op)
    (carried : ∀ h, after.Refers h op ↔ ∃ source, image source = h ∧ state.Refers source op) :
    Accounted after op := by
  rcases accounted with ⟨⟨only, holds, single⟩, none⟩ | ⟨nobody, once⟩
  · refine Or.inl ⟨⟨image only, (carried _).mpr ⟨only, rfl, holds⟩, fun h refers => ?_⟩, same.trans none⟩
    obtain ⟨source, rfl, before⟩ := (carried h).mp refers
    rw [single source before]
  · refine Or.inr ⟨fun h refers => ?_, same.trans once⟩
    obtain ⟨source, -, before⟩ := (carried h).mp refers
    exact nobody source before

theorem put_refers {value : Option (Option ℕ)} {place : Handle} {op : ℕ} :
    (state.put h value).Refers place op ↔ place = h ∧ value = some (some op) ∨
      place ≠ h ∧ state.Refers place op := by
  unfold State.Refers State.put
  by_cases here : place = h
  · subst here
    simp
  · simp [here]

/-- The handle, or the place for one, holds no operation. -/
def State.Empty (state : State Handle) (h : Handle) : Prop := ∀ op, ¬ state.Refers h op

/-- Carrying the references keeps everything accounted for. -/
theorem Sound.carry (sound : Sound state) (image : Handle → Handle) (made : after.made = state.made)
    (same : after.cancels = state.cancels)
    (carried : ∀ h op, after.Refers h op ↔ ∃ source, image source = h ∧ state.Refers source op) :
    Sound after where
  accounted op inside := by
    rw [made] at inside
    exact (sound.accounted op inside).carry image (congrFun same op) fun h => carried h op
  known h op refers := by
    obtain ⟨source, -, before⟩ := (carried h op).mp refers
    rw [made]
    exact sound.known source op before
  unmade op outside := by
    rw [made] at outside
    rw [same]
    exact sound.unmade op outside

/-- A handle that holds nothing comes or goes. -/
theorem Sound.put (sound : Sound state) (empty : state.Empty h) {value : Option (Option ℕ)}
    (nothing : ∀ op, value ≠ some (some op)) : Sound (state.put h value) := by
  refine sound.carry id rfl rfl fun place op => ?_
  rw [put_refers]
  constructor
  · rintro (⟨-, holds⟩ | ⟨-, before⟩)
    · exact absurd holds (nothing op)
    · exact ⟨place, rfl, before⟩
  · rintro ⟨source, rfl, before⟩
    refine Or.inr ⟨fun here => ?_, before⟩
    rw [id_eq] at here
    rw [here] at before
    exact empty op before

/-- A handle that holds nothing takes over the pointer of another one. -/
theorem Sound.take (sound : Sound state) (empty : state.Empty h) (apart : h ≠ other) :
    Sound (state.take h other) := by
  refine sound.carry (fun source => if source = other then h else source) rfl rfl fun place op => ?_
  unfold State.take
  rw [put_refers, put_refers]
  constructor
  · rintro (⟨-, nothing⟩ | ⟨elsewhere, ⟨rfl, holds⟩ | ⟨-, before⟩⟩)
    · cases nothing
    · exact ⟨other, if_pos rfl, holds⟩
    · exact ⟨place, if_neg elsewhere, before⟩
  · rintro ⟨source, moved, before⟩
    by_cases taken : source = other
    · rw [if_pos taken] at moved
      subst moved taken
      exact Or.inr ⟨apart, Or.inl ⟨rfl, before⟩⟩
    · rw [if_neg taken] at moved
      subst moved
      refine Or.inr ⟨taken, Or.inr ⟨?_, before⟩⟩
      rintro rfl
      exact empty op before

theorem empty_of_none (none : state.handle h = none) : state.Empty h := by
  intro op refers
  rw [State.Refers, none] at refers
  cases refers

theorem cancel_of_refers {op : ℕ} (here : state.Refers h op) :
    state.cancel h = { state.put h (some none) with
      cancels := Function.update state.cancels op (state.cancels op + 1) } := by
  unfold State.cancel
  rw [here]

theorem cancel_of_empty (empty : state.Empty h) : state.cancel h = state := by
  unfold State.cancel
  split
  · rename_i op holds
    exact absurd holds (empty op)
  · rfl

/-- `cancel()` leaves its handle empty. -/
theorem empty_cancel : (state.cancel h).Empty h := by
  by_cases empty : state.Empty h
  · rw [cancel_of_empty empty]
    exact empty
  · simp only [State.Empty, not_forall, not_not] at empty
    obtain ⟨op, here⟩ := empty
    intro later refers
    rw [cancel_of_refers here, State.Refers] at refers
    simp [State.put] at refers

/-- **`cancel()`** turns the handle's reference into the one call of `op->cancel()`. -/
theorem Sound.cancel (sound : Sound state) : Sound (state.cancel h) := by
  by_cases empty : state.Empty h
  · rw [cancel_of_empty empty]
    exact sound
  · simp only [State.Empty, not_forall, not_not] at empty
    obtain ⟨op, here⟩ := empty
    have inside := sound.known h op here
    have refers : ∀ place later, (state.cancel h).Refers place later ↔
        place ≠ h ∧ state.Refers place later := by
      intro place later
      rw [cancel_of_refers here]
      exact put_refers.trans (by simp)
    refine ⟨fun later before => ?_, fun place later holds => ?_, fun later outside => ?_⟩
    · by_cases same : later = op
      · subst same
        refine Or.inr ⟨fun place holds => ?_, ?_⟩
        · obtain ⟨elsewhere, there⟩ := (refers place later).mp holds
          exact elsewhere (sound.unique there here)
        · rw [cancel_of_refers here]
          show Function.update state.cancels later (state.cancels later + 1) later = 1
          rw [Function.update_self, sound.uncancelled here]
      · refine (sound.accounted later ?_).carry id ?_ fun place => ?_
        · rw [cancel_of_refers here] at before
          exact before
        · rw [cancel_of_refers here]
          exact Function.update_of_ne same _ _
        · rw [refers place later]
          constructor
          · rintro ⟨-, there⟩
            exact ⟨place, rfl, there⟩
          · rintro ⟨source, rfl, there⟩
            refine ⟨?_, there⟩
            rintro rfl
            exact same (Option.some.inj (Option.some.inj (there.symm.trans here)))
    · have before := sound.known place later ((refers place later).mp holds).2
      rw [cancel_of_refers here]
      exact before
    · rw [cancel_of_refers here] at outside ⊢
      change state.made ≤ later at outside
      show Function.update state.cancels op (state.cancels op + 1) later = 0
      rw [Function.update_of_ne (by omega)]
      exact sound.unmade later outside

/-- A handle is made from a new operation. -/
theorem Sound.construct (sound : Sound state) (none : state.handle h = none) :
    Sound { state.put h (some (some state.made)) with made := state.made + 1 } := by
  have refers : ∀ place op, State.Refers { state.put h (some (some state.made)) with
        made := state.made + 1 } place op ↔
      place = h ∧ op = state.made ∨ state.Refers place op := by
    intro place op
    refine put_refers.trans ?_
    by_cases here : place = h
    · subst here
      simp [State.Refers, none, eq_comm]
    · simp [here]
  refine ⟨fun op inside => ?_, fun place op holds => ?_, fun op outside => ?_⟩
  · change op < state.made + 1 at inside
    rcases Nat.lt_succ_iff_lt_or_eq.mp inside with before | rfl
    · refine (sound.accounted op before).carry id rfl fun place => ?_
      rw [refers place op]
      constructor
      · rintro (⟨-, fresh⟩ | there)
        · omega
        · exact ⟨place, rfl, there⟩
      · rintro ⟨source, rfl, there⟩
        exact Or.inr there
    · refine Or.inl ⟨⟨h, (refers h _).mpr (Or.inl ⟨rfl, rfl⟩), fun place holds => ?_⟩,
        sound.unmade _ (Nat.le_refl _)⟩
      rcases (refers place _).mp holds with ⟨here, -⟩ | there
      · exact here
      · have before := sound.known place _ there
        omega
  · show op < state.made + 1
    rcases (refers place op).mp holds with ⟨-, fresh⟩ | there
    · omega
    · have before := sound.known place op there
      omega
  · change state.made + 1 ≤ op at outside
    exact sound.unmade op (by omega)

theorem sound_start : Sound (system kind Handle).start where
  accounted op inside := by cases inside
  known h op refers := by cases refers
  unmade op _ := rfl

/-! ### The assignments that keep the account -/

/-- The action is not a defaulted assignment to a handle that holds an operation. -/
def Covered (kind : Kind) (state : State Handle) : Action Handle → Prop
  | .moveAssign h _ => kind.assignDefaulted = false ∨ (state.handle h).join = none
  | _ => True

instance : DecidablePred (Covered kind state)
  | .moveAssign h _ =>
      inferInstanceAs (Decidable (kind.assignDefaulted = false ∨ (state.handle h).join = none))
  | .constructEmpty _ | .construct _ | .moveConstruct _ _ | .cancel _ | .destroy _ =>
      inferInstanceAs (Decidable True)

theorem empty_iff_join : state.Empty h ↔ (state.handle h).join = none := by
  unfold State.Empty State.Refers
  rcases state.handle h with - | - | op <;> simp

/-- **Every covered action keeps the account.** -/
theorem Sound.next (sound : Sound state) {action : Action Handle} (covered : Covered kind state action)
    (taken : next kind state action = some after) : Sound after := by
  cases action with
  | constructEmpty h =>
    simp only [CancellableHandles.next, Option.ite_none_right_eq_some, Option.some.injEq] at taken
    obtain ⟨none, rfl⟩ := taken
    exact sound.put (empty_of_none none) (by simp)
  | construct h =>
    simp only [CancellableHandles.next, Option.ite_none_right_eq_some, Option.some.injEq] at taken
    obtain ⟨none, rfl⟩ := taken
    exact sound.construct none
  | moveConstruct h other =>
    simp only [CancellableHandles.next, Option.ite_none_right_eq_some, Option.some.injEq] at taken
    obtain ⟨⟨none, some⟩, rfl⟩ := taken
    refine sound.take (empty_of_none none) ?_
    rintro rfl
    exact some none
  | moveAssign h other =>
    simp only [CancellableHandles.next, Option.ite_none_right_eq_some, Option.some.injEq] at taken
    obtain ⟨⟨-, -, apart⟩, rfl⟩ := taken
    unfold State.assign
    split
    · rename_i defaulted
      rw [Covered, defaulted] at covered
      exact sound.take (empty_iff_join.mpr (covered.resolve_left (by decide))) apart
    · exact sound.cancel.take empty_cancel apart
  | cancel h =>
    simp only [CancellableHandles.next, Option.ite_none_right_eq_some, Option.some.injEq] at taken
    obtain ⟨-, rfl⟩ := taken
    exact sound.cancel
  | destroy h =>
    simp only [CancellableHandles.next, Option.ite_none_right_eq_some, Option.some.injEq] at taken
    obtain ⟨-, rfl⟩ := taken
    exact sound.cancel.put empty_cancel (by simp)

/-- A defaulted assignment abandons the operation that it overwrites. -/
theorem Sound.abandons (sound : Sound state) {action : Action Handle}
    (uncovered : ¬ Covered kind state action)
    (taken : CancellableHandles.next kind state action = some after) :
    ∃ op < after.made, ¬ Accounted after op := by
  cases action with
  | moveAssign h other =>
    simp only [Covered, not_or, Bool.not_eq_false] at uncovered
    obtain ⟨defaulted, holds⟩ := uncovered
    rw [← empty_iff_join, State.Empty] at holds
    push Not at holds
    obtain ⟨op, here⟩ := holds
    simp only [CancellableHandles.next, Option.ite_none_right_eq_some, Option.some.injEq] at taken
    obtain ⟨⟨-, -, apart⟩, rfl⟩ := taken
    rw [State.assign, if_pos defaulted]
    refine ⟨op, sound.known h op here, ?_⟩
    have uncancelled := sound.uncancelled here
    rintro (⟨⟨place, holds, -⟩, -⟩ | ⟨-, once⟩)
    · unfold State.take at holds
      rw [put_refers, put_refers] at holds
      rcases holds with ⟨-, nothing⟩ | ⟨-, ⟨-, there⟩ | ⟨elsewhere, there⟩⟩
      · cases nothing
      · exact apart (sound.unique here there)
      · exact elsewhere (sound.unique there here)
    · change state.cancels op = 1 at once
      omega
  | constructEmpty h => exact absurd trivial uncovered
  | construct h => exact absurd trivial uncovered
  | moveConstruct h other => exact absurd trivial uncovered
  | cancel h => exact absurd trivial uncovered
  | destroy h => exact absurd trivial uncovered

theorem sound_of_reach (reached : (system kind Handle).Reach (Covered kind) state) : Sound state :=
  reached.invariant sound_start fun _ _ _ _ sound covered taken => sound.next covered taken

/-- **No pending operation is abandoned**, in every run that makes no defaulted assignment to a handle which
holds an operation; and the first such assignment abandons one. -/
theorem handles_account_for_operations
    (reached : (system kind Handle).Reach (Covered kind) state) :
    (∀ op < state.made, Accounted state op) ∧
    ∀ action after, next kind state action = some after →
      ((∀ op < after.made, Accounted after op) ↔ Covered kind state action) := by
  have sound := sound_of_reach reached
  refine ⟨sound.accounted, fun action after taken => ⟨fun accounted => ?_, fun covered => ?_⟩⟩
  · by_contra uncovered
    obtain ⟨op, inside, lost⟩ := sound.abandons uncovered taken
    exact lost (accounted op inside)
  · exact (sound.next covered taken).accounted

/-- A Qt handle is assigned to while it holds the first operation: that one is cancelled, and the handle
now holds the second. -/
theorem handles_account_for_operations_overwritten :
    ∃ state, (system .qtMutex (Fin 2)).Reach (Covered .qtMutex) state ∧ state.made = 2 ∧
      state.cancels 0 = 1 ∧ state.Refers 0 1 ∧ ∀ op < state.made, Accounted state op := by
  obtain ⟨state, reached, computed⟩ := System.exists_reach_of_run (system .qtMutex (Fin 2))
    (Covered .qtMutex) [.construct 0, .construct 1, .moveAssign 0 1]
    (fun state => decide (state.made = 2 ∧ state.cancels 0 = 1 ∧ state.handle 0 = some (some 1)))
    (by decide +kernel)
  obtain ⟨made, cancels, holds⟩ := of_decide_eq_true computed
  exact ⟨state, reached, made, cancels, holds, (handles_account_for_operations reached).1⟩

/-- The same calls with two Boost.Asio event handles: the first operation is held by no handle, and
`cancel()` was never called on it. -/
theorem asioEvent_handle_abandons :
    ∃ state, (system .asioEvent (Fin 2)).Reachable state ∧ 0 < state.made ∧
      (∀ h, ¬ state.Refers h 0) ∧ state.cancels 0 = 0 ∧ ¬ Accounted state 0 := by
  obtain ⟨state, reached, computed⟩ := System.exists_reachable_of_run (system .asioEvent (Fin 2))
    [.construct 0, .construct 1, .moveAssign 0 1]
    (fun state => decide (0 < state.made ∧ (∀ h, ¬ state.handle h = some (some 0)) ∧
      state.cancels 0 = 0))
    (by decide +kernel)
  obtain ⟨made, nobody, never⟩ := of_decide_eq_true computed
  refine ⟨state, reached, made, nobody, never, ?_⟩
  rintro (⟨⟨h, holds, -⟩, -⟩ | ⟨-, once⟩)
  · exact nobody h holds
  · omega

end NovaSync.CancellableHandles
