/-
**`locked_object` and its guards: who holds which mutex.**

A guard is two pointers, to the value and to the mutex of a `locked_object`; it is made from a lock that was
just acquired, is moved and never copied, and unlocks the mutex it still points to when it is destroyed or
assigned to. Any number of objects and guards, and of calls of the `lock_and` family, each of which keeps a
guard of its own while the function it is given runs.

* `Balanced` — the invariant, with a guard in hand that is in no place: what a mutex counts is what the guards
  refer to.
* `Accounts` — what one action does to the mutexes and to the places: it acquires what its new guard holds, and
  releases what the guard has held that it destroys or assigns to.
* `guards_release_once` — in every state the holds of a mutex are its guards, every acquisition is released once
  or is a guard's, and nothing is unlocked that is not held.
* `exclusive_alone` — over a mutex that excludes, an exclusive guard is the only guard of its object.
-/

import NovaSync.Concurrency.Threads
import NovaSync.Concurrency.Transition

set_option linter.unusedSectionVars false

namespace NovaSync.LockedObject

open Concurrency

/-! ### The guards -/

/-- `lock` and `unlock`, or `lock_shared` and `unlock_shared`. -/
inductive Lock
  | exclusive
  | shared
deriving DecidableEq, Repr

/-- The guard classes: `locked_object_guard< T, Mutex >`, which `lock` and the `try_lock` functions return,
`locked_object_guard< const T, Mutex >`, which those of a `const` object return, and
`shared_locked_object_guard< T, Mutex >`, which `lock_shared` and the `try_lock_shared` functions return. -/
inductive Kind
  | plain
  | const
  | shared
deriving DecidableEq, Repr

/-- The lock that a guard of the class holds, and that its destructor releases. -/
def Kind.lock : Kind → Lock
  | .plain | .const => .exclusive
  | .shared => .shared

variable {Object : Type*}

/-- A guard: the objects that `ptr_` and `mtx_` point into. -/
structure Guard (Object : Type*) where
  kind : Kind
  ptr : Option Object
  mtx : Option Object
deriving DecidableEq, Repr

/-- `locked_object_guard( value_, mtx_ )` of an object. -/
def Guard.of (kind : Kind) (object : Object) : Guard Object := ⟨kind, some object, some object⟩

/-- The pointers are taken over from another guard. -/
def Guard.take (self other : Guard Object) : Guard Object := { self with ptr := other.ptr, mtx := other.mtx }

/-- The pointers of a guard that was moved from are null. -/
def Guard.moved (other : Guard Object) : Guard Object := { other with ptr := none, mtx := none }

/-- `operator*`, `operator->`, `get()`. -/
def Guard.get (guard : Guard Object) : Option Object := guard.ptr

/-- A mutex: its holds, of either kind. `acquired` and `released` are history, the calls that acquire it and those
that unlock it; `misused` is set by an unlock of what is not held. -/
structure Mutex where
  holds : Lock → ℕ := fun _ => 0
  acquired : Lock → ℕ := fun _ => 0
  released : Lock → ℕ := fun _ => 0
  misused : Bool := false

/-- `lock()`, `lock_shared()`, or a `try_lock` function that succeeds. -/
def Mutex.lock (mutex : Mutex) (lock : Lock) : Mutex :=
  { mutex with
    holds := Function.update mutex.holds lock (mutex.holds lock + 1)
    acquired := Function.update mutex.acquired lock (mutex.acquired lock + 1) }

/-- `unlock()`, `unlock_shared()`. -/
def Mutex.unlock (mutex : Mutex) (lock : Lock) : Mutex :=
  { mutex with
    holds := Function.update mutex.holds lock (mutex.holds lock - 1)
    released := Function.update mutex.released lock (mutex.released lock + 1)
    misused := mutex.misused || mutex.holds lock = 0 }

/-- The mutexes of the objects, and the guard in every place: a variable, or the local variable `guard` of a
running call of the `lock_and` family. -/
structure State (Object Place : Type*) where
  mutex : Object → Mutex
  guard : Place → Option (Guard Object)

variable {Place : Type*} [DecidableEq Object] [DecidableEq Place]

namespace State

variable (state : State Object Place)

def put (place : Place) (guard : Option (Guard Object)) : State Object Place :=
  { state with guard := Function.update state.guard place guard }

def lock (kind : Kind) (object : Object) : State Object Place :=
  { state with mutex := Function.update state.mutex object ((state.mutex object).lock kind.lock) }

/-- `if ( mtx_ ) mtx_->unlock()`, or `unlock_shared()`. -/
def unlock (self : Guard Object) : State Object Place :=
  match self.mtx with
  | none => state
  | some object =>
      { state with mutex := Function.update state.mutex object ((state.mutex object).unlock self.kind.lock) }

/-- `do_lock_`, `do_lock_const_`, `do_lock_shared_`. -/
def doLock (kind : Kind) (place : Place) (object : Object) : State Object Place :=
  (state.lock kind object).put place (some (.of kind object))

/-- `do_try_lock_`, `do_try_lock_for_`, `do_try_lock_until_`, and the same of a `const` object and of a shared
lock: the guard that is returned is moved from a temporary one, which is then destroyed. -/
def doTryLock (kind : Kind) (place : Place) (object : Object) (locked : Bool) : State Object Place :=
  if locked then
    let temporary := Guard.of kind object
    ((state.lock kind object).put place (some temporary)).unlock temporary.moved
  else state

/-- `locked_object_guard( locked_object_guard&& other )`. -/
def moveConstruct (place other : Place) : State Object Place :=
  match state.guard other with
  | some source => (state.put place (some source)).put other (some source.moved)
  | none => state

/-- `operator=( locked_object_guard&& other )`. -/
def moveAssign (place other : Place) : State Object Place :=
  if place = other then state
  else
    match state.guard place, state.guard other with
    | some self, some source =>
        ((state.unlock self).put place (some (self.take source))).put other (some source.moved)
    | _, _ => state

/-- `~locked_object_guard()`. -/
def destroy (place : Place) : State Object Place :=
  match state.guard place with
  | some self => (state.unlock self).put place none
  | none => state

end State

/-- How the function that a `lock_and` call runs comes to its end. -/
inductive Exit
  | returns
  | throws
deriving DecidableEq, Repr

/-- What happens next; guards move between variables of one class. A variable may be a `std::optional` of a
guard, and is no place of a guard while it is empty: its assignment is one of these actions. `lockAnd` and
`tryLockAnd` are the calls of `lock_and`, `lock_shared_and`, `try_lock_and`, `try_lock_for_and` and
`try_lock_shared_and` up to that of the function, and `leave` is what follows it. -/
inductive Action (Object Variable Call : Type*)
  | lock (v : Variable) (kind : Kind) (object : Object)
  | tryLock (v : Variable) (kind : Kind) (object : Object) (locked : Bool)
  | moveConstruct (v other : Variable)
  | moveAssign (v other : Variable)
  | destroy (v : Variable)
  | lockAnd (call : Call) (kind : Kind) (object : Object)
  | tryLockAnd (call : Call) (kind : Kind) (object : Object) (locked : Bool)
  | leave (call : Call) (exit : Exit)
deriving DecidableEq, Repr

variable {Variable Call : Type*} [DecidableEq Variable] [DecidableEq Call]

/-- Both ends of a `lock_and` call destroy its guard, the one by unwinding the stack. -/
def State.leave (state : State Object (Variable ⊕ Call)) (call : Call) : Exit → State Object (Variable ⊕ Call)
  | .returns | .throws => state.destroy (.inr call)

/-- The state after an action. A mutex decides by `admits` which locks it gives at its present holds, and `lock`
does not return before; one that looks at the caller too, such as a recursive mutex, has fewer runs than one
that gives every lock. -/
def next (admits : (Lock → ℕ) → Lock → Bool) (state : State Object (Variable ⊕ Call)) :
    Action Object Variable Call → Option (State Object (Variable ⊕ Call))
  | .lock v kind object =>
      if state.guard (.inl v) = none ∧ admits (state.mutex object).holds kind.lock = true then
        some (state.doLock kind (.inl v) object)
      else none
  | .tryLock v kind object locked =>
      if state.guard (.inl v) = none ∧
          (locked = true → admits (state.mutex object).holds kind.lock = true) then
        some (state.doTryLock kind (.inl v) object locked)
      else none
  | .moveConstruct v other =>
      if state.guard (.inl v) = none ∧ state.guard (.inl other) ≠ none then
        some (state.moveConstruct (.inl v) (.inl other))
      else none
  | .moveAssign v other =>
      if state.guard (.inl v) ≠ none ∧
          (state.guard (.inl v)).map Guard.kind = (state.guard (.inl other)).map Guard.kind then
        some (state.moveAssign (.inl v) (.inl other))
      else none
  | .destroy v => if state.guard (.inl v) ≠ none then some (state.destroy (.inl v)) else none
  | .lockAnd call kind object =>
      if state.guard (.inr call) = none ∧ admits (state.mutex object).holds kind.lock = true then
        some (state.doLock kind (.inr call) object)
      else none
  | .tryLockAnd call kind object locked =>
      if state.guard (.inr call) = none ∧
          (locked = true → admits (state.mutex object).holds kind.lock = true) then
        some (state.doTryLock kind (.inr call) object locked)
      else none
  | .leave call exit => if state.guard (.inr call) ≠ none then some (state.leave call exit) else none

/-- Free mutexes, and no guards. -/
def system (admits : (Lock → ℕ) → Lock → Bool) (Object Variable Call : Type*) [DecidableEq Object]
    [DecidableEq Variable] [DecidableEq Call] :
    System (State Object (Variable ⊕ Call)) (Action Object Variable Call) where
  start := { mutex := fun _ => {}, guard := fun _ => none }
  next := next admits

/-- `std::shared_mutex`. -/
def sharedMutex (holds : Lock → ℕ) : Lock → Bool
  | .exclusive => holds .exclusive = 0 ∧ holds .shared = 0
  | .shared => holds .exclusive = 0

/-! ### What a mutex counts -/

variable {admits : (Lock → ℕ) → Lock → Bool} {state after : State Object Place} {place other : Place}
  {object : Object} {lock : Lock} {self source : Guard Object}

/-- The guard holds this lock of the object's mutex. -/
def holdsLock (object : Object) (lock : Lock) : Option (Guard Object) → Bool
  | some guard => decide (guard.mtx = some object ∧ guard.kind.lock = lock)
  | none => false

/-- Nothing is held in this place. -/
def Idle (guard : Option (Guard Object)) : Prop := ∀ object lock, holdsLock object lock guard = false

theorem idle_none : Idle (none : Option (Guard Object)) := fun _ _ => rfl

theorem idle_moved (source : Guard Object) : Idle (some source.moved) := by
  intro object lock
  simp [holdsLock, Guard.moved]

@[simp] theorem put_mutex (state : State Object Place) (place : Place) (guard : Option (Guard Object)) :
    (state.put place guard).mutex = state.mutex := rfl

theorem put_guard_self (state : State Object Place) (place : Place) (guard : Option (Guard Object)) :
    (state.put place guard).guard place = guard := by
  simp [State.put]

theorem put_guard_of_ne (state : State Object Place) (guard : Option (Guard Object)) (apart : other ≠ place) :
    (state.put place guard).guard other = state.guard other := by
  simp [State.put, apart]

theorem unlock_guard (state : State Object Place) (self : Guard Object) :
    (state.unlock self).guard = state.guard := by
  unfold State.unlock
  cases self.mtx <;> rfl

/-- **A lock is counted** where the guard that is made from it holds it. -/
theorem lock_counts (state : State Object Place) (kind : Kind) (object there : Object) (lock : Lock) :
    ((state.lock kind object).mutex there).holds lock =
      (state.mutex there).holds lock + (holdsLock there lock (some (.of kind object))).toNat ∧
    ((state.lock kind object).mutex there).acquired lock =
      (state.mutex there).acquired lock + (holdsLock there lock (some (.of kind object))).toNat ∧
    ((state.lock kind object).mutex there).released lock = (state.mutex there).released lock ∧
    ((state.lock kind object).mutex there).misused = (state.mutex there).misused := by
  by_cases here : there = object
  · subst here
    by_cases same : lock = kind.lock
    · subst same
      simp [State.lock, Mutex.lock, holdsLock, Guard.of]
    · simp [State.lock, Mutex.lock, holdsLock, Guard.of, same, Ne.symm same]
  · simp [State.lock, holdsLock, Guard.of, here, Ne.symm here]

/-- **An unlock is counted** where the guard holds the lock. -/
theorem unlock_counts (state : State Object Place) (self : Guard Object) (there : Object) (lock : Lock) :
    ((state.unlock self).mutex there).holds lock =
      (state.mutex there).holds lock - (holdsLock there lock (some self)).toNat ∧
    ((state.unlock self).mutex there).acquired lock = (state.mutex there).acquired lock ∧
    ((state.unlock self).mutex there).released lock =
      (state.mutex there).released lock + (holdsLock there lock (some self)).toNat ∧
    ((state.unlock self).mutex there).misused = ((state.mutex there).misused ||
      holdsLock there self.kind.lock (some self) && (state.mutex there).holds self.kind.lock = 0) := by
  unfold State.unlock
  cases mtx : self.mtx with
  | none => simp [holdsLock, mtx]
  | some object =>
    by_cases here : there = object
    · subst here
      by_cases same : lock = self.kind.lock
      · subst same
        simp [Mutex.unlock, holdsLock, mtx]
      · simp [Mutex.unlock, holdsLock, mtx, same, Ne.symm same]
    · simp [holdsLock, mtx, here, Ne.symm here]

section Count

variable [Fintype Place]

/-- The live guards that hold this lock of the object's mutex. -/
def State.guards (state : State Object Place) (object : Object) (lock : Lock) : ℕ :=
  count (holdsLock object lock) state.guard

/-- **What the mutexes count is what the guards hold**, those in their places and one in hand. -/
structure Balanced (state : State Object Place) (hand : Option (Guard Object)) : Prop where
  held : ∀ object lock,
    (state.mutex object).holds lock = state.guards object lock + (holdsLock object lock hand).toNat
  paid : ∀ object lock,
    (state.mutex object).acquired lock = (state.mutex object).released lock + (state.mutex object).holds lock
  unmisused : ∀ object, (state.mutex object).misused = false
  paired : ∀ place guard, state.guard place = some guard → guard.ptr = guard.mtx
  inHand : ∀ guard, hand = some guard → guard.ptr = guard.mtx

theorem guards_put (state : State Object Place) (place : Place) (guard : Option (Guard Object)) (object : Object)
    (lock : Lock) :
    (state.put place guard).guards object lock + (holdsLock object lock (state.guard place)).toNat =
      state.guards object lock + (holdsLock object lock guard).toNat :=
  count_update (holdsLock object lock) state.guard place guard

theorem put_paired {guard : Option (Guard Object)}
    (paired : ∀ place guard, state.guard place = some guard → guard.ptr = guard.mtx)
    (fresh : ∀ self, guard = some self → self.ptr = self.mtx) :
    ∀ there self, (state.put place guard).guard there = some self → self.ptr = self.mtx := by
  intro there self found
  by_cases here : there = place
  · subst here
    exact fresh self ((put_guard_self state there guard).symm.trans found)
  · exact paired there self ((put_guard_of_ne state guard here).symm.trans found)

/-- **The guard in hand comes into a place** that holds nothing. -/
theorem Balanced.settle (balanced : Balanced state (some source)) (idle : Idle (state.guard place)) :
    Balanced (state.put place (some source)) none where
  held object lock := by
    have change := guards_put state place (some source) object lock
    have held := balanced.held object lock
    rw [idle object lock, Bool.toNat_false] at change
    rw [put_mutex, held]
    exact change.symm
  paid := balanced.paid
  unmisused := balanced.unmisused
  paired := put_paired balanced.paired fun self same => balanced.inHand self same
  inHand guard absent := by cases absent

/-- **A guard is taken from its place into the hand**, where something is left that holds nothing. -/
theorem Balanced.lift (balanced : Balanced state none) (here : state.guard place = some source)
    {rest : Option (Guard Object)} (idle : Idle rest)
    (paired : ∀ self, rest = some self → self.ptr = self.mtx) :
    Balanced (state.put place rest) (some source) where
  held object lock := by
    have change := guards_put state place rest object lock
    have held := balanced.held object lock
    rw [here, idle object lock] at change
    rw [put_mutex, held]
    exact change.symm
  paid := balanced.paid
  unmisused := balanced.unmisused
  paired := put_paired balanced.paired paired
  inHand guard same := by
    cases same
    exact balanced.paired place source here

/-- **A lock is acquired** for the guard in hand. -/
theorem Balanced.acquire (balanced : Balanced state none) (kind : Kind) (object : Object) :
    Balanced (state.lock kind object) (some (.of kind object)) where
  held there lock := by
    have held : (state.mutex there).holds lock = state.guards there lock := balanced.held there lock
    rw [(lock_counts state kind object there lock).1, held]
    rfl
  paid there lock := by
    have paid := balanced.paid there lock
    obtain ⟨holds, acquired, released, -⟩ := lock_counts state kind object there lock
    omega
  unmisused there := (lock_counts state kind object there .exclusive).2.2.2.trans (balanced.unmisused there)
  paired := balanced.paired
  inHand guard same := by
    cases same
    rfl

/-- **The guard in hand is given up**: the mutex that it holds is unlocked, once. -/
theorem Balanced.release (balanced : Balanced state (some self)) : Balanced (state.unlock self) none where
  held there lock := by
    have held := balanced.held there lock
    have guards : (state.unlock self).guards there lock = state.guards there lock := by
      rw [State.guards, unlock_guard, State.guards]
    rw [(unlock_counts state self there lock).1, held, Nat.add_sub_cancel, guards]
    rfl
  paid there lock := by
    have held := balanced.held there lock
    have paid := balanced.paid there lock
    obtain ⟨holds, acquired, released, -⟩ := unlock_counts state self there lock
    omega
  unmisused there := by
    have held := balanced.held there self.kind.lock
    rw [(unlock_counts state self there self.kind.lock).2.2.2, balanced.unmisused there, Bool.false_or]
    cases holds : holdsLock there self.kind.lock (some self) with
    | false => rfl
    | true =>
      rw [holds, Bool.toNat_true] at held
      exact decide_eq_false (by omega)
  paired place guard found := by
    rw [unlock_guard] at found
    exact balanced.paired place guard found
  inHand guard same := by cases same

/-! ### The functions -/

theorem moved_ptr (source : Guard Object) : source.moved.ptr = source.moved.mtx := rfl

/-- A guard takes over the pointers of another of its class: it is the other one as it was. -/
theorem take_eq (same : self.kind = source.kind) : self.take source = source := by
  cases self
  cases same
  rfl

/-- An unlock moves no guard. -/
theorem unlock_put (state : State Object Place) (self : Guard Object) (place : Place)
    (guard : Option (Guard Object)) :
    (state.put place guard).unlock self = (state.unlock self).put place guard := by
  unfold State.unlock
  cases self.mtx <;> rfl

theorem put_put (state : State Object Place) (place : Place) (first second : Option (Guard Object)) :
    (state.put place first).put place second = state.put place second := by
  simp [State.put]

theorem put_comm (state : State Object Place) (apart : place ≠ other) (first second : Option (Guard Object)) :
    (state.put place first).put other second = (state.put other second).put place first := by
  simp only [State.put, Function.update_comm apart]

/-- **A lock, and a guard made from it.** -/
theorem Balanced.doLock (balanced : Balanced state none) (free : state.guard place = none) (kind : Kind)
    (object : Object) : Balanced (state.doLock kind place object) none := by
  refine (balanced.acquire kind object).settle ?_
  show Idle (state.guard place)
  rw [free]
  exact idle_none

/-- **A try**, which leaves everything as it is where it fails. -/
theorem Balanced.doTryLock (balanced : Balanced state none) (free : state.guard place = none) (kind : Kind)
    (object : Object) (locked : Bool) : Balanced (state.doTryLock kind place object locked) none := by
  cases locked with
  | false => exact balanced
  | true => exact balanced.doLock free kind object

/-- **A guard moves to a new place.** -/
theorem Balanced.moveConstruct (balanced : Balanced state none) (free : state.guard place = none) :
    Balanced (state.moveConstruct place other) none := by
  unfold State.moveConstruct
  split
  · rename_i source here
    have apart : place ≠ other := by
      rintro rfl
      rw [free] at here
      cases here
    rw [put_comm state apart]
    refine (balanced.lift here (idle_moved source) fun self same => ?_).settle ?_
    · cases same
      exact moved_ptr source
    · rw [put_guard_of_ne state _ apart, free]
      exact idle_none
  · exact balanced

/-- **A guard moves into another one**, which first gives up what it holds. -/
theorem Balanced.moveAssign (balanced : Balanced state none)
    (same : (state.guard place).map Guard.kind = (state.guard other).map Guard.kind) :
    Balanced (state.moveAssign place other) none := by
  unfold State.moveAssign
  split
  · exact balanced
  · rename_i apart
    split
    · rename_i self source here there
      rw [here, there] at same
      have kinds : self.kind = source.kind := Option.some.inj same
      -- the old pointers are dropped, and then the others take their place
      have dropped : Balanced ((state.put place (some self.moved)).unlock self) none :=
        (balanced.lift here (idle_moved self) fun guard moved => by
          cases moved
          exact moved_ptr self).release
      have found : ((state.put place (some self.moved)).unlock self).guard other = some source := by
        rw [unlock_guard, put_guard_of_ne state _ (Ne.symm apart), there]
      have lifted := dropped.lift found (idle_moved source) fun guard moved => by
        cases moved
        exact moved_ptr source
      have settled : Balanced ((((state.put place (some self.moved)).unlock self).put other
          (some source.moved)).put place (some source)) none := by
        refine lifted.settle ?_
        rw [put_guard_of_ne _ _ apart, unlock_guard, put_guard_self]
        exact idle_moved self
      rw [unlock_put, put_comm _ (Ne.symm apart), put_put] at settled
      rw [take_eq kinds]
      exact settled
    · exact balanced

/-- **A guard dies.** -/
theorem Balanced.destroy (balanced : Balanced state none) : Balanced (state.destroy place) none := by
  unfold State.destroy
  split
  · rename_i self here
    rw [← unlock_put]
    exact (balanced.lift here idle_none nofun).release
  · exact balanced

end Count

/-! ### What an action does -/

section Accounts

/-- The place that an action fills, assigns to, or empties. -/
def Action.target : Action Object Variable Call → Variable ⊕ Call
  | .lock v _ _ | .tryLock v _ _ _ | .moveConstruct v _ | .moveAssign v _ | .destroy v => .inl v
  | .lockAnd call _ _ | .tryLockAnd call _ _ _ | .leave call _ => .inr call

/-- The guard that is made from a lock that is acquired. -/
def Action.made : Action Object Variable Call → Option (Guard Object)
  | .lock _ kind object | .tryLock _ kind object true => some (.of kind object)
  | .lockAnd _ kind object | .tryLockAnd _ kind object true => some (.of kind object)
  | .tryLock _ _ _ false | .tryLockAnd _ _ _ false => none
  | .moveConstruct _ _ | .moveAssign _ _ | .destroy _ | .leave _ _ => none

/-- The action destroys the guard in its target. -/
def Action.ends : Action Object Variable Call → Bool
  | .destroy _ | .leave _ _ => true
  | _ => false

/-- The place that a guard is moved from; not where it is assigned to itself. -/
def Action.origin : Action Object Variable Call → Option (Variable ⊕ Call)
  | .moveConstruct _ other => some (.inl other)
  | .moveAssign v other => if v = other then none else some (.inl other)
  | _ => none

/-- The guard that gives up what it holds: it is destroyed, or another one is assigned to it. -/
def State.givesUp (state : State Object (Variable ⊕ Call)) (action : Action Object Variable Call) :
    Option (Guard Object) :=
  if action.ends = true ∨ action.origin ≠ none then state.guard action.target else none

/-- **What an action does to the mutexes and the guards.** -/
structure Accounts (state after : State Object (Variable ⊕ Call)) (action : Action Object Variable Call) :
    Prop where
  acquired : ∀ object lock, (after.mutex object).acquired lock =
    (state.mutex object).acquired lock + (holdsLock object lock action.made).toNat
  released : ∀ object lock, (after.mutex object).released lock =
    (state.mutex object).released lock + (holdsLock object lock (state.givesUp action)).toNat
  made : ∀ guard, action.made = some guard → after.guard action.target = some guard
  ended : action.ends = true → after.guard action.target = none
  moved : ∀ other, action.origin = some other → ∃ guard, state.guard other = some guard ∧
    after.guard action.target = some guard ∧ after.guard other = some guard.moved
  others : ∀ place, action.made = none ∧ action.ends = false ∧ action.origin = none ∨
    place ≠ action.target ∧ action.origin ≠ some place → after.guard place = state.guard place

variable {state after : State Object (Variable ⊕ Call)} {place other : Variable ⊕ Call}

/-- A lock, and a guard made from it. -/
theorem accounts_doLock (action : Action Object Variable Call) {kind : Kind} {object : Object}
    (made : action.made = some (.of kind object)) (lives : action.ends = false) (still : action.origin = none) :
    Accounts state (state.doLock kind action.target object) action where
  acquired there lock := by
    rw [made]
    exact (lock_counts state kind object there lock).2.1
  released there lock := by
    have nothing : state.givesUp action = none := if_neg (by simp [lives, still])
    rw [nothing]
    exact (lock_counts state kind object there lock).2.2.1
  made guard same := by
    rw [← same, made]
    exact put_guard_self _ _ _
  ended ends := by
    rw [lives] at ends
    cases ends
  moved other same := by
    rw [still] at same
    cases same
  others place elsewhere := by
    rcases elsewhere with ⟨none, -⟩ | ⟨apart, -⟩
    · rw [made] at none
      cases none
    · exact put_guard_of_ne _ _ apart

/-- An action that leaves everything as it is. -/
theorem accounts_same (action : Action Object Variable Call) (made : action.made = none)
    (lives : action.ends = false) (still : action.origin = none) : Accounts state state action where
  acquired there lock := by
    rw [made]
    rfl
  released there lock := by
    have nothing : state.givesUp action = none := if_neg (by simp [lives, still])
    rw [nothing]
    rfl
  made guard same := by
    rw [made] at same
    cases same
  ended ends := by
    rw [lives] at ends
    cases ends
  moved other same := by
    rw [still] at same
    cases same
  others place _ := rfl

/-- The end of a guard. -/
theorem accounts_destroy (action : Action Object Variable Call) (live : state.guard action.target ≠ none)
    (made : action.made = none) (ends : action.ends = true) (still : action.origin = none) :
    Accounts state (state.destroy action.target) action := by
  obtain ⟨self, here⟩ := Option.ne_none_iff_exists'.mp live
  have givesUp : state.givesUp action = some self := by
    rw [State.givesUp, if_pos (Or.inl ends), here]
  have result : state.destroy action.target = (state.unlock self).put action.target none := by
    rw [State.destroy, here]
  rw [result]
  refine {
    acquired := fun there lock => ?_
    released := fun there lock => ?_
    made := fun guard same => ?_
    ended := fun _ => put_guard_self _ _ _
    moved := fun other same => ?_
    others := fun place elsewhere => ?_ }
  · rw [made]
    exact (unlock_counts state self there lock).2.1
  · rw [givesUp]
    exact (unlock_counts state self there lock).2.2.1
  · rw [made] at same
    cases same
  · rw [still] at same
    cases same
  · rcases elsewhere with ⟨-, lives, -⟩ | ⟨apart, -⟩
    · rw [ends] at lives
      cases lives
    · rw [put_guard_of_ne _ _ apart, unlock_guard]

/-- A guard moves to a new place. -/
theorem accounts_moveConstruct {v w : Variable} (free : state.guard (.inl v) = none)
    (live : state.guard (.inl w) ≠ none) :
    Accounts state (state.moveConstruct (.inl v) (.inl w)) (.moveConstruct v w : Action Object Variable Call) := by
  obtain ⟨moving, here⟩ := Option.ne_none_iff_exists'.mp live
  have apart : (.inl w : Variable ⊕ Call) ≠ .inl v := by
    intro same
    rw [same, free] at here
    cases here
  have givesUp : state.givesUp (.moveConstruct v w : Action Object Variable Call) = none := by
    rw [State.givesUp, if_pos (Or.inr nofun)]
    exact free
  have result : state.moveConstruct (.inl v) (.inl w) =
      (state.put (.inl v) (some moving)).put (.inl w) (some moving.moved) := by
    rw [State.moveConstruct, here]
  rw [result]
  refine {
    acquired := fun there lock => rfl
    released := fun there lock => by rw [givesUp]; rfl
    made := nofun
    ended := nofun
    moved := fun other same => ?_
    others := fun place elsewhere => ?_ }
  · cases same
    refine ⟨moving, here, ?_, put_guard_self _ _ _⟩
    exact (put_guard_of_ne _ _ apart.symm).trans (put_guard_self _ _ _)
  · rcases elsewhere with ⟨-, -, still⟩ | ⟨target, away⟩
    · cases still
    · have away : place ≠ .inl w := fun same => away (congrArg some same.symm)
      exact (put_guard_of_ne _ _ away).trans (put_guard_of_ne _ _ target)

/-- A guard moves into another one of its class, which gives up what it holds. -/
theorem accounts_moveAssign {v w : Variable} (live : state.guard (.inl v) ≠ none)
    (same : (state.guard (.inl v)).map Guard.kind = (state.guard (.inl w)).map Guard.kind) :
    Accounts state (state.moveAssign (.inl v) (.inl w)) (.moveAssign v w : Action Object Variable Call) := by
  by_cases alike : v = w
  · have result : state.moveAssign (.inl v) (.inl w) = state := by
      rw [State.moveAssign, if_pos (congrArg Sum.inl alike)]
    rw [result]
    exact accounts_same (.moveAssign v w) rfl rfl (if_pos alike)
  · have apart : (.inl v : Variable ⊕ Call) ≠ .inl w := fun same => alike (Sum.inl.inj same)
    obtain ⟨self, here⟩ := Option.ne_none_iff_exists'.mp live
    rw [here] at same
    obtain ⟨moving, there, kinds⟩ := Option.map_eq_some_iff.mp same.symm
    have origin : (.moveAssign v w : Action Object Variable Call).origin = some (.inl w) := if_neg alike
    have givesUp : state.givesUp (.moveAssign v w : Action Object Variable Call) = some self := by
      rw [State.givesUp, if_pos (Or.inr (by rw [origin]; nofun))]
      exact here
    have result : state.moveAssign (.inl v) (.inl w) =
        ((state.unlock self).put (.inl v) (some moving)).put (.inl w) (some moving.moved) := by
      simp only [State.moveAssign, if_neg apart, here, there, take_eq kinds.symm]
    rw [result]
    refine {
      acquired := fun object lock => (unlock_counts state self object lock).2.1
      released := fun object lock => by
        rw [givesUp]
        exact (unlock_counts state self object lock).2.2.1
      made := nofun
      ended := nofun
      moved := fun other found => ?_
      others := fun place elsewhere => ?_ }
    · rw [origin] at found
      cases found
      refine ⟨moving, there, ?_, put_guard_self _ _ _⟩
      exact (put_guard_of_ne _ _ apart).trans (put_guard_self _ _ _)
    · rw [origin] at elsewhere
      rcases elsewhere with ⟨-, -, still⟩ | ⟨target, away⟩
      · cases still
      · have away : place ≠ .inl w := fun same => away (congrArg some same.symm)
        have kept : ((state.unlock self).put (.inl v) (some moving)).guard place = (state.unlock self).guard place :=
          put_guard_of_ne _ _ target
        rw [put_guard_of_ne _ _ away, kept, unlock_guard]

/-- **Every action acquires what its guard is made from, and releases what is given up.** -/
theorem accounts_of_next {action : Action Object Variable Call}
    (taken : LockedObject.next admits state action = some after) : Accounts state after action := by
  cases action <;>
    simp only [LockedObject.next, Option.ite_none_right_eq_some, Option.some.injEq] at taken <;>
    obtain ⟨allowed, rfl⟩ := taken
  case lock v kind object => exact accounts_doLock (.lock v kind object) rfl rfl rfl
  case tryLock v kind object locked =>
    cases locked with
    | false => exact accounts_same (.tryLock v kind object false) rfl rfl rfl
    | true => exact accounts_doLock (.tryLock v kind object true) rfl rfl rfl
  case moveConstruct v w => exact accounts_moveConstruct allowed.1 allowed.2
  case moveAssign v w => exact accounts_moveAssign allowed.1 allowed.2
  case destroy v => exact accounts_destroy (.destroy v) allowed rfl rfl rfl
  case lockAnd call kind object => exact accounts_doLock (.lockAnd call kind object) rfl rfl rfl
  case tryLockAnd call kind object locked =>
    cases locked with
    | false => exact accounts_same (.tryLockAnd call kind object false) rfl rfl rfl
    | true => exact accounts_doLock (.tryLockAnd call kind object true) rfl rfl rfl
  case leave call exit =>
    cases exit with
    | returns => exact accounts_destroy (.leave call .returns) allowed rfl rfl rfl
    | throws => exact accounts_destroy (.leave call .throws) allowed rfl rfl rfl

/-- A live guard can be destroyed, and a call of the `lock_and` family can leave, by return or exception. -/
theorem ends_of_live {action : Action Object Variable Call} (live : state.guard action.target ≠ none)
    (ends : action.ends = true) : ∃ after, LockedObject.next admits state action = some after := by
  cases action with
  | destroy v => exact ⟨_, if_pos live⟩
  | leave call exit => exact ⟨_, if_pos live⟩
  | lock | tryLock | moveConstruct | moveAssign | lockAnd | tryLockAnd => cases ends

end Accounts

/-! ### Runs -/

section Runs

variable [Fintype Variable] [Fintype Call]

theorem balanced_start : Balanced (system admits Object Variable Call).start none where
  held object lock := (count_const rfl).symm
  paid object lock := rfl
  unmisused object := rfl
  paired place guard found := by cases found
  inHand guard same := by cases same

/-- **Every action keeps the balance.** -/
theorem Balanced.next {state after : State Object (Variable ⊕ Call)} (balanced : Balanced state none)
    {action : Action Object Variable Call} (taken : LockedObject.next admits state action = some after) :
    Balanced after none := by
  cases action <;>
    simp only [LockedObject.next, Option.ite_none_right_eq_some, Option.some.injEq] at taken <;>
    obtain ⟨allowed, rfl⟩ := taken
  case lock v kind object => exact balanced.doLock allowed.1 kind object
  case tryLock v kind object locked => exact balanced.doTryLock allowed.1 kind object locked
  case moveConstruct v other => exact balanced.moveConstruct allowed.1
  case moveAssign v other => exact balanced.moveAssign allowed.2
  case destroy v => exact balanced.destroy
  case lockAnd call kind object => exact balanced.doLock allowed.1 kind object
  case tryLockAnd call kind object locked => exact balanced.doTryLock allowed.1 kind object locked
  case leave call exit =>
    cases exit with
    | returns | throws => exact balanced.destroy

theorem balanced_of_reachable {state : State Object (Variable ⊕ Call)}
    (reached : (system admits Object Variable Call).Reachable state) : Balanced state none :=
  reached.invariant (P := fun state => Balanced state none) balanced_start
    fun _ _ _ _ balanced _ taken => balanced.next taken

/-- **Every lock is released exactly once.** After any sequence of locks and tries, moves and assignments of
guards, `lock_and` calls and their ends, over mutexes that give locks as they like,

* the holds of a mutex, exclusive and shared, are the live guards that refer to it;
* it was acquired as often as it was unlocked, and once more for each of these guards;
* it was never unlocked where it was not held;
* a guard is empty, or it dereferences to the value of the object whose mutex it holds;
* an action acquires what the guard that it makes holds, and releases what the guard has held that it destroys
  or assigns to: the end of a variable or of a `lock_and` call, which every live guard can come to, empties its
  place and unlocks its mutex. -/
theorem guards_release_once {state : State Object (Variable ⊕ Call)}
    (reached : (system admits Object Variable Call).Reachable state) :
    (∀ object lock, (state.mutex object).holds lock = state.guards object lock) ∧
    (∀ object lock,
      (state.mutex object).acquired lock = (state.mutex object).released lock + state.guards object lock) ∧
    (∀ object, (state.mutex object).misused = false) ∧
    (∀ place guard, state.guard place = some guard → guard.mtx = guard.get ∧
      ∀ object, guard.get = some object → 0 < (state.mutex object).holds guard.kind.lock) ∧
    (∀ action after, (system admits Object Variable Call).next state action = some after →
      Accounts state after action) ∧
    ∀ action : Action Object Variable Call, action.ends = true → state.guard action.target ≠ none →
      ∃ after, (system admits Object Variable Call).next state action = some after := by
  have balanced := balanced_of_reachable reached
  refine ⟨balanced.held, fun object lock => ?_, balanced.unmisused, fun place guard here => ?_,
    fun action after taken => accounts_of_next taken, fun action ends live => ends_of_live live ends⟩
  · have held : (state.mutex object).holds lock = state.guards object lock := balanced.held object lock
    rw [← held]
    exact balanced.paid object lock
  · have paired := balanced.paired place guard here
    refine ⟨paired.symm, fun object dereferenced => ?_⟩
    have mtx : guard.mtx = some object := paired.symm.trans dereferenced
    rw [balanced.held object guard.kind.lock]
    have inside : holdsLock object guard.kind.lock (state.guard place) = true := by
      rw [here]
      simp [holdsLock, mtx]
    exact Nat.add_pos_left (count_pos inside) _

/-- Two shared guards of one object and a `lock_and` call on another one: the first guard is assigned the
second, which unlocks its own lock, and then itself; the function throws, and its call gives the lock up. -/
theorem guards_release_once_assigned :
    ∃ state after, (system sharedMutex (Fin 2) (Fin 2) (Fin 1)).Reachable state ∧
      (state.mutex 0).acquired .shared = 2 ∧ (state.mutex 0).released .shared = 1 ∧
      state.guards 0 .shared = 1 ∧ (state.mutex 1).released .exclusive = 0 ∧
      (system sharedMutex (Fin 2) (Fin 2) (Fin 1)).next state (.leave 0 .throws) = some after ∧
      after.guard (.inr 0) = none ∧ (after.mutex 1).released .exclusive = 1 := by
  obtain ⟨state, reached, computed⟩ := System.exists_reachable_of_run
    (system sharedMutex (Fin 2) (Fin 2) (Fin 1))
    [.lock 0 .shared 0, .tryLock 1 .shared 0 true, .lockAnd 0 .plain 1, .moveAssign 0 1, .moveAssign 0 0,
      .destroy 1]
    (fun state => decide ((state.mutex 0).acquired .shared = 2 ∧ (state.mutex 0).released .shared = 1 ∧
      (state.mutex 1).released .exclusive = 0 ∧ state.guard (.inr 0) = some (.of .plain 1)))
    (by decide +kernel)
  obtain ⟨locks, unlocks, none, here⟩ := of_decide_eq_true computed
  obtain ⟨-, paid, -, -, accounts, ends⟩ := guards_release_once reached
  have shared := paid 0 .shared
  obtain ⟨after, taken⟩ := ends (.leave 0 .throws) rfl (by
    show state.guard (.inr 0) ≠ Option.none
    rw [here]
    nofun)
  have account := accounts _ after taken
  have released := account.released 1 .exclusive
  have givesUp : state.givesUp (.leave 0 .throws : Action (Fin 2) (Fin 2) (Fin 1)) = some (.of .plain 1) := here
  rw [givesUp, none] at released
  exact ⟨state, after, reached, locks, unlocks, by omega, none, taken, account.ended rfl, released⟩

end Runs

/-! ### Mutexes that exclude -/

/-- The mutex gives an exclusive lock where nothing is held, and a shared one where no exclusive lock is. -/
structure Excludes (admits : (Lock → ℕ) → Lock → Bool) : Prop where
  exclusive : ∀ holds, admits holds .exclusive = true → holds .exclusive = 0 ∧ holds .shared = 0
  shared : ∀ holds, admits holds .shared = true → holds .exclusive = 0

theorem excludes_sharedMutex : Excludes sharedMutex where
  exclusive _ admitted := of_decide_eq_true admitted
  shared _ admitted := of_decide_eq_true admitted

/-- A mutex with one exclusive hold at most, and then with no shared one. -/
def Excluding (holds : Lock → ℕ) : Prop := holds .exclusive + min 1 (holds .shared) ≤ 1

theorem unlock_holds_le (state : State Object Place) (self : Guard Object) (object : Object) (lock : Lock) :
    ((state.unlock self).mutex object).holds lock ≤ (state.mutex object).holds lock := by
  rw [(unlock_counts state self object lock).1]
  exact Nat.sub_le _ _

theorem Excluding.of_le {holds fewer : Lock → ℕ} (excluding : Excluding holds)
    (le : ∀ lock, fewer lock ≤ holds lock) :
    Excluding fewer := by
  have exclusive := le .exclusive
  have shared := le .shared
  unfold Excluding at *
  omega

/-- A lock that is given at these holds leaves them excluding. -/
theorem Excludes.acquire (excludes : Excludes admits) {holds : Lock → ℕ} (admitted : admits holds lock = true) :
    Excluding (Function.update holds lock (holds lock + 1)) := by
  unfold Excluding at *
  cases lock with
  | exclusive =>
    obtain ⟨free, unshared⟩ := excludes.exclusive holds admitted
    simp [Function.update, free, unshared]
  | shared =>
    have free := excludes.shared holds admitted
    simp [Function.update, free]

theorem Excludes.doLock (excludes : Excludes admits) {kind : Kind}
    (excluding : ∀ object, Excluding (state.mutex object).holds)
    (admitted : admits (state.mutex object).holds kind.lock = true) (there : Object) :
    Excluding ((state.doLock kind place object).mutex there).holds := by
  show Excluding (Function.update state.mutex object _ there).holds
  by_cases here : there = object
  · subst here
    rw [Function.update_self]
    exact excludes.acquire admitted
  · rw [Function.update_of_ne here]
    exact excluding there

/-- A step of a guard acquires nothing. -/
theorem moveConstruct_mutex (state : State Object Place) (place other : Place) :
    (state.moveConstruct place other).mutex = state.mutex := by
  unfold State.moveConstruct
  split <;> rfl

theorem moveAssign_holds_le (state : State Object Place) (place other : Place) (object : Object) (lock : Lock) :
    ((state.moveAssign place other).mutex object).holds lock ≤ (state.mutex object).holds lock := by
  unfold State.moveAssign
  split
  · exact Nat.le_refl _
  · split
    · exact unlock_holds_le state _ object lock
    · exact Nat.le_refl _

theorem destroy_holds_le (state : State Object Place) (place : Place) (object : Object) (lock : Lock) :
    ((state.destroy place).mutex object).holds lock ≤ (state.mutex object).holds lock := by
  unfold State.destroy
  split
  · exact unlock_holds_le state _ object lock
  · exact Nat.le_refl _

theorem Excludes.next (excludes : Excludes admits) {state after : State Object (Variable ⊕ Call)}
    (excluding : ∀ object, Excluding (state.mutex object).holds) {action : Action Object Variable Call}
    (taken : LockedObject.next admits state action = some after) (there : Object) :
    Excluding (after.mutex there).holds := by
  have try_excluding {place : Variable ⊕ Call} {kind : Kind} {object : Object} {locked : Bool}
      (admitted : locked = true → admits (state.mutex object).holds kind.lock = true) :
      Excluding ((state.doTryLock kind place object locked).mutex there).holds := by
    cases locked with
    | false => exact excluding there
    | true => exact excludes.doLock excluding (admitted rfl) there
  cases action <;>
    simp only [LockedObject.next, Option.ite_none_right_eq_some, Option.some.injEq] at taken <;>
    obtain ⟨allowed, rfl⟩ := taken
  case lock v kind object => exact excludes.doLock excluding allowed.2 there
  case tryLock v kind object locked => exact try_excluding allowed.2
  case moveConstruct v other =>
    rw [moveConstruct_mutex]
    exact excluding there
  case moveAssign v other => exact (excluding there).of_le (moveAssign_holds_le state _ _ there)
  case destroy v => exact (excluding there).of_le (destroy_holds_le state _ there)
  case lockAnd call kind object => exact excludes.doLock excluding allowed.2 there
  case tryLockAnd call kind object locked => exact try_excluding allowed.2
  case leave call exit =>
    cases exit with
    | returns | throws => exact (excluding there).of_le (destroy_holds_le state _ there)

/-- **An exclusive guard is alone.** Over mutexes that exclude, no two guards dereference to one value if one of
them is exclusive. -/
theorem exclusive_alone [Fintype Variable] [Fintype Call] (excludes : Excludes admits)
    {state : State Object (Variable ⊕ Call)} (reached : (system admits Object Variable Call).Reachable state)
    {place other : Variable ⊕ Call} (here : state.guard place = some self)
    (there : state.guard other = some source)
    (exclusive : self.kind.lock = .exclusive) (dereferenced : self.get = some object)
    (same : source.get = some object) : place = other := by
  have balanced := balanced_of_reachable reached
  have excluding : ∀ object, Excluding (state.mutex object).holds :=
    reached.invariant (P := fun state => ∀ object, Excluding (state.mutex object).holds)
      (fun _ => by simp [system, Excluding]) fun _ _ _ _ excluding _ taken => excludes.next excluding taken
  have few : state.guards object .exclusive + min 1 (state.guards object .shared) ≤ 1 := by
    have most := excluding object
    rw [Excluding, balanced.held, balanced.held] at most
    exact most
  have mine : holdsLock object .exclusive (state.guard place) = true := by
    have mtx : self.mtx = some object := (balanced.paired place self here).symm.trans dereferenced
    rw [here]
    simp [holdsLock, mtx, exclusive]
  have mtx : source.mtx = some object := (balanced.paired other source there).symm.trans same
  cases kind : source.kind.lock with
  | exclusive =>
    have yours : holdsLock object .exclusive (state.guard other) = true := by
      rw [there]
      simp [holdsLock, mtx, kind]
    exact eq_of_count_le_one (Nat.le_trans (Nat.le_add_right _ _) few) mine yours
  | shared =>
    have yours : holdsLock object .shared (state.guard other) = true := by
      rw [there]
      simp [holdsLock, mtx, kind]
    have one : 0 < state.guards object .exclusive := count_pos mine
    have another : 0 < state.guards object .shared := count_pos yours
    omega

end NovaSync.LockedObject
