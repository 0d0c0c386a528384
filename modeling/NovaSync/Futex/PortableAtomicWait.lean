/-
**The portable fallback of `futex/atomic_wait.cpp`.**

`atomic_wait_for` and `atomic_wait_until` sleep on the condition variable of a bucket, one of 67 that all
addresses are hashed into. `atomic_notify_one` notifies the bucket's condition variable, which wakes any
one of its sleepers. A wait goes back to sleep if it finds its own word unchanged.

The words are written by anybody at any time; a wait may leave the condition variable by its timeout or
spuriously. What `notify_one` and `notify_all` of the atomic itself do concerns the sleepers of
`atomic_wait` only, which in this fallback is `std::atomic::wait`.

* `portable_notify_one_wakes_iff` — of enough notifications of a changed word no waiter of it is left
  asleep, if and only if nobody waits for it or nobody sleeps in its bucket on another word.
* `portable_notify_one_absorbed` — two words in one bucket.
-/

import NovaSync.Concurrency.Threads
import Mathlib.Data.Finset.Piecewise

set_option linter.unusedSectionVars false

namespace NovaSync.Futex.Portable

open Concurrency

/-! ### The program -/

/-- `std::uintptr_t`. -/
abbrev Address := BitVec 64

/-- `bucket_count`. -/
def bucketCount : ℕ := 67

/-- `bucket_for`: the index of an address's bucket. -/
def bucketFor (address : Address) : Fin bucketCount :=
  let h := address ^^^ (address >>> 16)
  let h := h * 0x9e3779b9
  ⟨h.toNat % bucketCount, Nat.mod_lt _ (by decide)⟩

/-- The atomic that a wait is for, and the value it expects. -/
structure Wait where
  address : Address
  old : ℤ
deriving DecidableEq, Repr

def Wait.bucket (wait : Wait) : Fin bucketCount := bucketFor wait.address

inductive Op
  | waitFor (wait : Wait) (positive : Bool)
  | waitUntil (wait : Wait)
  | notify (kind : WakeCount) (address : Address)
deriving DecidableEq, Repr

/-- The next access of a thread to a word, a bucket's mutex or its condition variable.

* `idle`: outside, with what its last wait returned.
* `loadOnce`: the only load of a wait without time left; `probe`: the load before the mutex.
* `lock`, `recheck`: the lock of the mutex, and the load under it.
* `test`, `asleep`, `relock`: the predicate, the sleep, and the lock after it, of `wait_for` and
  `wait_until` of the condition variable. The predicate after a timeout decides nothing.
* `last`: the last load, and the unlock.
* `notify`, `notifyLock`, `notifyCv`, `notifyUnlock`: the notification of the atomic, the lock, the
  notification of the condition variable, and the unlock of `atomic_notify_one` and
  `atomic_notify_all`. -/
inductive Pc
  | idle (result : Option Bool)
  | loadOnce (wait : Wait)
  | probe (wait : Wait)
  | lock (wait : Wait)
  | recheck (wait : Wait)
  | test (wait : Wait)
  | asleep (wait : Wait)
  | relock (wait : Wait) (expired : Bool)
  | last (wait : Wait)
  | notify (kind : WakeCount) (address : Address)
  | notifyLock (kind : WakeCount) (address : Address)
  | notifyCv (kind : WakeCount) (address : Address)
  | notifyUnlock (kind : WakeCount) (address : Address)
deriving DecidableEq, Repr

/-- The words, the mutexes of the buckets, and the threads. -/
@[ext] structure State (Thread : Type*) where
  value : Address → ℤ
  locked : Fin bucketCount → Bool
  thread : Thread → Pc

/-- What happens: a call, a thread's step, a notification of the condition variable with the sleeper it
wakes, the end of a sleep without one, a store. -/
inductive Action (Thread : Type*)
  | call (thread : Thread) (op : Op)
  | step (thread : Thread)
  | notify (thread : Thread) (target : Option Thread)
  | leave (thread : Thread) (expired : Bool)
  | store (address : Address) (value : ℤ)

/-- The first point of an operation. -/
def call : Op → Pc
  | .waitFor wait positive => if positive then .probe wait else .loadOnce wait
  | .waitUntil wait => .probe wait
  | .notify kind address => .notify kind address

namespace Pc

/-- The wait that a thread is in. -/
def waiting : Pc → Option Wait
  | .loadOnce wait | .probe wait | .lock wait | .recheck wait | .test wait => some wait
  | .asleep wait | .relock wait _ | .last wait => some wait
  | _ => none

/-- The thread sleeps on a bucket's condition variable. -/
def asleepIn (bucket : Fin bucketCount) : Pc → Bool
  | .asleep wait => wait.bucket = bucket
  | _ => false

/-- The thread sleeps, waiting for an atomic. -/
def asleepOn (address : Address) : Pc → Bool
  | .asleep wait => wait.address = address
  | _ => false

/-- The thread is inside `atomic_notify_one` of an atomic. -/
def notifies (address : Address) : Pc → Bool
  | .notify .one other | .notifyLock .one other | .notifyCv .one other | .notifyUnlock .one other =>
      other = address
  | _ => false

/-- It has not yet notified the condition variable. -/
def pends (address : Address) : Pc → Bool
  | .notify .one other | .notifyLock .one other | .notifyCv .one other => other = address
  | _ => false

/-- A sleeper that leaves the condition variable. -/
def left (expired : Bool) : Pc → Pc
  | .asleep wait => .relock wait expired
  | pc => pc

end Pc

section System

variable {Thread : Type*} [DecidableEq Thread]

namespace State

def move (state : State Thread) (t : Thread) (pc : Pc) : State Thread :=
  { state with thread := Function.update state.thread t pc }

/-- A thread locks a bucket's mutex, if nobody has it. -/
def acquire (state : State Thread) (bucket : Fin bucketCount) (t : Thread) (pc : Pc) :
    Option (State Thread) :=
  if state.locked bucket then none
  else some { state.move t pc with locked := Function.update state.locked bucket true }

def release (state : State Thread) (bucket : Fin bucketCount) (t : Thread) (pc : Pc) : State Thread :=
  { state.move t pc with locked := Function.update state.locked bucket false }

/-- The word of a wait is no longer the expected one. -/
def changed (state : State Thread) (wait : Wait) : Bool := state.value wait.address ≠ wait.old

end State

/-- A thread's next access, other than a notification of a condition variable. -/
def step (state : State Thread) (t : Thread) : Option (State Thread) :=
  match state.thread t with
  | .loadOnce wait => some (state.move t (.idle (some (state.changed wait))))
  | .probe wait => some (state.move t (if state.changed wait then .idle (some true) else .lock wait))
  | .lock wait => state.acquire wait.bucket t (.recheck wait)
  | .recheck wait => some <| if state.changed wait then state.release wait.bucket t (.idle (some true))
      else state.move t (.test wait)
  | .test wait => some <| if state.changed wait then state.move t (.last wait)
      else state.release wait.bucket t (.asleep wait)
  | .relock wait expired => state.acquire wait.bucket t (if expired then .last wait else .test wait)
  | .last wait => some (state.release wait.bucket t (.idle (some (state.changed wait))))
  | .notify kind address => some (state.move t (.notifyLock kind address))
  | .notifyLock kind address => state.acquire (bucketFor address) t (.notifyCv kind address)
  | .notifyUnlock _ address => some (state.release (bucketFor address) t (.idle none))
  | .idle _ | .asleep _ | .notifyCv _ _ => none

/-- Every sleeper of a bucket woken. -/
def wakeAll (state : State Thread) (bucket : Fin bucketCount) : State Thread :=
  { state with
    thread := fun u =>
      if (state.thread u).asleepIn bucket then (state.thread u).left false else state.thread u }

variable [Fintype Thread]

/-- The state after an action. `notify_one` wakes a sleeper if there is one. -/
def next (state : State Thread) : Action Thread → Option (State Thread)
  | .call t op =>
      match state.thread t with
      | .idle _ => some (state.move t (call op))
      | _ => none
  | .step t => step state t
  | .notify t target =>
      match state.thread t, target with
      | .notifyCv .one address, some u =>
          if (state.thread u).asleepIn (bucketFor address) then
            some ((state.move u ((state.thread u).left false)).move t (.notifyUnlock .one address))
          else none
      | .notifyCv .one address, none =>
          if ∀ u, (state.thread u).asleepIn (bucketFor address) = false then
            some (state.move t (.notifyUnlock .one address))
          else none
      | .notifyCv .all address, none =>
          some ((wakeAll state (bucketFor address)).move t (.notifyUnlock .all address))
      | _, _ => none
  | .leave t expired =>
      match state.thread t with
      | .asleep wait => some (state.move t (.relock wait expired))
      | _ => none
  | .store address value => some { state with value := Function.update state.value address value }

/-- The buckets used by the threads of `Thread`. -/
def system (value : Address → ℤ) : System (State Thread) (Action Thread) where
  start := { value := value, locked := fun _ => false, thread := fun _ => .idle none }
  next := next

/-! ### What a step can do -/

/-- **The effects of an action.**

* `moves`: one thread goes on; it falls asleep on an unchanged word only, and keeps the wait it is in.
* `wakes`: a thread notifies a condition variable; `notify_one` wakes one of its sleepers, if it has
  any. -/
inductive Effect (state : State Thread) : Action Thread → State Thread → Prop
  | calls {t : Thread} {op : Op} : Effect state (.call t op) (state.move t (Portable.call op))
  | moves {action : Action Thread} {t : Thread} {locked : Fin bucketCount → Bool} {pc : Pc} :
      (∀ wait, pc.waiting = some wait → (state.thread t).waiting = some wait) →
      (∀ wait, pc = .asleep wait → state.changed wait = false) →
      (∀ address, pc.pends address = (state.thread t).pends address) →
      Effect state action { state.move t pc with locked := locked }
  | wakes {action : Action Thread} {t : Thread} {kind : WakeCount} {address : Address}
      {others : Thread → Pc} : state.thread t = .notifyCv kind address →
      (∀ u, others u = state.thread u ∨ (state.thread u).asleepIn (bucketFor address) = true ∧
        others u = (state.thread u).left false) →
      (kind = .one → (∃ u, (state.thread u).asleepIn (bucketFor address) = true ∧
          others = Function.update state.thread u ((state.thread u).left false)) ∨
        ∀ u, (state.thread u).asleepIn (bucketFor address) = false) →
      Effect state action { state with thread := Function.update others t (.notifyUnlock kind address) }
  | stores {address : Address} {value : ℤ} :
      Effect state (.store address value)
        { state with value := Function.update state.value address value }

variable {state after : State Thread} {t : Thread}

/-- A thread that locks a mutex. -/
theorem acquire_effect {action : Action Thread} {bucket : Fin bucketCount} {pc : Pc}
    (acquired : state.acquire bucket t pc = some after)
    (waiting : ∀ wait, pc.waiting = some wait → (state.thread t).waiting = some wait)
    (awake : ∀ wait, pc ≠ .asleep wait)
    (pends : ∀ address, pc.pends address = (state.thread t).pends address) :
    Effect state action after := by
  unfold State.acquire at acquired
  split at acquired
  · cases acquired
  · cases acquired
    exact .moves waiting (fun wait asleep => absurd asleep (awake wait)) pends

theorem step_effect {action : Action Thread} (stepped : step state t = some after) :
    Effect state action after := by
  unfold step at stepped
  cases here : state.thread t with
  | idle | asleep | notifyCv =>
    rw [here] at stepped
    cases stepped
  | loadOnce wait =>
    rw [here] at stepped
    cases stepped
    exact .moves nofun nofun fun _ => by rw [here]; rfl
  | probe wait =>
    rw [here] at stepped
    cases stepped
    refine .moves ?_ ?_ ?_
    · intro other
      rw [here]
      split
      · nofun
      · exact id
    · intro other
      split <;> nofun
    · intro address
      rw [here]
      split <;> rfl
  | lock wait =>
    rw [here] at stepped
    refine acquire_effect stepped ?_ nofun ?_ <;> rw [here]
    · exact fun _ => id
    · exact fun _ => rfl
  | recheck wait =>
    rw [here] at stepped
    cases stepped
    split
    · exact .moves nofun nofun fun _ => by rw [here]; rfl
    · refine .moves ?_ nofun ?_ <;> rw [here]
      · exact fun _ => id
      · exact fun _ => rfl
  | test wait =>
    rw [here] at stepped
    cases stepped
    split
    · refine .moves ?_ nofun ?_ <;> rw [here]
      · exact fun _ => id
      · exact fun _ => rfl
    · rename_i unchanged
      refine .moves ?_ ?_ ?_
      · rw [here]
        exact fun _ => id
      · intro other asleep
        cases asleep
        exact Bool.eq_false_of_not_eq_true unchanged
      · rw [here]
        exact fun _ => rfl
  | relock wait expired =>
    rw [here] at stepped
    cases expired with
    | false | true =>
      refine acquire_effect stepped ?_ nofun ?_ <;> rw [here]
      · exact fun _ => id
      · exact fun _ => rfl
  | last wait =>
    rw [here] at stepped
    cases stepped
    exact .moves nofun nofun fun _ => by rw [here]; rfl
  | notify kind address =>
    rw [here] at stepped
    cases stepped
    refine .moves nofun nofun ?_
    rw [here]
    cases kind <;> exact fun _ => rfl
  | notifyLock kind address =>
    rw [here] at stepped
    refine acquire_effect stepped nofun nofun ?_
    rw [here]
    cases kind <;> exact fun _ => rfl
  | notifyUnlock kind address =>
    rw [here] at stepped
    cases stepped
    refine .moves nofun nofun ?_
    rw [here]
    cases kind <;> exact fun _ => rfl

/-- **Every action has one of the effects.** -/
theorem next_effect {action : Action Thread} (taken : next state action = some after) :
    Effect state action after := by
  cases action with
  | call t op =>
    simp only [next] at taken
    split at taken
    · cases taken
      exact .calls
    · cases taken
  | step t => exact step_effect taken
  | notify t target =>
    simp only [next] at taken
    split at taken
    · rename_i address u here
      split at taken
      · rename_i asleep
        cases taken
        refine .wakes here (fun v => ?_) fun _ => Or.inl ⟨u, asleep, rfl⟩
        by_cases same : v = u
        · subst same
          exact Or.inr ⟨asleep, Function.update_self ..⟩
        · exact Or.inl (Function.update_of_ne same ..)
      · cases taken
    · rename_i address here
      split at taken
      · rename_i nobody
        cases taken
        exact .wakes here (fun _ => Or.inl rfl) fun _ => Or.inr nobody
      · cases taken
    · rename_i address here
      cases taken
      refine .wakes here (fun v => ?_) nofun
      by_cases asleep : (state.thread v).asleepIn (bucketFor address) = true
      · exact Or.inr ⟨asleep, if_pos asleep⟩
      · exact Or.inl (if_neg asleep)
    · cases taken
  | leave t expired =>
    simp only [next] at taken
    split at taken
    · rename_i wait here
      cases taken
      refine .moves ?_ nofun ?_ <;> rw [here]
      · exact fun _ => id
      · exact fun _ => rfl
    · cases taken
  | store address value =>
    cases taken
    exact .stores

end System

/-! ### A bucket of one word -/

section Covered

variable {Thread : Type*} [DecidableEq Thread] [Fintype Thread]

/-- No operation is called, and a word stays changed: no store gives it a value that a wait for it
expects. -/
def Settled (address : Address) (state : State Thread) : Action Thread → Prop
  | .call _ _ => False
  | .store other value => other = address → ∀ t wait, (state.thread t).waiting = some wait →
      wait.address = address → value ≠ wait.old
  | .step _ | .notify _ _ | .leave _ _ => True

/-- **Every sleeper has a notification before it.** In the word's bucket everybody waits for the word,
which has changed, and as many notifications of it are to come as there are sleepers. -/
structure Covered (address : Address) (state : State Thread) : Prop where
  single : ∀ t wait, (state.thread t).waiting = some wait → wait.bucket = bucketFor address →
    wait.address = address
  changed : ∀ t wait, (state.thread t).waiting = some wait → wait.address = address →
    state.value address ≠ wait.old
  enough : count (Pc.asleepOn address) state.thread ≤ count (Pc.pends address) state.thread

variable {address : Address} {state after : State Thread} {t u : Thread}

theorem waiting_of_asleepOn {pc : Pc} (asleep : pc.asleepOn address = true) :
    ∃ wait, pc = .asleep wait ∧ wait.address = address := by
  cases pc with
  | asleep wait => exact ⟨wait, rfl, of_decide_eq_true asleep⟩
  | _ => cases asleep

theorem waiting_of_asleepIn {pc : Pc} {bucket : Fin bucketCount} (asleep : pc.asleepIn bucket = true) :
    ∃ wait, pc = .asleep wait ∧ wait.bucket = bucket := by
  cases pc with
  | asleep wait => exact ⟨wait, rfl, of_decide_eq_true asleep⟩
  | _ => cases asleep

theorem asleepIn_of_asleepOn {pc : Pc} (asleep : pc.asleepOn address = true) :
    pc.asleepIn (bucketFor address) = true := by
  obtain ⟨wait, rfl, rfl⟩ := waiting_of_asleepOn asleep
  exact decide_eq_true rfl

variable (address) in
theorem left_waiting {pc : Pc} {bucket : Fin bucketCount} (asleep : pc.asleepIn bucket = true) :
    (pc.left false).waiting = pc.waiting ∧ (pc.left false).asleepOn address = false ∧
      (pc.left false).pends address = pc.pends address := by
  obtain ⟨wait, rfl, -⟩ := waiting_of_asleepIn asleep
  exact ⟨rfl, rfl, rfl⟩

/-- Without calls, a thread is in no other wait than before. -/
theorem waiting_of_effect {action : Action Thread} (settled : Settled address state action)
    (effect : Effect state action after) (u : Thread) (wait : Wait)
    (there : (after.thread u).waiting = some wait) : (state.thread u).waiting = some wait := by
  cases effect with
  | calls => exact settled.elim
  | moves waiting =>
    rcases update_cases Pc.waiting there with ⟨rfl, here⟩ | ⟨-, before⟩
    · exact waiting wait here
    · exact before
  | wakes _ woken =>
    rcases update_cases Pc.waiting there with ⟨-, moved⟩ | ⟨-, before⟩
    · cases moved
    · rcases woken u with same | ⟨asleep, left⟩
      · rwa [same] at before
      · rwa [left, (left_waiting address asleep).1] at before
  | stores => exact there

/-- **A notification**: of the word it wakes one of its sleepers, if there is one; of another word it
wakes at most. -/
theorem Covered.wakes (covered : Covered address state) {kind : WakeCount} {other : Address}
    {others : Thread → Pc} (here : state.thread t = .notifyCv kind other)
    (woken : ∀ u, others u = state.thread u ∨ (state.thread u).asleepIn (bucketFor other) = true ∧
      others u = (state.thread u).left false)
    (one : kind = .one → (∃ u, (state.thread u).asleepIn (bucketFor other) = true ∧
        others = Function.update state.thread u ((state.thread u).left false)) ∨
      ∀ u, (state.thread u).asleepIn (bucketFor other) = false) :
    count (Pc.asleepOn address) (Function.update others t (.notifyUnlock kind other)) ≤
      count (Pc.pends address) (Function.update others t (.notifyUnlock kind other)) := by
  have enough := covered.enough
  have same : others t = state.thread t := by
    rcases woken t with same | ⟨asleep, -⟩
    · exact same
    · rw [here] at asleep
      cases asleep
  have pending : count (Pc.pends address) others = count (Pc.pends address) state.thread := by
    refine count_congr fun u => ?_
    rcases woken u with same | ⟨asleep, left⟩
    · rw [same]
    · rw [left]
      exact (left_waiting address asleep).2.2
  have sleeping : count (Pc.asleepOn address) others ≤ count (Pc.asleepOn address) state.thread := by
    refine count_mono fun u there => ?_
    rcases woken u with same | ⟨asleep, left⟩
    · rwa [same] at there
    · rw [left, (left_waiting address asleep).2.1] at there
      cases there
  have moved : count (Pc.asleepOn address) (Function.update others t (.notifyUnlock kind other)) =
      count (Pc.asleepOn address) others := count_update_same (by rw [same, here]; rfl)
  rw [moved]
  by_cases ours : kind = .one ∧ other = address
  · obtain ⟨rfl, rfl⟩ := ours
    have spent : count (Pc.pends other) (Function.update others t (.notifyUnlock .one other)) + 1 =
        count (Pc.pends other) others :=
      count_update_leave (by rw [same, here]; exact decide_eq_true rfl) rfl
    rcases one rfl with ⟨u, asleep, rfl⟩ | nobody
    · obtain ⟨wait, sleeps, bucket⟩ := waiting_of_asleepIn asleep
      have ours := covered.single u wait (by rw [sleeps]; rfl) bucket
      have awake : count (Pc.asleepOn other) (Function.update state.thread u
          ((state.thread u).left false)) + 1 = count (Pc.asleepOn other) state.thread := by
        refine count_update_leave ?_ (left_waiting other asleep).2.1
        rw [sleeps]
        exact decide_eq_true ours
      omega
    · have none : count (Pc.asleepOn other) state.thread = 0 := by
        by_contra some
        obtain ⟨u, asleep⟩ := exists_of_count_pos (Nat.pos_of_ne_zero some)
        have inside := asleepIn_of_asleepOn asleep
        rw [nobody u] at inside
        cases inside
      omega
  · have kept : count (Pc.pends address) (Function.update others t (.notifyUnlock kind other)) =
        count (Pc.pends address) others := by
      refine count_update_same ?_
      rw [same, here]
      cases kind with
      | one => exact (decide_eq_false fun equal => ours ⟨rfl, equal⟩).symm
      | all => rfl
    omega

/-- Nobody falls asleep on a changed word. -/
theorem Covered.moves (covered : Covered address state) {pc : Pc}
    (waiting : ∀ wait, pc.waiting = some wait → (state.thread t).waiting = some wait)
    (sleeps : ∀ wait, pc = .asleep wait → state.changed wait = false)
    (pends : pc.pends address = (state.thread t).pends address) :
    count (Pc.asleepOn address) (Function.update state.thread t pc) ≤
      count (Pc.pends address) (Function.update state.thread t pc) := by
  rw [count_update_same pends]
  refine le_trans (count_mono fun u there => ?_) covered.enough
  rcases update_cases (Pc.asleepOn address) there with ⟨-, asleep⟩ | ⟨-, before⟩
  · obtain ⟨wait, rfl, ours⟩ := waiting_of_asleepOn asleep
    have unchanged := of_decide_eq_false (sleeps wait rfl)
    have changed := covered.changed t wait (waiting wait rfl) ours
    rw [← ours] at changed
    exact absurd changed unchanged
  · exact before

theorem Covered.effect (covered : Covered address state) {action : Action Thread}
    (settled : Settled address state action) (effect : Effect state action after) :
    Covered address after := by
  have waiting := waiting_of_effect settled effect
  refine ⟨fun u wait here => covered.single u wait (waiting u wait here), fun u wait here ours => ?_, ?_⟩
  · have before := covered.changed u wait (waiting u wait here) ours
    cases effect with
    | @stores other value =>
      by_cases same : other = address
      · subst same
        show Function.update state.value other value other ≠ wait.old
        rw [Function.update_self]
        exact settled rfl u wait here ours
      · show Function.update state.value other value address ≠ wait.old
        rw [Function.update_of_ne (Ne.symm same)]
        exact before
    | _ => exact before
  · cases effect with
    | calls => exact settled.elim
    | moves keeps sleeps pends => exact covered.moves keeps sleeps (pends address)
    | wakes here woken one => exact covered.wakes here woken one
    | stores => exact covered.enough

end Covered

/-! ### A bucket of several words -/

section Absorbed

variable {Thread : Type*} [DecidableEq Thread] [Fintype Thread] {state : State Thread} {t u : Thread}
  {address : Address} {wait : Wait}

/-- **A sleeper on another word takes the notification**, and goes back to sleep: all that is left is that
`atomic_notify_one` has returned. -/
theorem run_absorbed (calls : state.thread t = .notify .one address)
    (sleeps : state.thread u = .asleep wait) (bucket : wait.bucket = bucketFor address)
    (unchanged : state.changed wait = false) (free : state.locked (bucketFor address) = false)
    (value : Address → ℤ) (origin : State Thread) :
    ((system value).resume origin).run state
      [.step t, .step t, .notify t (some u), .step t, .step u, .step u] =
        some (state.move t (.idle none)) := by
  have apart : u ≠ t := by
    rintro rfl
    rw [calls] at sleeps
    cases sleeps
  have same : state.value wait.address = wait.old := by simpa [State.changed] using unchanged
  have unlocked : Function.update state.locked (bucketFor address) false = state.locked := by
    rw [← free]
    exact Function.update_eq_self _ _
  have back : ∀ first second : Pc, Function.update (Function.update (Function.update (Function.update
      state.thread t first) u second) t (.idle none)) u (.asleep wait) =
        Function.update state.thread t (.idle none) := by
    intro first second
    funext v
    by_cases sleeper : v = u
    · subst sleeper
      rw [Function.update_self, Function.update_of_ne apart, sleeps]
    · by_cases caller : v = t
      · subst caller
        rw [Function.update_of_ne sleeper, Function.update_self, Function.update_self]
      · simp only [Function.update_of_ne sleeper, Function.update_of_ne caller]
  simp only [System.run, System.resume, system, next, step, calls, sleeps, free, bucket, same,
    State.move, State.acquire, State.release, State.changed, Pc.asleepIn, Pc.left, Function.update_self,
    Function.update_of_ne apart, Function.update_idem, Option.bind_some, ne_eq, not_true_eq_false,
    decide_true, decide_false, if_true, Bool.false_eq_true, if_false, unlocked, back]

variable {Waiter Notifier : Type*} [DecidableEq Waiter] [Fintype Waiter] [DecidableEq Notifier]
  [Fintype Notifier]

/-- **Every waiter sleeps, and every notifier has called its notification.** -/
def blocked (waits : Waiter → Wait) (notifies : Notifier → WakeCount × Address) (value : Address → ℤ) :
    State (Waiter ⊕ Notifier) where
  value := value
  locked := fun _ => false
  thread := Sum.elim (fun w => .asleep (waits w)) fun n => .notify (notifies n).1 (notifies n).2

/-- A thread falls asleep on a word that has the expected value for the time being. -/
theorem run_sleeps {result : Option Bool} (idle : state.thread t = .idle result)
    (free : state.locked wait.bucket = false) (value : Address → ℤ) :
    (system value).run state [.store wait.address wait.old, .call t (.waitUntil wait), .step t, .step t,
      .step t, .step t, .store wait.address (state.value wait.address)] =
        some (state.move t (.asleep wait)) := by
  have unlocked : Function.update state.locked wait.bucket false = state.locked := by
    rw [← free]
    exact Function.update_eq_self _ _
  have restored : Function.update state.value wait.address (state.value wait.address) = state.value :=
    Function.update_eq_self _ _
  simp only [System.run, system, next, step, Portable.call, idle, free, State.move, State.acquire,
    State.release, State.changed, Function.update_self, Function.update_idem, Option.bind_some, ne_eq,
    not_true_eq_false, decide_false, Bool.false_eq_true, if_false, unlocked, restored]

/-- The threads of a set have come. -/
def partly (waits : Waiter → Wait) (notifies : Notifier → WakeCount × Address) (value : Address → ℤ)
    (there : Finset (Waiter ⊕ Notifier)) : State (Waiter ⊕ Notifier) where
  value := value
  locked := fun _ => false
  thread := there.piecewise (blocked waits notifies value).thread fun _ => .idle none

theorem partly_reachable (waits : Waiter → Wait) (notifies : Notifier → WakeCount × Address)
    (value : Address → ℤ) (there : Finset (Waiter ⊕ Notifier)) :
    (system value).Reachable (partly waits notifies value there) := by
  induction there using Finset.induction_on with
  | empty =>
    unfold partly
    rw [Finset.piecewise_empty]
    exact .start
  | insert t there fresh ih =>
    have idle : (partly waits notifies value there).thread t = .idle none :=
      Finset.piecewise_eq_of_notMem there (blocked waits notifies value).thread (fun _ => .idle none) fresh
    have joined : (partly waits notifies value there).move t ((blocked waits notifies value).thread t) =
        partly waits notifies value (insert t there) :=
      State.ext rfl rfl (Finset.piecewise_insert _ _ _ _).symm
    rw [← joined]
    rcases t with w | n
    · exact System.reach_of_run ih (run_sleeps idle rfl value)
    · have called : (system value).next (partly waits notifies value there)
          (.call (.inr n) (.notify (notifies n).1 (notifies n).2)) =
            some ((partly waits notifies value there).move (.inr n)
              ((blocked waits notifies value).thread (.inr n))) := by
        simp only [system, next, idle]
        rfl
      exact ih.step trivial called

/-- **The blocked threads are a state of the buckets**, for any values of the words. -/
theorem blocked_reachable (waits : Waiter → Wait) (notifies : Notifier → WakeCount × Address)
    (value : Address → ℤ) : (system value).Reachable (blocked waits notifies value) := by
  have all := partly_reachable waits notifies value Finset.univ
  unfold partly at all
  rw [Finset.piecewise_univ] at all
  exact all

/-- The runs from there, in which the word stays changed. -/
abbrev Continues (waits : Waiter → Wait) (notifies : Notifier → WakeCount × Address)
    (value : Address → ℤ) (address : Address) (state : State (Waiter ⊕ Notifier)) : Prop :=
  ((system value).resume (blocked waits notifies value)).Reach (Settled address) state

/-- The number of waiters for a word. -/
def awaited (waits : Waiter → Wait) (address : Address) : ℕ :=
  count (fun wait => decide (wait.address = address)) waits

/-- The number of calls of `atomic_notify_one` for a word. -/
def notified (notifies : Notifier → WakeCount × Address) (address : Address) : ℕ :=
  count (fun call => decide (call = (.one, address))) notifies

variable {waits : Waiter → Wait} {notifies : Notifier → WakeCount × Address} {value : Address → ℤ}

theorem waiting_blocked (t : Waiter ⊕ Notifier) (wait : Wait)
    (here : ((blocked waits notifies value).thread t).waiting = some wait) : ∃ w, waits w = wait := by
  rcases t with w | n
  · exact ⟨w, Option.some.inj here⟩
  · cases here

/-- Whoever waits is one of the waiters from the start. -/
theorem waiting_of_continues {state : State (Waiter ⊕ Notifier)}
    (reached : Continues waits notifies value address state) (t : Waiter ⊕ Notifier) (wait : Wait)
    (here : (state.thread t).waiting = some wait) : ∃ w, waits w = wait := by
  have original : ∀ t wait, (state.thread t).waiting = some wait → ∃ w, waits w = wait := by
    refine reached.invariant
      (P := fun state => ∀ t wait, (state.thread t).waiting = some wait → ∃ w, waits w = wait)
      waiting_blocked ?_
    intro state action after _ before settled taken u wait there
    exact before u wait (waiting_of_effect settled (next_effect taken) u wait there)
  exact original t wait here

theorem covered_blocked
    (changed : ∀ w, (waits w).address = address → value address ≠ (waits w).old)
    (enough : awaited waits address ≤ notified notifies address)
    (single : ∀ w, (waits w).bucket = bucketFor address → (waits w).address = address) :
    Covered address (blocked waits notifies value) := by
  refine ⟨fun t wait here => ?_, fun t wait here => ?_, ?_⟩
  · obtain ⟨w, rfl⟩ := waiting_blocked t wait here
    exact single w
  · obtain ⟨w, rfl⟩ := waiting_blocked t wait here
    exact changed w
  · have sleeping : count (Pc.asleepOn address) (blocked waits notifies value).thread =
        awaited waits address := by
      have notifiers : count (Pc.asleepOn address) (fun n => Pc.notify (notifies n).1 (notifies n).2) = 0 :=
        Finset.sum_eq_zero fun _ _ => rfl
      rw [blocked, count_sumElim, notifiers]
      rfl
    have pending : count (Pc.pends address) (blocked waits notifies value).thread =
        notified notifies address := by
      have waiters : count (Pc.pends address) (fun w => Pc.asleep (waits w)) = 0 :=
        Finset.sum_eq_zero fun _ _ => rfl
      have calls : ∀ n, (Pc.notify (notifies n).1 (notifies n).2).pends address =
          decide (notifies n = (.one, address)) := by
        intro n
        rcases notifies n with ⟨_ | _, other⟩ <;> simp [Pc.pends]
      rw [blocked, count_sumElim, waiters, Nat.zero_add]
      exact Finset.sum_congr rfl fun n _ => congrArg Bool.toNat (calls n)
    rw [sleeping, pending]
    exact enough

/-- The calls of a set of notifiers have returned, and everybody sleeps as before; a word has been set to
what the sleeper on it expects. -/
def absorbed (waits : Waiter → Wait) (notifies : Notifier → WakeCount × Address) (value : Address → ℤ)
    (sleeper : Wait) (returned : Finset Notifier) : State (Waiter ⊕ Notifier) where
  value := Function.update value sleeper.address sleeper.old
  locked := fun _ => false
  thread := Sum.elim (fun w => .asleep (waits w))
    (returned.piecewise (fun _ => .idle none) fun n => .notify (notifies n).1 (notifies n).2)

/-- **All notifications of a word can go to one sleeper on another word of its bucket.** -/
theorem absorbed_continues {u : Waiter} (bucket : (waits u).bucket = bucketFor address)
    (other : (waits u).address ≠ address) (returned : Finset Notifier)
    (ours : ∀ n ∈ returned, notifies n = (.one, address)) :
    Continues waits notifies value address (absorbed waits notifies value (waits u) returned) := by
  induction returned using Finset.induction_on with
  | empty =>
    have before : Continues waits notifies value address (blocked waits notifies value) := .start
    have stays : Settled address (blocked waits notifies value) (.store (waits u).address (waits u).old) :=
      fun same => absurd same other
    refine before.step stays ?_
    simp only [absorbed, Finset.piecewise_empty]
    rfl
  | insert n returned fresh ih =>
    have before := ih fun m member => ours m (Finset.mem_insert_of_mem member)
    have calls : (absorbed waits notifies value (waits u) returned).thread (.inr n) =
        .notify .one address := by
      show returned.piecewise (fun _ => Pc.idle none) (fun n => .notify (notifies n).1 (notifies n).2) n = _
      rw [Finset.piecewise_eq_of_notMem _ _ _ fresh, ours n (Finset.mem_insert_self n returned)]
    have unchanged : (absorbed waits notifies value (waits u) returned).changed (waits u) = false := by
      simp [State.changed, absorbed]
    have computed := run_absorbed calls (u := .inl u) rfl bucket unchanged rfl value
      (blocked waits notifies value)
    have after : (absorbed waits notifies value (waits u) returned).move (.inr n) (.idle none) =
        absorbed waits notifies value (waits u) (insert n returned) := by
      refine State.ext rfl rfl ?_
      show Function.update (Sum.elim _ _) (.inr n) (Pc.idle none) = Sum.elim _ _
      rw [Sum.update_elim_inr, Finset.piecewise_insert]
    rw [after] at computed
    refine before.run (fun _ action member => ?_) computed
    simp only [List.mem_cons, List.not_mem_nil, or_false] at member
    rcases member with rfl | rfl | rfl | rfl | rfl | rfl <;> trivial

variable (waits notifies value) in
/-- A waiter stays asleep beside the notifications that another sleeper takes. -/
theorem exists_missed {w u : Waiter} (ours : (waits w).address = address)
    (bucket : (waits u).bucket = bucketFor address) (other : (waits u).address ≠ address) :
    ∃ state, Continues waits notifies value address state ∧
      (∀ t, (state.thread t).notifies address = false) ∧
        (state.thread (.inl w)).asleepOn address = true := by
  let callers := Finset.univ.filter fun n => notifies n = (.one, address)
  refine ⟨_, absorbed_continues bucket other callers fun n member => (Finset.mem_filter.mp member).2, ?_,
    decide_eq_true ours⟩
  rintro (v | n)
  · rfl
  · show (callers.piecewise (fun _ => Pc.idle none)
      (fun n => .notify (notifies n).1 (notifies n).2) n).notifies address = false
    by_cases caller : notifies n = (.one, address)
    · rw [Finset.piecewise_eq_of_mem _ _ _ (Finset.mem_filter.mpr ⟨Finset.mem_univ n, caller⟩)]
      rfl
    · have outside : n ∉ callers := fun member => caller (Finset.mem_filter.mp member).2
      rw [Finset.piecewise_eq_of_notMem _ _ _ outside]
      rcases call : notifies n with ⟨_ | _, target⟩
      · exact decide_eq_false fun same => caller (call.trans (congrArg (Prod.mk _) same))
      · rfl

theorem pends_of_notifies {pc : Pc} (outside : pc.notifies address = false) : pc.pends address = false := by
  cases pc with
  | notify kind | notifyLock kind | notifyCv kind =>
    cases kind with
    | one => exact outside
    | all => rfl
  | _ => rfl

/-- **Enough notifications of a changed word wake all its waiters**, if and only if there are none or all
sleepers of its bucket wait for it. -/
theorem portable_notify_one_wakes_iff
    (changed : ∀ w, (waits w).address = address → value address ≠ (waits w).old)
    (enough : awaited waits address ≤ notified notifies address) :
    (∀ state, Continues waits notifies value address state →
      (∀ t, (state.thread t).notifies address = false) →
        ∀ t, (state.thread t).asleepOn address = false) ↔
    (∀ w, (waits w).address ≠ address) ∨
      ∀ w, (waits w).bucket = bucketFor address → (waits w).address = address := by
  constructor
  · intro wakes
    by_contra mixed
    push Not at mixed
    obtain ⟨⟨w, ours⟩, u, bucket, other⟩ := mixed
    obtain ⟨state, reached, returned, asleep⟩ := exists_missed waits notifies value ours bucket other
    rw [wakes state reached returned] at asleep
    cases asleep
  · rintro (nobody | single) state reached returned t
    · by_contra asleep
      obtain ⟨wait, sleeps, ours⟩ := waiting_of_asleepOn (Bool.eq_true_of_not_eq_false asleep)
      obtain ⟨w, rfl⟩ := waiting_of_continues reached t wait (by rw [sleeps]; rfl)
      exact nobody w ours
    · have covered : Covered address state := by
        refine reached.invariant (covered_blocked changed enough single) ?_
        exact fun state action after _ covered settled taken => covered.effect settled (next_effect taken)
      have none : count (Pc.pends address) state.thread = 0 := by
        by_contra some
        obtain ⟨u, pends⟩ := exists_of_count_pos (Nat.pos_of_ne_zero some)
        rw [pends_of_notifies (returned u)] at pends
        cases pends
      by_contra asleep
      have some : 0 < count (Pc.asleepOn address) state.thread :=
        count_pos (t := t) (Bool.eq_true_of_not_eq_false asleep)
      have few := covered.enough
      omega

end Absorbed

/-- Two waiters for one word, which has changed, and two notifications of it. -/
theorem portable_notify_one_wakes_iff_single :
    awaited (fun _ : Fin 2 => (⟨0x1000, 0⟩ : Wait)) 0x1000 = 2 ∧
      ∀ state, Continues (fun _ : Fin 2 => ⟨0x1000, 0⟩) (fun _ : Fin 2 => (.one, 0x1000)) (fun _ => 1)
        0x1000 state → (∀ t, (state.thread t).notifies 0x1000 = false) →
          ∀ t, (state.thread t).asleepOn 0x1000 = false := by
  refine ⟨by decide, (portable_notify_one_wakes_iff (fun _ _ => ?_) (by decide)).mpr (Or.inr ?_)⟩
  · decide
  · exact fun _ _ => rfl

/-- **A notification is absorbed.** The words at `0x1000` and at `0x110c` share a bucket, and one thread
sleeps on each. The first word changes and is notified once: the thread of the second wakes and goes back
to sleep. -/
theorem portable_notify_one_absorbed :
    ¬ ∀ (Waiter Notifier : Type) [DecidableEq Waiter] [Fintype Waiter] [DecidableEq Notifier]
      [Fintype Notifier] (waits : Waiter → Wait) (notifies : Notifier → WakeCount × Address)
      (value : Address → ℤ) (address : Address) (state : State (Waiter ⊕ Notifier)),
        (∀ w, (waits w).address = address → value address ≠ (waits w).old) →
        awaited waits address ≤ notified notifies address →
        Continues waits notifies value address state →
        (∀ t, (state.thread t).notifies address = false) →
          ∀ t, (state.thread t).asleepOn address = false := by
  intro wakes
  let waits : Bool → Wait := fun second => if second then ⟨0x110c, 0⟩ else ⟨0x1000, 0⟩
  let notifies : Unit → WakeCount × Address := fun _ => (.one, 0x1000)
  let value : Address → ℤ := fun address => if address = 0x1000 then 1 else 0
  have changed : ∀ w, (waits w).address = 0x1000 → value 0x1000 ≠ (waits w).old := by decide
  have first : (waits false).address = 0x1000 := by decide
  have collides : (waits true).bucket = bucketFor 0x1000 := by decide
  obtain ⟨state, reached, returned, asleep⟩ :=
    exists_missed waits notifies value first collides (by decide)
  rw [wakes _ _ waits notifies value 0x1000 state changed (by decide) reached returned] at asleep
  cases asleep

end NovaSync.Futex.Portable
