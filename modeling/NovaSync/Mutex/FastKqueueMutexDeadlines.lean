/-
**`fast_kqueue_mutex`: when `try_lock_until` returns `false` before its deadline.**

`try_lock_until` passes the identifier 1 to `kevent_until`, and the constructor registers the user event under the
identifier 2. So the system-clock overload takes the notification of an `unlock` for the timeout: the waiter tries
the lock once more, and gives up if another thread has come first.

One thread, the waiter, calls `try_lock_until` with system-clock deadlines, and is the only one that adds timers; the
others call `lock`, `try_lock` and `unlock`. A history notes how the last call of `kevent` in each wait of the waiter
went, and those after which it returned `false`.

* `Spared` — the notification comes to the waiter while the mutex is free, and nobody takes the mutex before the
  waiter has tried it.
* `fastKqueueMutex_fails_by_timer` — in such runs the waiter fails by its timer or by an error only, and a step that
  does not spare it can be followed by steps of the waiter to another failure; `fastKqueueMutex_fails_by_unlock` is
  such a run.
-/

import NovaSync.Mutex.FastAsyncMutex

set_option linter.unusedSectionVars false

namespace NovaSync.FastAsyncMutex

open Concurrency Detail
open ParkingMutex (Word FreeWord)

/-! ### The waiter -/

/-- `lock`, or `try_lock_until` with a system-clock deadline. -/
def Waiting.inSystem : Waiting → Bool
  | .lock => true
  | .relative => false
  | .deadline clock => decide (clock = .system)

/-- The points of these waits. No event is taken for the user event, so `kevent_until` finds `false`. -/
def KqueuePoint.inSystem : Waiting → KqueuePoint → Bool
  | .lock, .kevent => true
  | .deadline .system, .keventUntil point =>
      match point with
      | .addTimer | .wait | .deleteTimer false => true
      | .deleteTimer true | .deadline | .steady _ => false
  | _, _ => false

/-- The places of a thread whose only timed waits are those with a system-clock deadline. -/
def Pc.inSystem : Pc KqueuePoint → Bool
  | .spinLoad waiting | .spin waiting _ _ | .register waiting | .acquireCas waiting _ _ => waiting.inSystem
  | .drainWoken waiting | .reload waiting => waiting.inSystem
  | .wait waiting point => point.inSystem waiting
  | .tryLoad (.deadline clock) | .tryCas (.deadline clock) _ => decide (clock = .system)
  | .relative | .forCas => false
  | _ => true

/-- `try_lock_until` after its wait: it removes its timer, and makes the last attempt. -/
def Pc.ending : Pc KqueuePoint → Bool
  | .wait (.deadline .system) (.keventUntil (.deleteTimer false)) => true
  | .tryLoad .last | .tryCas .last _ => true
  | _ => false

/-- The waiter is in `kevent_until`, before `EV_DELETE`. -/
def Pc.inKevent : Pc KqueuePoint → Bool
  | .wait (.deadline .system) (.keventUntil .addTimer) => true
  | .wait (.deadline .system) (.keventUntil .wait) => true
  | _ => false

/-- The last attempt. -/
def Pc.lastTry : Pc KqueuePoint → Bool
  | .tryLoad .last | .tryCas .last _ => true
  | _ => false

/-- What the last `kevent` call before `EV_DELETE` has answered to the waiter, and the answers after which
`try_lock_until` has returned `false`. -/
structure History where
  answer : Option (Choice ⊕ Kevent) := none
  failures : List (Option (Choice ⊕ Kevent)) := []

/-- The waiter has stepped from one place to another. -/
def History.step (history : History) (choice : Choice ⊕ Kevent) (pc moved : Pc KqueuePoint) : History where
  answer := if pc.inKevent then some choice else history.answer
  failures :=
    if pc.lastTry = true ∧ moved = .remove false then history.answer :: history.failures
    else history.failures

/-- The wait has ended: by an event, or by an error of `kevent`. -/
def Ended (answer : Option (Choice ⊕ Kevent)) : Prop :=
  answer = some (.inr (.event .user)) ∨ answer = some (.inr (.event .timer)) ∨
    answer = some (.inr .failed) ∨ answer = some (.inl .failed)

/-- **The waiter has failed by its timer or by an error only.** -/
def Punctual (history : History) : Prop :=
  ∀ answer ∈ history.failures, answer = some (.inr (.event .timer)) ∨
    answer = some (.inr .failed) ∨ answer = some (.inl .failed)

section Places

variable {choice : Choice ⊕ Kevent} {memory after : Memory Kqueue} {pc moved : Pc KqueuePoint}

theorem park_inSystem {waiting : Waiting} (inside : waiting.inSystem = true) (polled : Bool) (s : Word) :
    (park kqueue waiting polled s).inSystem = true ∧ (park kqueue waiting polled s).ending = false := by
  unfold park
  split
  · exact ⟨inside, rfl⟩
  · cases waiting with
    | lock => exact ⟨rfl, rfl⟩
    | relative => cases inside
    | deadline clock =>
      have same : clock = .system := of_decide_eq_true inside
      subst same
      exact ⟨rfl, rfl⟩

theorem spinNext_inSystem {waiting : Waiting} (inside : waiting.inSystem = true) (s : Word) (loop : SpinLoop) :
    (spinNext waiting s loop : Pc KqueuePoint).inSystem = true ∧
      (spinNext waiting s loop : Pc KqueuePoint).ending = false := by
  rcases loop with (_ | _) | _
  · exact ⟨inside, rfl⟩
  · exact ⟨rfl, rfl⟩
  · exact ⟨inside, rfl⟩

theorem tryLoop_inSystem {caller : Caller} (inside : (.tryLoad caller : Pc KqueuePoint).inSystem = true)
    (s : Word) : (tryLoop kqueue caller s).inSystem = true ∧
      ((tryLoop kqueue caller s).ending = true → (.tryLoad caller : Pc KqueuePoint).ending = true) := by
  unfold tryLoop
  split
  · cases caller with
    | deadline clock => exact ⟨inside, nofun⟩
    | last => exact ⟨rfl, fun _ => rfl⟩
    | _ => exact ⟨rfl, nofun⟩
  · cases caller with
    | deadline clock =>
      have same : clock = .system := of_decide_eq_true inside
      subst same
      exact ⟨rfl, nofun⟩
    | _ => exact ⟨rfl, nofun⟩

theorem trySucceeded_inSystem (caller : Caller) : (trySucceeded caller : Pc KqueuePoint).inSystem = true ∧
    (trySucceeded caller : Pc KqueuePoint).ending = false := by
  cases caller <;> exact ⟨rfl, rfl⟩

theorem rest_inSystem (guard : Bool) : (rest guard : Pc KqueuePoint).inSystem = true ∧
    (rest guard : Pc KqueuePoint).ending = false := by
  cases guard <;> exact ⟨rfl, rfl⟩

/-- **The places of the waiter are closed**, and an atomic operation enters its last attempt from within. -/
theorem atomicStep_inSystem {action : Choice} (inside : pc.inSystem = true)
    (stepped : atomicStep kqueue action memory pc = some (after, moved)) :
    moved.inSystem = true ∧ (moved.ending = true → pc.ending = true) := by
  have outside : ∀ {place : Pc KqueuePoint}, place.inSystem = true ∧ place.ending = false →
      place.inSystem = true ∧ (place.ending = true → pc.ending = true) := fun {place} here =>
    ⟨here.1, fun there => absurd (here.2.symm.trans there) Bool.false_ne_true⟩
  cases pc with
  | wait | drainWoken | drainOwned | acquireDrain => cases stepped
  | idle | owner | manual | guard | dismissed => cases stepped
  | relative | forCas => cases inside
  | lockCas =>
    rcases compareExchangeWeak_cases stepped with ⟨-, -, same⟩ | ⟨-, same⟩ <;> cases same <;>
      exact outside ⟨rfl, rfl⟩
  | spinLoad waiting =>
    cases (ordinary_eq_some stepped).2
    exact outside ⟨inside, rfl⟩
  | spin waiting s state =>
    simp only [atomicStep] at stepped
    split at stepped
    · rcases compareExchangeWeak_cases stepped with ⟨-, -, same⟩ | ⟨-, same⟩ <;> cases same <;>
        exact outside (spinNext_inSystem inside _ _)
    · cases (ordinary_eq_some stepped).2
      exact outside (spinNext_inSystem inside _ _)
  | register waiting =>
    cases (ordinary_eq_some stepped).2
    exact outside (park_inSystem inside _ _)
  | acquireCas waiting polled s =>
    rcases compareExchangeWeak_cases stepped with ⟨-, -, same⟩ | ⟨-, same⟩
    · cases same
      exact outside ⟨rfl, rfl⟩
    · cases same
      exact outside (park_inSystem inside _ _)
  | reload waiting =>
    cases (ordinary_eq_some stepped).2
    exact outside (park_inSystem inside _ _)
  | tryLoad caller =>
    cases (ordinary_eq_some stepped).2
    exact tryLoop_inSystem inside _
  | tryCas caller s =>
    rcases compareExchangeWeak_cases stepped with ⟨-, -, same⟩ | ⟨-, same⟩
    · cases same
      exact outside (trySucceeded_inSystem caller)
    · cases same
      have first : (.tryLoad caller : Pc KqueuePoint).inSystem = true := by
        cases caller <;> exact inside
      have same : (.tryLoad caller : Pc KqueuePoint).ending = (.tryCas caller s : Pc KqueuePoint).ending := by
        cases caller <;> rfl
      rw [← same]
      exact tryLoop_inSystem first _
  | remove guard | post guard =>
    cases (ordinary_eq_some stepped).2
    exact outside (rest_inSystem guard)
  | unlock guard =>
    cases (ordinary_eq_some stepped).2
    split
    · exact outside ⟨rfl, rfl⟩
    · exact outside (rest_inSystem guard)
  | removeOwned guard | manualAdd | arming =>
    cases (ordinary_eq_some stepped).2
    exact outside ⟨rfl, rfl⟩
  | guardAdd async =>
    cases (ordinary_eq_some stepped).2
    cases async <;> exact outside ⟨rfl, rfl⟩
  | armed =>
    cases action with
    | go =>
      simp only [atomicStep] at stepped
      split at stepped
      · cases stepped
        exact outside ⟨rfl, rfl⟩
      · cases stepped
    | interrupted =>
      cases stepped
      exact outside ⟨rfl, rfl⟩
    | _ => cases stepped
  | fired =>
    cases action with
    | go | interrupted =>
      cases stepped
      exact outside ⟨rfl, rfl⟩
    | _ => cases stepped

/-- **The wait of the waiter**: it comes to its last attempt from `EV_DELETE`, or because `EV_ADD` has failed, and
to `EV_DELETE` by an event or an error. -/
theorem keventUntil_inSystem {queue : Kqueue} {point : KeventUntil} {result : KeventUntil ⊕ Bool}
    (inside : (KqueuePoint.keventUntil point).inSystem (.deadline .system) = true)
    (stepped : point.step false choice memory.kernel = some (queue, result)) :
    (waited kqueue (.deadline .system) (result.map KqueuePoint.keventUntil id)).inSystem = true ∧
      ((waited kqueue (.deadline .system) (result.map KqueuePoint.keventUntil id)).ending = true →
        (.wait (.deadline .system) (.keventUntil point) : Pc KqueuePoint).ending = true ∨
          Ended (some choice)) := by
  cases point with
  | deadline | steady => cases inside
  | addTimer =>
    rcases choice with (_ | _ | _ | _ | _) | _ <;> cases stepped
    · exact ⟨rfl, nofun⟩
    · exact ⟨rfl, fun _ => Or.inr (by simp [Ended])⟩
  | wait =>
    rcases choice with _ | outcome
    · cases stepped
    · obtain ⟨called, -, same⟩ := Option.map_eq_some_iff.mp stepped
      rcases outcome with (_ | _) | _ | _ | _ <;> cases same
      · exact ⟨rfl, fun _ => Or.inr (Or.inl rfl)⟩
      · exact ⟨rfl, fun _ => Or.inr (Or.inr (Or.inl rfl))⟩
      · exact ⟨rfl, nofun⟩
      · exact ⟨rfl, nofun⟩
      · exact ⟨rfl, fun _ => Or.inr (Or.inr (Or.inr (Or.inl rfl)))⟩
  | deleteTimer found =>
    rcases choice with choice | _
    · cases (ordinary_eq_some stepped).2
      cases found with
      | false => exact ⟨rfl, fun _ => Or.inl rfl⟩
      | true => cases inside
    · cases stepped

theorem kernelStep_inSystem (inside : pc.inSystem = true)
    (stepped : kernelStep kqueue choice memory pc = some (after, moved)) :
    after.word = memory.word ∧ moved.inSystem = true ∧
      (moved.ending = true → pc.ending = true ∨ pc.inKevent = true ∧ Ended (some choice)) := by
  cases pc with
  | wait waiting point =>
    obtain ⟨⟨queue, result⟩, waits, same⟩ := Option.map_eq_some_iff.mp stepped
    cases same
    refine ⟨rfl, ?_⟩
    cases waiting with
    | relative => cases point <;> cases inside
    | lock =>
      cases point with
      | keventFor | keventUntil => cases inside
      | kevent =>
        rcases choice with _ | outcome
        · cases waits
        · obtain ⟨called, -, same⟩ := Option.map_eq_some_iff.mp waits
          cases same
          exact ⟨rfl, nofun⟩
    | deadline clock =>
      cases clock with
      | steady | other => cases point <;> cases inside
      | system =>
        cases point with
        | kevent | keventFor => cases inside
        | keventUntil point =>
          obtain ⟨⟨left, result⟩, waits, same⟩ := Option.map_eq_some_iff.mp waits
          obtain ⟨places, ends⟩ := keventUntil_inSystem inside waits
          cases result <;> cases same
          all_goals refine ⟨places, fun there => ?_⟩
          all_goals
            rcases ends there with before | ended
            · exact Or.inl before
            · cases point with
              | deleteTimer found =>
                cases found with
                | false => exact Or.inl rfl
                | true => cases inside
              | addTimer | wait => exact Or.inr ⟨rfl, ended⟩
              | deadline | steady => cases inside
  | drainWoken waiting =>
    obtain ⟨queue, -, same⟩ := Option.map_eq_some_iff.mp stepped
    cases same
    exact ⟨rfl, inside, nofun⟩
  | drainOwned =>
    obtain ⟨queue, -, same⟩ := Option.map_eq_some_iff.mp stepped
    cases same
    exact ⟨rfl, rfl, nofun⟩
  | acquireDrain active guard =>
    obtain ⟨queue, -, same⟩ := Option.map_eq_some_iff.mp stepped
    cases same
    refine ⟨rfl, ?_⟩
    cases active <;> exact ⟨rfl, nofun⟩
  | _ => cases stepped

/-- **Where the waiter stands**, and how its wait has ended. -/
structure Stands (answer : Option (Choice ⊕ Kevent)) (pc : Pc KqueuePoint) : Prop where
  inSystem : pc.inSystem = true
  ended : pc.ending = true → Ended answer

theorem not_inKevent_of_ending (ending : pc.ending = true) : pc.inKevent = false := by
  unfold Pc.ending at ending
  split at ending <;> first | rfl | cases ending

/-- An atomic operation is none of `kevent_until`. -/
theorem not_inKevent_of_atomicStep {action : Choice}
    (stepped : atomicStep kqueue action memory pc = some (after, moved)) : pc.inKevent = false := by
  cases pc with
  | wait => cases stepped
  | _ => rfl

theorem Stands.step {history : History} (stands : Stands history.answer pc)
    (stepped : step kqueue choice memory pc = some (after, moved)) :
    Stands (history.step choice pc moved).answer moved := by
  have kept : pc.inKevent = false → (history.step choice pc moved).answer = history.answer := fun away => by
    simp [History.step, away]
  rcases Option.or_eq_some_iff.mp stepped with atomic | ⟨-, called⟩
  · obtain ⟨action, -, taken⟩ := Option.bind_eq_some_iff.mp atomic
    obtain ⟨places, ends⟩ := atomicStep_inSystem stands.inSystem taken
    rw [kept (not_inKevent_of_atomicStep taken)]
    exact ⟨places, fun there => stands.ended (ends there)⟩
  · obtain ⟨-, places, ends⟩ := kernelStep_inSystem stands.inSystem called
    refine ⟨places, fun there => ?_⟩
    rcases ends there with before | ⟨inside, ended⟩
    · rw [kept (not_inKevent_of_ending before)]
      exact stands.ended before
    · simpa [History.step, inside] using ended

/-- The waiter comes to its last attempt out of its `kevent` call, which leaves the word as it is. -/
theorem ending_before (inside : pc.inSystem = true) (stepped : step kqueue choice memory pc = some (after, moved))
    (there : moved.ending = true) : pc.ending = true ∨ pc.inKevent = true ∧ after.word = memory.word := by
  rcases Option.or_eq_some_iff.mp stepped with atomic | ⟨-, called⟩
  · obtain ⟨action, -, taken⟩ := Option.bind_eq_some_iff.mp atomic
    exact Or.inl ((atomicStep_inSystem inside taken).2 there)
  · obtain ⟨word, -, ends⟩ := kernelStep_inSystem inside called
    exact (ends there).imp_right fun ended => ⟨ended.1, word⟩

/-- The notification brings the waiter to its last attempt. -/
theorem notified_step (inside : pc.inKevent = true)
    (stepped : step kqueue (.inr (.event .user)) memory pc = some (after, moved)) :
    moved.ending = true ∧ after.word = memory.word := by
  rcases Option.or_eq_some_iff.mp stepped with atomic | ⟨-, called⟩
  · cases atomic
  · unfold Pc.inKevent at inside
    split at inside
    · cases called
    · obtain ⟨⟨queue, result⟩, waits, same⟩ := Option.map_eq_some_iff.mp called
      obtain ⟨⟨left, onward⟩, retrieved, next⟩ := Option.map_eq_some_iff.mp waits
      obtain ⟨delivered, -, arrived⟩ := Option.map_eq_some_iff.mp retrieved
      cases arrived
      cases next
      cases same
      exact ⟨rfl, rfl⟩
    · cases inside

theorem ending_of_lastTry (last : pc.lastTry = true) : pc.ending = true := by
  unfold Pc.lastTry at last
  split at last <;> first | rfl | cases last

theorem tryLoop_free {caller : Caller} {s : Word} (free : s &&& 1 = 0) :
    tryLoop kqueue caller s = .tryCas caller ⟨s, free⟩ := dif_pos free

theorem tryLoop_held {caller : Caller} {s : Word} (held : s &&& 1 ≠ 0) :
    tryLoop kqueue caller s = tryFailed kqueue caller := dif_neg held

/-- The last attempt of the waiter neither takes the mutex nor gives up, or finds it free. -/
theorem ending_step (ending : pc.ending = true) (stepped : step kqueue choice memory pc = some (after, moved)) :
    (moved.ending = true → after.word = memory.word) ∧
      (moved = .remove false → memory.word &&& 1 ≠ 0) := by
  rcases Option.or_eq_some_iff.mp stepped with atomic | ⟨-, called⟩
  · obtain ⟨action, -, taken⟩ := Option.bind_eq_some_iff.mp atomic
    cases pc with
    | tryLoad caller =>
      cases caller with
      | last =>
        cases (ordinary_eq_some taken).2
        refine ⟨fun _ => rfl, fun left free => ?_⟩
        rw [tryLoop_free free] at left
        cases left
      | _ => cases ending
    | tryCas caller s =>
      cases caller with
      | last =>
        rcases compareExchangeWeak_cases taken with ⟨-, -, same⟩ | ⟨-, same⟩
        · cases same
          exact ⟨nofun, nofun⟩
        · cases same
          refine ⟨fun _ => rfl, fun left free => ?_⟩
          rw [tryLoop_free free] at left
          cases left
      | _ => cases ending
    | wait => cases taken
    | _ => cases ending
  · cases pc with
    | wait waiting point =>
      obtain ⟨⟨queue, result⟩, -, same⟩ := Option.map_eq_some_iff.mp called
      cases same
      refine ⟨fun _ => rfl, fun left => ?_⟩
      rcases waiting with _ | _ | clock
      · cases ending
      · cases ending
      · rcases result with _ | _ | _ <;> cases left
    | tryLoad | tryCas => cases called
    | _ => cases ending

end Places

/-! ### Runs -/

variable {Actor : Type*} [DecidableEq Actor] [Fintype Actor]

abbrev KqueueState (Actor : Type*) := State Actor (Memory Kqueue) (Pc KqueuePoint)

def note (waiter : Actor) (state : KqueueState Actor) (action : Action Actor Op (Choice ⊕ Kevent))
    (after : KqueueState Actor) (history : History) : History :=
  match action with
  | .step t choice =>
      if t = waiter then history.step choice (state.thread waiter) (after.thread waiter) else history
  | .call _ _ | .wake _ _ => history

/-- The mutex, beside the history of one thread. -/
abbrev recorded (waiter : Actor) : System (KqueueState Actor × History) (Action Actor Op (Choice ⊕ Kevent)) :=
  (system kqueue {} Actor).record {} (note waiter)

/-- `lock`, `try_lock` and `unlock` are called by anybody, `try_lock_until` by the waiter. -/
def OneWaiter (waiter : Actor) : Action Actor Op (Choice ⊕ Kevent) → Prop
  | .call t op => op = .lock ∨ op = .tryLock ∨ op = .unlock ∨ t = waiter ∧ op = .tryLockUntil .system
  | .step _ _ | .wake _ _ => True

instance (waiter : Actor) : DecidablePred (OneWaiter waiter)
  | .call _ _ => inferInstanceAs (Decidable (_ ∨ _))
  | .step _ _ | .wake _ _ => inferInstanceAs (Decidable True)

/-- The waiter has had the notification, and not yet made its last attempt. -/
def Notified (waiter : Actor) (here : KqueueState Actor × History) : Prop :=
  (here.1.thread waiter).ending = true ∧ here.2.answer = some (.inr (.event .user))

instance (waiter : Actor) (here : KqueueState Actor × History) : Decidable (Notified waiter here) :=
  inferInstanceAs (Decidable (_ ∧ _))

/-- The step leaves the mutex locked. -/
def locks (choice : Choice ⊕ Kevent) (memory : Memory Kqueue) (pc : Pc KqueuePoint) : Bool :=
  (step kqueue choice memory pc).any fun after => decide (after.1.word &&& 1 ≠ 0)

/-- **The waiter is spared**: the notification comes to it while the mutex is free, and nobody takes the mutex
before it has made its attempt. -/
def Spared (waiter : Actor) (here : KqueueState Actor × History) : Action Actor Op (Choice ⊕ Kevent) → Prop
  | .step t choice =>
      if t = waiter then (here.1.thread waiter).inKevent = true → choice = .inr (.event .user) →
        here.1.memory.word &&& 1 = 0
      else Notified waiter here → locks choice here.1.memory (here.1.thread t) = false
  | .call _ _ | .wake _ _ => True

instance (waiter : Actor) (here : KqueueState Actor × History) :
    @DecidablePred (Action Actor Op (Choice ⊕ Kevent)) (Spared waiter here)
  | .step _ _ => inferInstanceAs (Decidable (ite _ _ _))
  | .call _ _ | .wake _ _ => inferInstanceAs (Decidable True)

/-- **A waiter that has been notified finds the mutex free.** -/
structure Sound (waiter : Actor) (here : KqueueState Actor × History) : Prop where
  stands : Stands here.2.answer (here.1.thread waiter)
  free : Notified waiter here → here.1.memory.word &&& 1 = 0
  punctual : Punctual here.2

theorem sound_start (waiter : Actor) : Sound waiter (recorded waiter).start where
  stands := ⟨rfl, nofun⟩
  free notified := by cases notified.1
  punctual _ member := by cases member

section Sound

variable {waiter : Actor} {state : KqueueState Actor} {history : History} {moved : Pc KqueuePoint}

/-- A call that the waiter makes is not its last attempt. -/
theorem call_inSystem {op : Op} {pc : Pc KqueuePoint}
    (allowed : op = .lock ∨ op = .tryLock ∨ op = .unlock ∨ op = .tryLockUntil .system)
    (called : call kqueue op pc = some moved) : moved.inSystem = true ∧ moved.ending = false := by
  rcases allowed with rfl | rfl | rfl | rfl
  all_goals
    cases pc <;> cases called
    exact ⟨rfl, rfl⟩

theorem Sound.call {t : Actor} {op : Op} (sound : Sound waiter (state, history))
    (allowed : OneWaiter waiter (.call t op)) (called : call kqueue op (state.thread t) = some moved) :
    Sound waiter (⟨state.memory, Function.update state.thread t moved⟩, history) := by
  by_cases own : waiter = t
  · subst own
    have listed : op = .lock ∨ op = .tryLock ∨ op = .unlock ∨ op = .tryLockUntil .system := by
      simpa [OneWaiter] using allowed
    obtain ⟨inside, away⟩ := call_inSystem listed called
    have place : Function.update state.thread waiter moved waiter = moved := Function.update_self ..
    refine ⟨⟨?_, fun there => ?_⟩, fun notified => ?_, sound.punctual⟩
    · simp only [place, inside]
    · simp only [place, away] at there
      cases there
    · have there := notified.1
      simp only [place, away] at there
      cases there
  · have place : Function.update state.thread t moved waiter = state.thread waiter :=
      Function.update_of_ne own ..
    refine ⟨?_, fun notified => sound.free ?_, sound.punctual⟩
    · simp only [place]
      exact sound.stands
    · simpa only [Notified, place] using notified

/-- A step of another actor. -/
theorem Sound.others {t : Actor} {choice : Choice ⊕ Kevent} {memory : Memory Kqueue} (other : t ≠ waiter)
    (sound : Sound waiter (state, history)) (spared : Spared waiter (state, history) (.step t choice))
    (stepped : step kqueue choice state.memory (state.thread t) = some (memory, moved)) :
    Sound waiter (⟨memory, Function.update state.thread t moved⟩, history) := by
  have place : Function.update state.thread t moved waiter = state.thread waiter :=
    Function.update_of_ne other.symm ..
  refine ⟨?_, fun notified => ?_, sound.punctual⟩
  · simp only [place]
    exact sound.stands
  · simp only [Spared, if_neg other] at spared
    have left := spared (by simpa only [Notified, place] using notified)
    simpa [locks, stepped] using left

/-- A step of the waiter. -/
theorem Sound.own {choice : Choice ⊕ Kevent} {memory : Memory Kqueue}
    (sound : Sound waiter (state, history)) (spared : Spared waiter (state, history) (.step waiter choice))
    (stepped : step kqueue choice state.memory (state.thread waiter) = some (memory, moved)) :
    Sound waiter (⟨memory, Function.update state.thread waiter moved⟩,
      history.step choice (state.thread waiter) moved) := by
  have stands : Stands history.answer (state.thread waiter) := sound.stands
  have place : Function.update state.thread waiter moved waiter = moved := Function.update_self ..
  simp only [Spared, if_pos] at spared
  refine ⟨?_, fun notified => ?_, fun answer member => ?_⟩
  · simp only [place]
    exact stands.step stepped
  · obtain ⟨there, event⟩ := notified
    simp only [place] at there
    rcases ending_before stands.inSystem stepped there with ending | ⟨inside, word⟩
    · have event : history.answer = some (.inr (.event .user)) := by
        simpa [History.step, not_inKevent_of_ending ending] using event
      show memory.word &&& 1 = 0
      rw [(ending_step ending stepped).1 there]
      exact sound.free ⟨ending, event⟩
    · have user : choice = .inr (.event .user) := by
        simpa [History.step, inside] using event
      show memory.word &&& 1 = 0
      rw [word]
      exact spared inside user
  · simp only [History.step] at member
    split at member
    · rename_i gaveUp
      have ending := ending_of_lastTry gaveUp.1
      rcases List.mem_cons.mp member with rfl | before
      · rcases stands.ended ending with event | late
        · exact absurd (sound.free ⟨ending, event⟩) ((ending_step ending stepped).2 gaveUp.2)
        · exact late
      · exact sound.punctual answer before
    · exact sound.punctual answer member

end Sound

section Runs

variable {waiter : Actor} {state : KqueueState Actor} {history : History}

/-- A step that spares the waiter. -/
theorem Sound.next {action : Action Actor Op (Choice ⊕ Kevent)} {after : KqueueState Actor × History}
    (sound : Sound waiter (state, history)) (allowed : OneWaiter waiter action)
    (spared : Spared waiter (state, history) action)
    (taken : (recorded waiter).next (state, history) action = some after) : Sound waiter after := by
  rcases (program_silent kqueue).record_cases taken with ⟨t, op, place, rfl, called, rfl⟩ |
    ⟨t, choice, memory, place, rfl, stepped, rfl⟩
  · exact sound.call allowed called
  · by_cases own : t = waiter
    · subst own
      simp only [note, if_pos, Function.update_self]
      exact sound.own spared stepped
    · simp only [note, if_neg own]
      exact sound.others own spared stepped

/-- **The waiter is lost**: it has been notified, and the mutex is held. -/
def Lost (waiter : Actor) (here : KqueueState Actor × History) : Prop :=
  Notified waiter here ∧ here.1.memory.word &&& 1 ≠ 0

/-- A step that does not spare the waiter loses it. -/
theorem lost_of_not_spared {action : Action Actor Op (Choice ⊕ Kevent)} {after : KqueueState Actor × History}
    (taken : (recorded waiter).next (state, history) action = some after)
    (hurts : ¬ Spared waiter (state, history) action) : Lost waiter after := by
  rcases (program_silent kqueue).record_cases taken with ⟨t, op, place, rfl, called, rfl⟩ |
    ⟨t, choice, memory, place, rfl, stepped, rfl⟩
  · exact absurd trivial hurts
  · by_cases own : t = waiter
    · subst own
      simp only [Spared, if_pos] at hurts
      push Not at hurts
      obtain ⟨inside, rfl, held⟩ := hurts
      obtain ⟨ending, word⟩ := notified_step inside stepped
      have here : Function.update state.thread t place t = place := Function.update_self ..
      refine ⟨⟨?_, ?_⟩, ?_⟩
      · simpa only [here] using ending
      · simp [note, History.step, inside]
      · show memory.word &&& 1 ≠ 0
        rw [word]
        exact held
    · simp only [Spared, if_neg own] at hurts
      push Not at hurts
      obtain ⟨notified, locked⟩ := hurts
      have same : Function.update state.thread t place waiter = state.thread waiter :=
        Function.update_of_ne (Ne.symm own) ..
      refine ⟨?_, ?_⟩
      · simpa only [note, if_neg own, Notified, same] using notified
      · have stepped : step kqueue choice state.memory (state.thread t) = some (memory, place) := stepped
        simpa [locks, stepped] using locked

/-- A step of the waiter, noted. -/
theorem next_waiter {choice : Choice ⊕ Kevent} {memory : Memory Kqueue} {moved : Pc KqueuePoint}
    (stepped : step kqueue choice state.memory (state.thread waiter) = some (memory, moved)) :
    (recorded waiter).next (state, history) (.step waiter choice) =
      some (⟨memory, Function.update state.thread waiter moved⟩,
        history.step choice (state.thread waiter) moved) := by
  refine (Program.record_step stepped).trans ?_
  simp only [note, if_pos, Function.update_self]

/-- The last attempt on a held mutex. -/
theorem step_lastTry {pc : Pc KqueuePoint} {memory : Memory Kqueue} (last : pc.lastTry = true)
    (held : memory.word &&& 1 ≠ 0) : ∃ choice, step kqueue choice memory pc = some (memory, .remove false) := by
  unfold Pc.lastTry at last
  split at last
  · refine ⟨.inl .go, ?_⟩
    show some (memory, tryLoop kqueue .last memory.word) = _
    rw [tryLoop_held held]
    rfl
  · refine ⟨.inl .spurious, ?_⟩
    show some (memory, tryLoop kqueue .last memory.word) = _
    rw [tryLoop_held held]
    rfl
  · cases last

/-- The last attempt of a lost waiter. -/
theorem exists_failure_of_lastTry {origin here : KqueueState Actor × History}
    (reached : ((recorded waiter).resume origin).Reach (fun _ => OneWaiter waiter) here)
    (last : (here.1.thread waiter).lastTry = true) (event : here.2.answer = some (.inr (.event .user)))
    (held : here.1.memory.word &&& 1 ≠ 0) :
    ∃ later, ((recorded waiter).resume origin).Reach (fun _ => OneWaiter waiter) later ∧
      ¬ Punctual later.2 := by
  obtain ⟨state, history⟩ := here
  obtain ⟨choice, stepped⟩ := step_lastTry last held
  have allowed : OneWaiter waiter (.step waiter choice) := trivial
  refine ⟨_, reached.step allowed (next_waiter stepped), fun punctual => ?_⟩
  have failures : (history.step choice (state.thread waiter) (.remove false)).failures =
      history.answer :: history.failures := if_pos ⟨last, rfl⟩
  have failed := punctual history.answer (by rw [failures]; exact List.mem_cons_self)
  rw [event] at failed
  rcases failed with late | late | late <;> cases late

/-- **A lost waiter fails**, if it goes on alone. -/
theorem exists_failure {here : KqueueState Actor × History} (lost : Lost waiter here) :
    ∃ later, ((recorded waiter).resume here).Reach (fun _ => OneWaiter waiter) later ∧
      ¬ Punctual later.2 := by
  obtain ⟨state, history⟩ := here
  obtain ⟨⟨ending, event⟩, held⟩ := lost
  by_cases last : (state.thread waiter).lastTry = true
  · exact exists_failure_of_lastTry .start last event held
  · have deleting : state.thread waiter = .wait (.deadline .system) (.keventUntil (.deleteTimer false)) := by
      simp only [Pc.ending] at ending
      split at ending
      · assumption
      · rename_i there
        rw [there] at last
        exact absurd rfl last
      · rename_i there
        rw [there] at last
        exact absurd rfl last
      · cases ending
    have stepped : step kqueue (.inl .go) state.memory (state.thread waiter) =
        some ({ state.memory with kernel := state.memory.kernel.deleteTimer }, .tryLoad .last) := by
      rw [deleting]
      rfl
    have allowed : OneWaiter waiter (.step waiter (.inl .go)) := trivial
    have place : Function.update state.thread waiter (.tryLoad .last) waiter = .tryLoad .last :=
      Function.update_self ..
    refine exists_failure_of_lastTry (System.Reach.start.step allowed (next_waiter stepped)) ?_ ?_ held
    · simp only [place]
      rfl
    · simpa [History.step, deleting, Pc.inKevent] using event

/-- **`try_lock_until` fails by its timer or by an error only**, where the waiter is spared; and after every step
that does not spare it, it can go on to fail by the notification. -/
theorem fastKqueueMutex_fails_by_timer (waiter : Actor) :
    (recorded waiter).Sharp (OneWaiter waiter) (Spared waiter) fun here => Punctual here.2 :=
  .of_invariant (sound_start waiter) (fun _ _ _ sound allowed spared taken => sound.next allowed spared taken)
    (fun _ sound => sound.punctual) (fun _ _ _ _ _ hurts taken => lost_of_not_spared taken hurts)
    fun _ => exists_failure

/-- A waiter that its timer wakes, and then one that is notified of an `unlock`, and takes the mutex. -/
theorem fastKqueueMutex_fails_by_timer_woken :
    ∃ here, (recorded (0 : Fin 2)).Reach
      (fun here action => OneWaiter 0 action ∧ Spared 0 here action) here ∧
        here.2.failures = [some (.inr (.event .timer))] ∧ here.1.thread 0 = .owner false ∧ Punctual here.2 := by
  obtain ⟨here, reached, checked⟩ := System.exists_reach_of_run (recorded (0 : Fin 2))
    (fun here action => OneWaiter 0 action ∧ Spared 0 here action)
    [.call 1 .lock, .step 1 (.inl .go), .call 0 (.tryLockUntil .system), .step 0 (.inl .go),
      .step 0 (.inl .go), .step 0 (.inl .go), .step 0 (.inr (.event .timer)), .step 0 (.inl .go),
      .step 0 (.inl .go), .step 0 (.inl .go), .call 0 (.tryLockUntil .system), .step 0 (.inl .go),
      .step 0 (.inl .go), .step 0 (.inl .go), .call 1 .unlock, .step 1 (.inl .go), .step 1 (.inl .go),
      .step 0 (.inr (.event .user)), .step 0 (.inl .go), .step 0 (.inl .go), .step 0 (.inl .go),
      .step 0 (.inl .go)]
    (fun here => decide (here.2.failures = [some (.inr (.event .timer))] ∧ here.1.thread 0 = .owner false))
    (by decide +kernel)
  obtain ⟨failed, owner⟩ := of_decide_eq_true checked
  exact ⟨here, reached, failed, owner, (fastKqueueMutex_fails_by_timer 0 here reached).1⟩

/-- **An `unlock` makes `try_lock_until` fail.** The waiter takes its notification for the timeout, and another
thread locks the mutex before the last attempt. -/
theorem fastKqueueMutex_fails_by_unlock :
    ¬ ∀ (Actor : Type) [DecidableEq Actor] [Fintype Actor] (waiter : Actor)
      (here : KqueueState Actor × History),
        (recorded waiter).Reach (fun _ => OneWaiter waiter) here → Punctual here.2 := by
  intro punctual
  obtain ⟨here, reached, failed⟩ := System.exists_reach_of_run (recorded (0 : Fin 2)) (fun _ => OneWaiter 0)
    [.call 1 .lock, .step 1 (.inl .go), .call 0 (.tryLockUntil .system), .step 0 (.inl .go),
      .step 0 (.inl .go), .step 0 (.inl .go), .call 1 .unlock, .step 1 (.inl .go), .step 1 (.inl .go),
      .step 0 (.inr (.event .user)), .call 1 .tryLock, .step 1 (.inl .go), .step 1 (.inl .go),
      .step 0 (.inl .go), .step 0 (.inl .go)]
    (fun here => decide (here.2.failures = [some (.inr (.event .user))])) (by decide +kernel)
  have late := punctual _ _ here reached
  unfold Punctual at late
  rw [of_decide_eq_true failed] at late
  revert late
  decide

end Runs

end NovaSync.FastAsyncMutex
