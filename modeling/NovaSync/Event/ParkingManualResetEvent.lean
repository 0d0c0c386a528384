/-
**`parking_manual_reset_event` as a thread program.**

`state_` is one or zero. `signal` exchanges it for one and notifies all waiters if it was zero; `reset`
stores zero; a waiter sleeps on zero.

A history beside the state says for each thread whether a load of its current call has found the event
set.

* `Announced` — while the event is set and somebody sleeps, a `signal` that has set it has yet to notify.
* `manualResetEvent_no_sleeper_while_set` — the same for every run, and a wait that reports success has
  found the event set.
-/

import NovaSync.Concurrency.Threads
import NovaSync.Detail.Backoff
import NovaSync.Futex.AtomicWait

set_option linter.unusedSectionVars false

namespace NovaSync.ParkingManualResetEvent

open Concurrency Detail Futex

/-! ### The program -/

/-- `uint32_t`. -/
abbrev Word := BitVec 32

/-- The policy. -/
structure Config where
  useBackoff : Bool
deriving DecidableEq, Repr

inductive Op
  | signal
  | reset
  | tryWait
  | wait
  | tryWaitUntil
deriving DecidableEq, Repr

/-- The next atomic operation of a thread. `timed` tells `try_wait_until` from `wait`.

* `exchange`, `notify`: the `exchange(1)` and the `atomic_notify_all` of `signal`; `store`: the store of
  `reset`.
* `tryLoad`: the load of `try_wait`.
* `spin`: the next call of the spin functor of `wait`; `firstLoad`, `loopLoad`: the load before the wait
  loop and the one in its head; `wait`: `atomic_wait` or `atomic_wait_until` on zero.
* `lastLoad`: the load of `try_wait_until` after its wait has timed out.
* `returned`: outside all operations, after a wait that has reported `success`. -/
inductive Pc
  | idle
  | exchange
  | notify
  | store
  | tryLoad
  | spin (state : ExponentialBackoff)
  | firstLoad (timed : Bool)
  | loopLoad (timed : Bool)
  | wait (timed : Bool) (point : WaitPoint)
  | lastLoad
  | returned (success : Bool)
deriving DecidableEq, Repr

/-- Where `wait` goes after a call of the spin functor. -/
def spinNext : SpinLoop → Pc
  | .returned true => .returned true
  | .returned false => .firstLoad false
  | .again state => .spin state

/-- The first step of an operation. -/
def begin (config : Config) : Op → Pc
  | .signal => .exchange
  | .reset => .store
  | .tryWait => .tryLoad
  | .wait => if config.useBackoff then .spin {} else .firstLoad false
  | .tryWaitUntil => .firstLoad true

def call (config : Config) (op : Op) : Pc → Option Pc
  | .idle | .returned _ => some (begin config op)
  | _ => none

/-- The next atomic operation. -/
def step (choice : Choice) (word : Word) : Pc → Option (Word × Pc)
  | .exchange => ordinary choice (1, if word = 0 then .notify else .idle)
  | .store => ordinary choice (0, .idle)
  | .tryLoad => ordinary choice (word, .returned (word ≠ 0))
  | .spin state => ordinary choice (word, spinNext
      (afterCall state (if word ≠ 0 then .success else .retryWithoutBackoff)))
  | .firstLoad timed =>
      ordinary choice (word, if word ≠ 0 then .returned true else .loopLoad timed)
  | .loopLoad timed =>
      ordinary choice (word, if word = 0 then .wait timed (WaitPoint.start timed) else .returned true)
  | .wait timed point => (point.step timed word 0 choice).map fun
      | .inl next => (word, .wait timed next)
      | .inr changed => (word, if timed && !changed then .lastLoad else .loopLoad timed)
  | .lastLoad => ordinary choice (word, .returned (word ≠ 0))
  | .idle | .notify | .returned _ => none

namespace Pc

def asleep : Pc → Bool
  | .wait _ point => point.isAsleep
  | _ => false

def woken : Pc → Pc
  | .wait timed point => .wait timed point.woken
  | pc => pc

/-- The next step of the thread loads `state_`. -/
def loads : Pc → Bool
  | .tryLoad | .spin _ | .firstLoad _ | .loopLoad _ | .lastLoad => true
  | .wait _ point => !point.isAsleep
  | _ => false

end Pc

/-- The event as a thread program. -/
def program (config : Config) : Program Word Pc Op Choice where
  idle := .idle
  call := call config
  step := step
  wake := fun
    | .notify => some (.all, .idle)
    | _ => none
  asleep := Pc.asleep
  woken := Pc.woken

/-- The event used by the threads of `Thread`. -/
abbrev system (config : Config) (initiallySet : Bool) (Thread : Type*) [DecidableEq Thread]
    [Fintype Thread] : System (State Thread Word Pc) (Action Thread Op Choice) :=
  (program config).system (if initiallySet then 1 else 0)

/-- The history: whether a load of the thread's current call has found the event set. -/
def noteLoad {Thread : Type*} [DecidableEq Thread] (state : State Thread Word Pc)
    (action : Action Thread Op Choice) (_after : State Thread Word Pc) (found : Thread → Bool) :
    Thread → Bool :=
  match action with
  | .call t _ => Function.update found t false
  | .step t _ =>
      Function.update found t (found t || (state.thread t).loads && decide (state.memory ≠ 0))
  | .wake _ _ => found

/-- The event with that history. -/
abbrev recorded (config : Config) (initiallySet : Bool) (Thread : Type*) [DecidableEq Thread]
    [Fintype Thread] : System (State Thread Word Pc × (Thread → Bool)) (Action Thread Op Choice) :=
  (system config initiallySet Thread).record (fun _ => false) noteLoad

/-! ### What a step can do -/

/-- **The effects of a step.** A thread moves on awake, falls asleep on a clear event, reports success on
a load that finds the event set, sets it, or clears it. -/
inductive Effect (word : Word) (pc : Pc) : Word → Pc → Prop
  | moves {after : Pc} : after.asleep = false → after ≠ .returned true → after ≠ .notify →
      Effect word pc word after
  | sleeps {timed : Bool} : word = 0 → Effect word pc word (.wait timed .asleep)
  | finds : pc.loads = true → word ≠ 0 → Effect word pc word (.returned true)
  | sets : word = 0 → Effect word pc 1 .notify
  | stays : word ≠ 0 → Effect word pc 1 .idle
  | clears : Effect word pc 0 .idle

theorem step_effect {choice : Choice} {word after : Word} {pc moved : Pc}
    (stepped : step choice word pc = some (after, moved)) : Effect word pc after moved := by
  cases pc with
  | idle | notify | returned => cases stepped
  | exchange =>
    cases (ordinary_eq_some stepped).2
    by_cases clear : word = 0
    · rw [if_pos clear]
      exact .sets clear
    · rw [if_neg clear]
      exact .stays clear
  | store =>
    cases (ordinary_eq_some stepped).2
    exact .clears
  | tryLoad | lastLoad =>
    cases (ordinary_eq_some stepped).2
    by_cases clear : word = 0
    · rw [decide_eq_false (not_not.mpr clear)]
      exact .moves rfl nofun nofun
    · rw [decide_eq_true clear]
      exact .finds rfl clear
  | spin state =>
    cases (ordinary_eq_some stepped).2
    by_cases clear : word = 0
    · rw [if_neg (not_not.mpr clear)]
      cases loop : afterCall state .retryWithoutBackoff with
      | again state => exact .moves rfl nofun nofun
      | returned success =>
        cases success with
        | false => exact .moves rfl nofun nofun
        | true => cases afterCall_returned_true loop
    · rw [if_pos clear]
      exact .finds rfl clear
  | firstLoad timed =>
    cases (ordinary_eq_some stepped).2
    by_cases clear : word = 0
    · rw [if_neg (not_not.mpr clear)]
      exact .moves rfl nofun nofun
    · rw [if_pos clear]
      exact .finds rfl clear
  | loopLoad timed =>
    cases (ordinary_eq_some stepped).2
    by_cases clear : word = 0
    · rw [if_pos clear]
      cases timed <;> exact .moves rfl nofun nofun
    · rw [if_neg clear]
      exact .finds rfl clear
  | wait timed point =>
    obtain ⟨next | changed, waited, result⟩ := Option.map_eq_some_iff.mp stepped <;> cases result
    · cases next with
      | asleep => exact .sleeps (WaitPoint.step_asleep waited)
      | _ => exact .moves rfl nofun nofun
    · split <;> exact .moves rfl nofun nofun

theorem call_moves {config : Config} {op : Op} {pc moved : Pc} (called : call config op pc = some moved) :
    pc ≠ .notify ∧ moved.asleep = false ∧ moved ≠ .returned true := by
  have begins : (begin config op).asleep = false ∧ begin config op ≠ .returned true := by
    cases op with
    | wait =>
      simp only [begin]
      split <;> exact ⟨rfl, nofun⟩
    | _ => exact ⟨rfl, nofun⟩
  cases pc with
  | idle | returned =>
    cases called
    exact ⟨nofun, begins⟩
  | _ => cases called

theorem wake_notify {config : Config} {pc moved : Pc} {kind : WakeCount}
    (issued : (program config).wake pc = some (kind, moved)) :
    pc = .notify ∧ kind = .all ∧ moved = .idle := by
  cases pc with
  | notify =>
    cases issued
    exact ⟨rfl, rfl, rfl⟩
  | _ => cases issued

theorem awake_woken (pc : Pc) : pc.woken.asleep = false := by
  cases pc with
  | wait timed point => cases point <;> rfl
  | _ => rfl

/-! ### Sleepers -/

variable {config : Config} {initiallySet : Bool} {Thread : Type*} [DecidableEq Thread] [Fintype Thread]

/-- **While the event is set and somebody sleeps, a notification is pending.** -/
def Announced (state : State Thread Word Pc) : Prop :=
  state.memory ≠ 0 → (∃ t, (state.thread t).asleep = true) → ∃ u, state.thread u = .notify

section Announced

variable {state : State Thread Word Pc} {t : Thread} {word : Word} {moved : Pc}

/-- A thread that is not about to notify moves on awake, and does not set the event. -/
theorem Announced.move (announced : Announced state) (source : state.thread t ≠ .notify)
    (set : word ≠ 0 → state.memory ≠ 0) (awake : moved.asleep = false) :
    Announced ⟨word, Function.update state.thread t moved⟩ := by
  rintro here ⟨u, sleeping⟩
  have before := (ne_of_update Pc.asleep awake sleeping).2
  exact exists_update moved source (announced (set here) ⟨u, before⟩)

theorem Announced.effect (announced : Announced state) (source : state.thread t ≠ .notify)
    (effect : Effect state.memory (state.thread t) word moved) :
    Announced ⟨word, Function.update state.thread t moved⟩ := by
  cases effect with
  | moves awake => exact announced.move source id awake
  | sleeps clear => exact fun set => absurd clear set
  | finds => exact announced.move source id rfl
  | sets =>
    rintro - -
    exact ⟨t, by simp only [Function.update_self]⟩
  | stays set => exact announced.move source (fun _ => set) rfl
  | clears => exact fun set => absurd rfl set

end Announced

theorem source_of_step {choice : Choice} {word after : Word} {pc moved : Pc}
    (stepped : step choice word pc = some (after, moved)) : pc ≠ .notify := by
  rintro rfl
  cases stepped

theorem announced_of_reachable {state : State Thread Word Pc}
    (reached : (system config initiallySet Thread).Reachable state) : Announced state := by
  refine reached.invariant ?_ fun state action after _ announced _ taken => ?_
  · rintro - ⟨t, sleeping⟩
    cases sleeping
  · rcases Program.next_cases taken with ⟨t, op, moved, -, called, rfl⟩ |
      ⟨t, choice, word, moved, -, stepped, rfl⟩ |
      ⟨t, target, kind, moved, others, -, issued, -, rfl, woken⟩
    · obtain ⟨source, awake, -⟩ := call_moves called
      exact announced.move source id awake
    · exact announced.effect (source_of_step stepped) (step_effect stepped)
    · obtain ⟨-, rfl, rfl⟩ := wake_notify issued
      rcases woken with ⟨-, rfl⟩ | ⟨one, -⟩ | ⟨one, -⟩
      · rintro - ⟨u, sleeping⟩
        have asleep := (ne_of_update Pc.asleep rfl sleeping).2
        have awake := (program config).asleep_wakeEvery awake_woken state.thread u
        exact absurd asleep (Bool.eq_false_iff.mp awake)
      · cases one
      · cases one

/-! ### Reports -/

/-- **Who reports success has found the event set.** -/
def Reported (state : State Thread Word Pc) (found : Thread → Bool) : Prop :=
  ∀ t, state.thread t = .returned true → found t = true

theorem Reported.next {state after : State Thread Word Pc} {found : Thread → Bool}
    {action : Action Thread Op Choice} (reported : Reported state found)
    (taken : (system config initiallySet Thread).next state action = some after) :
    Reported after (noteLoad state action after found) := by
  rcases Program.next_cases taken with ⟨t, op, moved, rfl, called, rfl⟩ |
    ⟨t, choice, word, moved, rfl, stepped, rfl⟩ |
    ⟨t, target, kind, moved, others, rfl, issued, woken, rfl, -⟩
  · intro u returned
    rcases update_cases id returned with ⟨-, here⟩ | ⟨other, before⟩
    · exact absurd here (call_moves called).2.2
    · simp only [noteLoad, Function.update_of_ne other]
      exact reported u before
  · intro u returned
    rcases update_cases id returned with ⟨rfl, here⟩ | ⟨other, before⟩
    · have load : (state.thread u).loads = true ∧ state.memory ≠ 0 := by
        have effect := step_effect stepped
        rw [show moved = .returned true from here] at effect
        cases effect with
        | moves _ other => exact absurd rfl other
        | finds loads set => exact ⟨loads, set⟩
      simp only [noteLoad, Function.update_self]
      rw [load.1, decide_eq_true load.2]
      exact Bool.or_true _
    · simp only [noteLoad, Function.update_of_ne other]
      exact reported u before
  · obtain ⟨-, -, rfl⟩ := wake_notify issued
    intro u returned
    rcases update_cases id returned with ⟨-, here⟩ | ⟨-, before⟩
    · cases here
    · rcases woken u with same | ⟨sleeping, same⟩
      · exact reported u (same.symm.trans before)
      · rw [same] at before
        have awake : ((state.thread u).woken = .returned true) := before
        cases standing : state.thread u with
        | wait timed point =>
          rw [standing] at awake
          cases awake
        | _ =>
          rw [standing] at sleeping
          cases sleeping

/-- **No waiter sleeps on while the event is set**, unless a `signal` that has set it has yet to execute
its `atomic_notify_all`; and a wait reports success only if one of its loads has found the event set. -/
theorem manualResetEvent_no_sleeper_while_set {state : State Thread Word Pc} {found : Thread → Bool}
    (reached : (recorded config initiallySet Thread).Reachable (state, found)) :
    (state.memory = 1 → ∀ t, (state.thread t).asleep = true → ∃ u, state.thread u = .notify) ∧
      ∀ t, state.thread t = .returned true → found t = true := by
  constructor
  · intro set t sleeping
    have nonzero : state.memory ≠ 0 := by
      rw [set]
      decide
    exact announced_of_reachable reached.erase nonzero ⟨t, sleeping⟩
  · refine reached.invariant (P := fun here => Reported here.1 here.2) nofun ?_
    intro here action after _ reported _ taken
    obtain ⟨next, moves, rfl⟩ := Option.map_eq_some_iff.mp taken
    exact reported.next moves

/-- Thread 0 sleeps, thread 1 has set the event and not yet notified, and thread 2 has found it set. -/
theorem manualResetEvent_no_sleeper_while_set_pending :
    ∃ (state : State (Fin 3) Word Pc) (found : Fin 3 → Bool),
      (recorded ⟨false⟩ false (Fin 3)).Reachable (state, found) ∧ state.memory = 1 ∧
      (state.thread 0).asleep = true ∧ state.thread 2 = .returned true ∧
      (∃ u, state.thread u = .notify) ∧ found 2 = true := by
  obtain ⟨⟨state, found⟩, reached, slept⟩ := System.exists_reachable_of_run
    (recorded ⟨false⟩ false (Fin 3))
    [.call 0 .tryWaitUntil, .step 0 .go, .step 0 .go, .step 0 .go, .step 0 .go, .call 1 .signal,
      .step 1 .go, .call 2 .wait, .step 2 .go]
    (fun here => decide (here.1.memory = 1 ∧ (here.1.thread 0).asleep = true ∧
      here.1.thread 2 = .returned true)) (by decide +kernel)
  obtain ⟨set, sleeping, returned⟩ := of_decide_eq_true slept
  obtain ⟨attended, reported⟩ := manualResetEvent_no_sleeper_while_set reached
  exact ⟨state, found, reached, set, sleeping, returned, attended set 0 sleeping, reported 2 returned⟩

end NovaSync.ParkingManualResetEvent
