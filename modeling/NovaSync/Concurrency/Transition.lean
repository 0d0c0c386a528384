/-
**Guarded transition systems.**

A system is a start state and an executable partial step function; an action is a choice of the
scheduler and of the environment, so one action has at most one outcome.

* `System.Reach guard` — the states that runs reach whose every action meets `guard` in the state it
  is taken in. `System.Reachable` is the unguarded case.
* `System.Reach.invariant` — the invariant rule: what holds at the start and is kept by every
  guarded step holds in every state reached.
* `System.run` — the executable run of a list of actions; `System.exists_reachable_of_run` reads
  reachable states off a concrete schedule, and `System.exists_reach_of_run` guarded ones.
* `System.Reach.simulate` — a state map that takes every guarded step to a guarded step of another
  system takes every state reached to a state reached.
* `System.Sharp` — a condition on steps under which a property holds throughout, and any breach of which a
  run can follow up to a violation; `System.Sharp.of_invariant` is the rule for it.
* `System.record` — the system beside a history of its steps; `System.Reach.erase` forgets it.
-/

import Mathlib.Tactic.Common

namespace Concurrency

/-- A start state, and the state after an action; `none` where the action is not possible. -/
structure System (State Action : Type*) where
  start : State
  next : State → Action → Option State

namespace System

variable {State Action : Type*} (system : System State Action)

/-- **The states reached by runs whose every action meets the guard.** -/
inductive Reach (guard : State → Action → Prop) : State → Prop
  | start : Reach guard system.start
  | step {state after : State} {action : Action} : Reach guard state → guard state action →
      system.next state action = some after → Reach guard after

/-- The states reached by any run. -/
abbrev Reachable : State → Prop := system.Reach fun _ _ => True

/-- The same system, going on from a state. -/
def resume (state : State) : System State Action := { system with start := state }

/-- The same system, taking only the actions that meet the guard. -/
def restrict (guard : State → Action → Prop) [∀ state, DecidablePred (guard state)] :
    System State Action where
  start := system.start
  next state action := if guard state action then system.next state action else none

/-- The system beside a history, which every step adds to and no step reads. -/
def record {History : Type*} (first : History)
    (note : State → Action → State → History → History) : System (State × History) Action where
  start := (system.start, first)
  next here action := (system.next here.1 action).map fun after =>
    (after, note here.1 action after here.2)

/-- The state after a list of actions; `none` as soon as one of them is not possible. -/
def run (state : State) : List Action → Option State
  | [] => some state
  | action :: rest => (system.next state action).bind fun after => run after rest

variable {system} {guard : State → Action → Prop}

/-- **The invariant rule.** The step may use that the state it leaves is reached. -/
theorem Reach.invariant {P : State → Prop} (start : P system.start)
    (step : ∀ state action after, system.Reach guard state → P state → guard state action →
      system.next state action = some after → P after)
    {state : State} (reached : system.Reach guard state) : P state := by
  induction reached with
  | start => exact start
  | step before allowed taken ih => exact step _ _ _ before ih allowed taken

theorem Reach.reachable {state : State} (reached : system.Reach guard state) :
    system.Reachable state :=
  reached.invariant .start fun _ _ _ _ before _ taken => before.step trivial taken

/-- A run that goes on from a reached state is a run. -/
theorem Reach.resume {allowed : State → Action → Prop} {state later : State}
    (reached : system.Reachable state) (resumed : (system.resume state).Reach allowed later) :
    system.Reachable later :=
  resumed.invariant reached fun _ _ _ _ before _ taken => before.step trivial taken

/-- **Simulation.** The map `view` takes each step to the step `image` of the other system. -/
theorem Reach.simulate {Abstract Move : Type*} {abstract : System Abstract Move}
    {allowed : Abstract → Move → Prop} (view : State → Abstract) (image : State → Action → Move)
    (start : view system.start = abstract.start)
    (step : ∀ state action after, abstract.Reach allowed (view state) → guard state action →
      system.next state action = some after → allowed (view state) (image state action) ∧
        abstract.next (view state) (image state action) = some (view after))
    {state : State} (reached : system.Reach guard state) : abstract.Reach allowed (view state) := by
  induction reached with
  | start =>
    rw [start]
    exact .start
  | step _ met taken ih =>
    obtain ⟨permitted, followed⟩ := step _ _ _ ih met taken
    exact .step ih permitted followed

/-- What is reached beside a history is reached without it. -/
theorem Reach.erase {History : Type*} {first : History}
    {note : State → Action → State → History → History} {state : State} {history : History}
    (reached : (system.record first note).Reachable (state, history)) : system.Reachable state := by
  refine reached.invariant (P := fun here => system.Reachable here.1) .start ?_
  intro here action after _ before _ taken
  obtain ⟨next, moved, rfl⟩ := Option.map_eq_some_iff.mp taken
  exact before.step trivial moved

theorem Reach.noted {History : Type*} {first history : History}
    {note : State → Action → State → History → History} {state after : State} {action : Action}
    (reached : (system.record first note).Reachable (state, history))
    (taken : system.next state action = some after) :
    (system.record first note).Reachable (after, note state action after history) :=
  reached.step trivial (Option.map_eq_some_iff.mpr ⟨after, taken, rfl⟩)

theorem reach_of_restrict [∀ state, DecidablePred (guard state)] {state : State}
    (reached : (system.restrict guard).Reachable state) : system.Reach guard state := by
  refine reached.invariant .start fun state action after _ before _ taken => ?_
  simp only [restrict] at taken
  split at taken
  · rename_i met
    exact before.step met taken
  · cases taken

/-- A schedule whose actions the guard allows anywhere reaches the state it computes. -/
theorem Reach.run {actions : List Action} {state last : State} (reached : system.Reach guard state)
    (allowed : ∀ state, ∀ action ∈ actions, guard state action)
    (computed : system.run state actions = some last) : system.Reach guard last := by
  induction actions generalizing state with
  | nil =>
    cases computed
    exact reached
  | cons action rest ih =>
    obtain ⟨after, taken, computed⟩ := Option.bind_eq_some_iff.mp computed
    have first : guard state action := allowed _ _ List.mem_cons_self
    refine ih (reached.step first taken) (fun state later member => ?_) computed
    exact allowed state later (List.mem_cons_of_mem _ member)

/-- A concrete schedule reaches the state it computes. -/
theorem reach_of_run {actions : List Action} {state last : State}
    (reached : system.Reachable state) (computed : system.run state actions = some last) :
    system.Reachable last :=
  reached.run (fun _ _ _ => trivial) computed

/-- A state that a concrete schedule reaches, with what can be computed about it. -/
theorem exists_reachable_of_run (system : System State Action) (actions : List Action)
    (check : State → Bool)
    (computed : (system.run system.start actions).any check = true) :
    ∃ state, system.Reachable state ∧ check state = true := by
  obtain ⟨state, last, checked⟩ := (Option.any_eq_true _ _).mp computed
  exact ⟨state, reach_of_run .start last, checked⟩

/-- The same for a guarded run. -/
theorem exists_reach_of_run (system : System State Action) (guard : State → Action → Prop)
    [∀ state, DecidablePred (guard state)] (actions : List Action) (check : State → Bool)
    (computed : ((system.restrict guard).run system.start actions).any check = true) :
    ∃ state, system.Reach guard state ∧ check state = true := by
  obtain ⟨state, reached, checked⟩ :=
    exists_reachable_of_run (system.restrict guard) actions check computed
  exact ⟨state, reach_of_restrict reached, checked⟩

/-- **A sharp condition for a property**, in the runs of the allowed actions: it holds in every state reached by
steps that meet the condition, and after a step that does not, some run goes on to where it fails. -/
def Sharp (system : System State Action) (allowed : Action → Prop) (guard : State → Action → Prop)
    (P : State → Prop) : Prop :=
  ∀ state, system.Reach (fun state action => allowed action ∧ guard state action) state →
    P state ∧ ∀ action after, allowed action → system.next state action = some after →
      ¬ guard state action → ∃ later, (system.resume after).Reach (fun _ => allowed) later ∧ ¬ P later

/-- **The rule for sharp conditions**: an invariant that the condition keeps, and what a breach of the condition
leads to. -/
theorem Sharp.of_invariant {allowed : Action → Prop} {P Sound Lost : State → Prop} (start : Sound system.start)
    (keeps : ∀ state action after, Sound state → allowed action → guard state action →
      system.next state action = some after → Sound after)
    (holds : ∀ state, Sound state → P state)
    (loses : ∀ state action after, system.Reachable state → Sound state → ¬ guard state action →
      system.next state action = some after → Lost after)
    (fails : ∀ state, Lost state →
      ∃ later, (system.resume state).Reach (fun _ => allowed) later ∧ ¬ P later) :
    system.Sharp allowed guard P := by
  intro state reached
  have sound : Sound state := reached.invariant start fun state action after _ sound met taken =>
    keeps state action after sound met.1 met.2 taken
  refine ⟨holds state sound, fun action after _ taken breach => ?_⟩
  exact fails after (loses state action after reached.reachable sound breach taken)

end System

end Concurrency
