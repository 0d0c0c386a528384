/-
**What has been the case during a call.**

A history beside the state of a thread program says for every thread which of some conditions on the state have
held at a moment of the thread's current call, its first and its last state included. What a call reports is right
if there was such a moment: the caller cannot tell more of an object that others use meanwhile.

* `Program.watched` — the system with that history.
* `Program.past_of_holds` — what holds now has held; `past_of_never` — what never holds has not.
* `Program.past_or` — a moment of one of two conditions is a moment of the one or of the other.
* `Program.past_of_owed` — the rule: where each step that enters a place which reports a condition is taken when the
  condition holds, or leads to where it does, whoever is at such a place has had a moment of it.
-/

import NovaSync.Concurrency.Threads

set_option linter.unusedSectionVars false

namespace Concurrency.Program

variable {Thread Memory Local Op Choice Moment : Type*} [DecidableEq Thread] [Fintype Thread]

/-- The thread begins a call with this action. -/
def begins (action : Action Thread Op Choice) (u : Thread) : Bool :=
  match action with
  | .call t _ => decide (u = t)
  | .step _ _ | .wake _ _ => false

/-- A call begins with what holds at its first state, and every action adds what holds after it. -/
def noteMoments (holds : Moment → State Thread Memory Local → Bool) (_before : State Thread Memory Local)
    (action : Action Thread Op Choice) (after : State Thread Memory Local) (past : Thread → Moment → Bool) :
    Thread → Moment → Bool :=
  fun u moment => holds moment after || (!begins action u && past u moment)

variable (program : Program Memory Local Op Choice) (memory : Memory)
  (holds : Moment → State Thread Memory Local → Bool)

/-- The system beside the moments of the threads' calls. -/
abbrev watched : System (State Thread Memory Local × (Thread → Moment → Bool)) (Action Thread Op Choice) :=
  (program.system memory).record (fun _ moment => holds moment (program.system memory).start) (noteMoments holds)

variable {program memory holds} {state : State Thread Memory Local} {past : Thread → Moment → Bool}

/-- **What holds now has held** in everybody's call. -/
theorem past_of_holds (reached : (program.watched memory holds).Reachable (state, past)) {moment : Moment}
    (now : holds moment state = true) (u : Thread) : past u moment = true := by
  have kept : ∀ here : State Thread Memory Local × (Thread → Moment → Bool),
      (program.watched memory holds).Reachable here → holds moment here.1 = true → here.2 u moment = true := by
    intro here reached
    refine reached.invariant (P := fun here => holds moment here.1 = true → here.2 u moment = true)
      (fun now => now) ?_
    intro here action after _ _ _ taken now
    obtain ⟨next, -, rfl⟩ := Option.map_eq_some_iff.mp taken
    simp only [noteMoments, now, Bool.true_or]
  exact kept (state, past) reached now

/-- What has held stays so, but for the thread that begins a call. -/
theorem noteMoments_of_past (before : State Thread Memory Local) {after : State Thread Memory Local}
    {action : Action Thread Op Choice} {u : Thread} {moment : Moment} (goesOn : begins action u = false)
    (held : past u moment = true) :
    noteMoments holds before action after past u moment = true := by
  simp only [noteMoments, goesOn, held, Bool.not_false, Bool.and_true, Bool.or_true]

/-- What has not held until now has not held before. -/
theorem past_of_noteMoments (before : State Thread Memory Local) {after : State Thread Memory Local}
    {action : Action Thread Op Choice} {u : Thread} {moment : Moment} (goesOn : begins action u = false)
    (never : noteMoments holds before action after past u moment = false) : past u moment = false := by
  by_contra held
  rw [noteMoments_of_past before goesOn (eq_true_of_ne_false held)] at never
  cases never

/-- **What never holds has not held.** -/
theorem past_of_never {guard : State Thread Memory Local × (Thread → Moment → Bool) → Action Thread Op Choice → Prop}
    {moment : Moment} (never : ∀ here, (program.watched memory holds).Reach guard here → holds moment here.1 = false)
    (reached : (program.watched memory holds).Reach guard (state, past)) (u : Thread) : past u moment = false := by
  have kept : ∀ here : State Thread Memory Local × (Thread → Moment → Bool),
      (program.watched memory holds).Reach guard here → here.2 u moment = false := by
    intro here reached
    refine reached.invariant (P := fun here => here.2 u moment = false) (never _ .start) ?_
    intro here action later before absent met taken
    have now := never later (before.step met taken)
    obtain ⟨next, -, rfl⟩ := Option.map_eq_some_iff.mp taken
    simp only [noteMoments, now, absent, Bool.and_false, Bool.or_false]
  exact kept (state, past) reached

/-- **A moment of a disjunction** is a moment of one side. -/
theorem past_or {whole left right : Moment}
    (either : ∀ state, holds whole state = (holds left state || holds right state))
    (reached : (program.watched memory holds).Reachable (state, past)) {u : Thread} (held : past u whole = true) :
    past u left = true ∨ past u right = true := by
  have kept : ∀ here : State Thread Memory Local × (Thread → Moment → Bool),
      (program.watched memory holds).Reachable here → here.2 u whole = (here.2 u left || here.2 u right) := by
    intro here reached
    refine reached.invariant (P := fun here => here.2 u whole = (here.2 u left || here.2 u right)) (either _) ?_
    intro here action later _ same _ taken
    obtain ⟨next, -, rfl⟩ := Option.map_eq_some_iff.mp taken
    simp only [noteMoments, either, same]
    cases begins action u <;> cases holds left next <;> cases here.2 u left <;> simp
  have same : past u whole = (past u left || past u right) := kept (state, past) reached
  rw [same] at held
  exact Bool.or_eq_true_iff.mp held

/-- **The rule for reports.** `owed l moment` says that a thread at `l` reports the moment. Nobody owes one at a
call, and a step that comes to owe one is taken at such a moment, or leads to one. -/
theorem past_of_owed (silent : program.Silent) {owed : Local → Moment → Prop}
    (idle : ∀ moment, ¬ owed program.idle moment)
    (calls : ∀ op l moved moment, program.call op l = some moved → ¬ owed moved moment)
    (steps : ∀ (state : State Thread Memory Local) t choice memory moved moment,
      program.step choice state.memory (state.thread t) = some (memory, moved) → owed moved moment →
      owed (state.thread t) moment ∨ holds moment state = true ∨
        holds moment ⟨memory, Function.update state.thread t moved⟩ = true)
    (reached : (program.watched memory holds).Reachable (state, past)) {t : Thread} {moment : Moment}
    (owes : owed (state.thread t) moment) : past t moment = true := by
  have kept : ∀ here : State Thread Memory Local × (Thread → Moment → Bool),
      (program.watched memory holds).Reachable here → ∀ t moment, owed (here.1.thread t) moment →
        here.2 t moment = true := by
    intro here reached
    refine reached.invariant
      (P := fun here => ∀ t moment, owed (here.1.thread t) moment → here.2 t moment = true)
      (fun t moment owes => absurd owes (idle moment)) ?_
    rintro ⟨state, past⟩ action later before kept _ taken u moment owes
    rcases silent.record_cases taken with ⟨t, op, moved, rfl, called, rfl⟩ |
      ⟨t, choice, memory, moved, rfl, stepped, rfl⟩
    · by_cases same : u = t
      · subst same
        simp only [Function.update_self] at owes
        exact absurd owes (calls _ _ _ _ called)
      · simp only [Function.update_of_ne same] at owes
        exact noteMoments_of_past state (decide_eq_false same) (kept u moment owes)
    · by_cases same : u = t
      · subst same
        simp only [Function.update_self] at owes
        rcases steps state u choice memory moved moment stepped owes with owed | now | now
        · exact noteMoments_of_past state rfl (kept u moment owed)
        · exact noteMoments_of_past state rfl (past_of_holds before now u)
        · simp only [noteMoments, now, Bool.true_or]
      · simp only [Function.update_of_ne same] at owes
        exact noteMoments_of_past state rfl (kept u moment owes)
  exact kept (state, past) reached t moment owes

end Concurrency.Program
