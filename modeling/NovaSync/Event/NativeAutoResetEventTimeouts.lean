/-
**`native_auto_reset_event`: when a timed wait returns `false`.**

On both platforms a timed wait that has been woken tries once to take the token, and takes it for a timeout if it
finds none. Nothing keeps the token for it: one signal can wake several timed waits, and a thread that was never
asleep can come first.

A history notes why each timed wait that returned `false` did so (`Failure`).

* `Explained` — its kernel wait has ended by a timeout or an error, or its one attempt has found no token.
* `Spared` — a timed wait is woken, and a token is taken by anybody but a woken timed wait, only while there are
  more tokens than woken timed waits.
* `nativeAutoResetEvent_failures` — every failure is explained; attempts do not fail in the runs whose steps are
  `Spared`, and after any other step one of them can. `nativeAutoResetEvent_beaten` are two timed waits and one
  signal on Linux, a timed wait and a `try_wait` on Apple.
-/

import NovaSync.Event.NativeAutoResetEventEventfd
import NovaSync.Event.NativeAutoResetEventKqueue

set_option linter.unusedSectionVars false

namespace NovaSync.NativeAutoResetEventTimeouts

/-- Why a timed wait has returned `false`: how its kernel wait has ended, or which tokens its `try_wait` after the
wait has found. -/
inductive Failure (Outcome Tokens : Type*)
  | wait (outcome : Outcome)
  | attempt (tokens : Tokens)
deriving DecidableEq, Repr

end NovaSync.NativeAutoResetEventTimeouts

/-! ### Linux -/

namespace NovaSync.NativeAutoResetEventEventfd

open Concurrency Detail
open NativeAutoResetEventTimeouts (Failure)

/-- `try_wait_for` with a positive timeout, and `try_wait_until`. -/
def Op.timed : Op → Bool
  | .tryWaitFor positive => positive
  | .tryWaitUntil => true
  | .signal | .tryWait | .wait => false

/-- The operation that each thread has called last, and why timed waits have returned `false`. -/
structure History (Thread : Type*) where
  op : Thread → Option Op := fun _ => none
  failures : List (Failure Choice ℕ) := []

/-- A timed wait returns `false`: with its poll, or with a read that finds no token. -/
def fails (op : Option Op) (counter : ℕ) (pc after : Pc) : Bool :=
  op.any Op.timed && decide (after = .idle) && !(decide (pc = .read .alone) && decide (0 < counter))

def failure (choice : Choice) (counter : ℕ) : Pc → Failure Choice ℕ
  | .read _ => .attempt counter
  | _ => .wait choice

/-- A timed wait whose poll has reported the event readable, before its `try_wait`. -/
def woken (here : Option Op × Pc) : Bool := here.1.any Op.timed && decide (here.2 = .read .alone)

/-- The step wakes a timed wait, or takes a token for another thread than a woken timed wait. -/
def claims (choice : Choice) (counter : ℕ) (op : Option Op) : Pc → Bool
  | .blocked point => op.any Op.timed && decide (point.step choice counter = some (.inr true))
  | .read caller => decide (0 < counter) && !woken (op, .read caller)
  | _ => false

/-- The place of a timed wait. -/
def Pc.inTimed : Pc → Bool
  | .idle | .read .alone => true
  | .blocked point => point.timed
  | _ => false

variable {Thread : Type*} [DecidableEq Thread] [Fintype Thread]

def note (state : State Thread Memory Pc) (action : Action Thread Op Choice) (after : State Thread Memory Pc)
    (history : History Thread) : History Thread :=
  match action with
  | .call t op => { history with op := Function.update history.op t (some op) }
  | .step t choice =>
      if fails (history.op t) state.memory.counter (state.thread t) (after.thread t) then
        { history with
          failures := failure choice state.memory.counter (state.thread t) :: history.failures }
      else history
  | .wake _ _ => history

abbrev recorded (initiallySet : Bool) (Thread : Type*) [DecidableEq Thread] [Fintype Thread] :
    System (State Thread Memory Pc × History Thread) (Action Thread Op Choice) :=
  (system initiallySet Thread).record {} note

/-- **Timed waits fail by a timeout or an error.** -/
def Punctual (history : History Thread) : Prop :=
  ∀ failure ∈ history.failures, failure = .wait .expired ∨ failure = .wait .failed

/-- **Timed waits fail by a timeout or an error, or find no token** when they have been woken. -/
def Explained (history : History Thread) : Prop :=
  ∀ failure ∈ history.failures, failure = .wait .expired ∨ failure = .wait .failed ∨ failure = .attempt 0

/-- A thread in a timed wait is at one of its places. -/
def Standing (here : State Thread Memory Pc × History Thread) : Prop :=
  ∀ t, (here.2.op t).any Op.timed = true → (here.1.thread t).inTimed = true

/-- What each thread is in, and where. -/
def places (here : State Thread Memory Pc × History Thread) : Thread → Option Op × Pc :=
  fun t => (here.2.op t, here.1.thread t)

/-- **Tokens for the woken timed waits**: a step that claims a token finds more of them. -/
def Spared (here : State Thread Memory Pc × History Thread) : Action Thread Op Choice → Prop
  | .step t choice => claims choice here.1.memory.counter (here.2.op t) (here.1.thread t) = true →
      count woken (places here) < here.1.memory.counter
  | .call _ _ | .wake _ _ => True

instance (here : State Thread Memory Pc × History Thread) :
    @DecidablePred (Action Thread Op Choice) (Spared here)
  | .step _ _ => inferInstanceAs (Decidable (_ → _))
  | .call _ _ | .wake _ _ => inferInstanceAs (Decidable True)

section Steps

variable {choice : Choice} {memory after : Memory} {op : Option Op} {pc moved : Pc}

theorem not_woken_of_ne (away : moved ≠ .read .alone) : woken (op, moved) = false := by
  simp [woken, away]

variable (op) in
/-- **Tokens and woken timed waits, step by step**: a step that does not wake keeps the tokens, or takes one that
the thread was woken for or claims; a step that wakes claims one. -/
theorem woken_step (stepped : step choice memory pc = some (after, moved)) :
    (woken (op, moved) = false ∧ memory.counter ≤ after.counter) ∨
    (woken (op, moved) = false ∧ memory.counter = after.counter + 1 ∧
      (woken (op, pc) = true ∨ claims choice memory.counter op pc = true)) ∨
    (after.counter = memory.counter ∧ claims choice memory.counter op pc = true) := by
  cases pc with
  | idle => cases stepped
  | signalLoad =>
    cases (ordinary_eq_some stepped).2
    refine Or.inl ⟨not_woken_of_ne ?_, le_rfl⟩
    split <;> nofun
  | signalPoll =>
    obtain ⟨set, -, same⟩ := Option.map_eq_some_iff.mp stepped
    cases same
    refine Or.inl ⟨not_woken_of_ne ?_, le_rfl⟩
    split <;> nofun
  | signalWrite =>
    cases (ordinary_eq_some stepped).2
    exact Or.inl ⟨not_woken_of_ne nofun, Nat.le_succ _⟩
  | read caller =>
    have performed := (ordinary_eq_some stepped).2
    split at performed
    · rename_i some
      cases performed
      refine Or.inr (Or.inl ⟨not_woken_of_ne (by cases caller <;> nofun), ?_, ?_⟩)
      · exact (Nat.succ_pred_eq_of_pos some).symm
      · cases here : woken (op, .read caller) with
        | true => exact Or.inl rfl
        | false => exact Or.inr (by simp [claims, some, here])
    · cases performed
      exact Or.inl ⟨not_woken_of_ne (by cases caller <;> nofun), le_rfl⟩
  | register =>
    cases (ordinary_eq_some stepped).2
    exact Or.inl ⟨not_woken_of_ne nofun, le_rfl⟩
  | blocked point =>
    obtain ⟨result, waits, same⟩ := Option.map_eq_some_iff.mp stepped
    cases there : woken (op, moved) with
    | false =>
      refine Or.inl ⟨rfl, ?_⟩
      cases result <;> cases same <;> exact le_rfl
    | true =>
      obtain ⟨timed, arrived⟩ := Bool.and_eq_true_iff.mp there
      have arrived := of_decide_eq_true arrived
      simp only at timed arrived
      rcases result with next | _ | _
      · cases same
        cases arrived
      · cases same
        cases point <;> cases arrived
      · cases same
        exact Or.inr (Or.inr ⟨rfl, by simp [claims, timed, waits]⟩)
  | leave =>
    cases (ordinary_eq_some stepped).2
    exact Or.inl ⟨not_woken_of_ne nofun, le_rfl⟩

/-- The places of a timed wait are closed. -/
theorem inTimed_step (stepped : step choice memory pc = some (after, moved)) (inside : pc.inTimed = true) :
    moved.inTimed = true := by
  cases pc with
  | idle => cases stepped
  | read caller =>
    cases caller with
    | loop => cases inside
    | alone =>
      have performed := (ordinary_eq_some stepped).2
      split at performed <;> cases performed <;> rfl
  | blocked point =>
    obtain ⟨result, waits, same⟩ := Option.map_eq_some_iff.mp stepped
    cases result with
    | inl next =>
      cases same
      exact (PollPoint.timed_of_step waits).trans inside
    | inr readable =>
      cases same
      cases readable <;> cases point <;> first | rfl | cases inside
  | _ => cases inside

/-- **A timed wait fails with its poll, or finds no token after it.** -/
theorem failure_cases (stepped : step choice memory pc = some (after, moved)) (inside : pc.inTimed = true)
    (fail : fails op memory.counter pc moved = true) :
    failure choice memory.counter pc = .wait .expired ∨ failure choice memory.counter pc = .wait .failed ∨
      failure choice memory.counter pc = .attempt 0 ∧ memory.counter = 0 ∧ woken (op, pc) = true := by
  obtain ⟨returned, missed⟩ := Bool.and_eq_true_iff.mp fail
  obtain ⟨timed, left⟩ := Bool.and_eq_true_iff.mp returned
  have left := of_decide_eq_true left
  subst left
  cases pc with
  | idle => cases stepped
  | read caller =>
    cases caller with
    | loop => cases inside
    | alone =>
      have none : memory.counter = 0 := by simpa using missed
      exact Or.inr (Or.inr ⟨congrArg Failure.attempt none, none, by simp [woken, timed]⟩)
  | blocked point =>
    obtain ⟨result, waits, same⟩ := Option.map_eq_some_iff.mp stepped
    rcases result with next | _ | _
    · cases same
    · rcases PollPoint.late_of_step inside waits with rfl | rfl
      · exact Or.inl rfl
      · exact Or.inr (Or.inl rfl)
    · cases point <;> cases same
  | _ => cases inside

end Steps

/-- **A token for every woken timed wait.** -/
structure Sound (here : State Thread Memory Pc × History Thread) : Prop where
  tokens : count woken (places here) ≤ here.1.memory.counter
  standing : Standing here
  punctual : Punctual here.2

theorem sound_start (initiallySet : Bool) : Sound (recorded initiallySet Thread).start where
  tokens := by
    have nobody : count woken (places (recorded initiallySet Thread).start) = 0 :=
      Finset.sum_eq_zero fun _ _ => rfl
    rw [nobody]
    exact Nat.zero_le _
  standing _ timed := by cases timed
  punctual _ member := by cases member

/-- A thread that calls an operation is not woken. -/
theorem call_place {op : Op} {pc moved : Pc} (called : call op pc = some moved) :
    woken (some op, moved) = false ∧ (op.timed = true → moved.inTimed = true) := by
  unfold call at called
  split at called
  · cases called
    exact ⟨rfl, nofun⟩
  · cases called
    exact ⟨rfl, nofun⟩
  · cases called
    exact ⟨rfl, nofun⟩
  · rename_i positive
    cases called
    cases positive with
    | false => exact ⟨rfl, nofun⟩
    | true => exact ⟨rfl, fun _ => rfl⟩
  · cases called
    exact ⟨rfl, fun _ => rfl⟩
  · cases called

section Sound

variable {state : State Thread Memory Pc} {history : History Thread} {t : Thread} {moved : Pc}

theorem places_call (memory : Memory) (op : Op) :
    places (⟨memory, Function.update state.thread t moved⟩,
      { history with op := Function.update history.op t (some op) }) =
      Function.update (places (state, history)) t (some op, moved) := by
  funext u
  by_cases same : u = t
  · subst same
    simp [places]
  · simp [places, same]

/-- A step is noted beside the operations. -/
theorem note_op (choice : Choice) (after : State Thread Memory Pc) :
    (note state (.step t choice) after history).op = history.op := by
  simp only [note]
  split <;> rfl

theorem places_step (memory : Memory) (choice : Choice) (after : State Thread Memory Pc) :
    places (⟨memory, Function.update state.thread t moved⟩, note state (.step t choice) after history) =
      Function.update (places (state, history)) t (history.op t, moved) := by
  funext u
  by_cases same : u = t
  · subst same
    simp [places, note_op]
  · simp [places, note_op, same]

theorem Standing.call {op : Op} (standing : Standing (state, history))
    (called : call op (state.thread t) = some moved) :
    Standing (⟨state.memory, Function.update state.thread t moved⟩,
      { history with op := Function.update history.op t (some op) }) := by
  intro u timed
  by_cases same : u = t
  · subst same
    simp only [Function.update_self] at timed ⊢
    exact (call_place called).2 timed
  · simp only [Function.update_of_ne same] at timed ⊢
    exact standing u timed

theorem Standing.step {choice : Choice} {memory : Memory} (standing : Standing (state, history))
    (stepped : step choice state.memory (state.thread t) = some (memory, moved)) :
    Standing (⟨memory, Function.update state.thread t moved⟩,
      note state (.step t choice) ⟨memory, Function.update state.thread t moved⟩ history) := by
  intro u timed
  rw [note_op] at timed
  by_cases same : u = t
  · subst same
    simp only [Function.update_self]
    exact inTimed_step stepped (standing u timed)
  · simp only [Function.update_of_ne same]
    exact standing u timed

/-- What holds of the failures before a step and of the one that it adds. -/
theorem forall_failures_step {choice : Choice} {after : State Thread Memory Pc} {E : Failure Choice ℕ → Prop}
    (before : ∀ failure ∈ history.failures, E failure)
    (fresh : fails (history.op t) state.memory.counter (state.thread t) (after.thread t) = true →
      E (failure choice state.memory.counter (state.thread t))) :
    ∀ failure ∈ (note state (.step t choice) after history).failures, E failure := by
  intro failure member
  simp only [note] at member
  split at member
  · rename_i fail
    rcases List.mem_cons.mp member with rfl | earlier
    · exact fresh fail
    · exact before failure earlier
  · exact before failure member

theorem timed_of_fails {op : Option Op} {counter : ℕ} {pc after : Pc} (fail : fails op counter pc after = true) :
    op.any Op.timed = true :=
  (Bool.and_eq_true_iff.mp (Bool.and_eq_true_iff.mp fail).1).1

theorem Sound.call {op : Op} (sound : Sound (state, history)) (called : call op (state.thread t) = some moved) :
    Sound (⟨state.memory, Function.update state.thread t moved⟩,
      { history with op := Function.update history.op t (some op) }) := by
  refine ⟨?_, sound.standing.call called, sound.punctual⟩
  have change := count_update woken (places (state, history)) t (some op, moved)
  rw [(call_place called).1, Bool.toNat_false] at change
  rw [places_call]
  exact le_trans (Nat.le_of_add_right_le (le_of_eq change)) sound.tokens

/-- A woken timed wait has a token. -/
theorem Sound.positive (sound : Sound (state, history))
    (here : woken (history.op t, state.thread t) = true) : 0 < state.memory.counter := by
  have there : woken (places (state, history) t) = true := here
  exact lt_of_lt_of_le (count_pos there) sound.tokens

variable {choice : Choice} {memory : Memory}

theorem Sound.tokens_step (sound : Sound (state, history)) (spared : Spared (state, history) (.step t choice))
    (stepped : step choice state.memory (state.thread t) = some (memory, moved)) :
    count woken (Function.update (places (state, history)) t (history.op t, moved)) ≤ memory.counter := by
  have tokens : count woken (places (state, history)) ≤ state.memory.counter := sound.tokens
  have change : count woken (Function.update (places (state, history)) t (history.op t, moved)) +
      (woken (history.op t, state.thread t)).toNat = _ :=
    count_update woken (places (state, history)) t (history.op t, moved)
  have more : claims choice state.memory.counter (history.op t) (state.thread t) = true →
    count woken (places (state, history)) < state.memory.counter := spared
  rcases woken_step (history.op t) stepped with ⟨away, kept⟩ | ⟨away, took, owner⟩ | ⟨kept, claimed⟩
  · rw [away, Bool.toNat_false] at change
    omega
  · rw [away, Bool.toNat_false] at change
    rcases owner with here | claimed
    · rw [here, Bool.toNat_true] at change
      omega
    · have := more claimed
      omega
  · have := more claimed
    have := Bool.toNat_le (woken (history.op t, moved))
    omega

theorem Sound.step (sound : Sound (state, history)) (spared : Spared (state, history) (.step t choice))
    (stepped : step choice state.memory (state.thread t) = some (memory, moved)) :
    Sound (⟨memory, Function.update state.thread t moved⟩,
      note state (.step t choice) ⟨memory, Function.update state.thread t moved⟩ history) := by
  refine ⟨?_, sound.standing.step stepped, forall_failures_step sound.punctual fun fail => ?_⟩
  · rw [places_step]
    exact sound.tokens_step spared stepped
  · simp only [Function.update_self] at fail
    have inside := sound.standing t (timed_of_fails fail)
    rcases failure_cases stepped inside fail with late | late | ⟨-, none, woke⟩
    · exact Or.inl late
    · exact Or.inr late
    · have some := sound.positive woke
      omega

end Sound

/-- A step that spares the woken timed waits. -/
theorem Sound.next {initiallySet : Bool} {here after : State Thread Memory Pc × History Thread}
    {action : Action Thread Op Choice} (sound : Sound here) (spared : Spared here action)
    (taken : (recorded initiallySet Thread).next here action = some after) : Sound after := by
  obtain ⟨state, history⟩ := here
  rcases program_silent.record_cases taken with ⟨t, op, place, rfl, called, rfl⟩ |
    ⟨t, choice, memory, place, rfl, stepped, rfl⟩
  · exact sound.call called
  · exact sound.step spared stepped

/-- **Every failure is explained.** -/
theorem explained_of_reachable {initiallySet : Bool} {here : State Thread Memory Pc × History Thread}
    (reached : (recorded initiallySet Thread).Reachable here) : Explained here.2 := by
  have start : Standing (recorded initiallySet Thread).start ∧ Explained (recorded initiallySet Thread).start.2 :=
    ⟨(sound_start initiallySet).standing, fun _ member => by cases member⟩
  refine (reached.invariant (P := fun here => Standing here ∧ Explained here.2) start ?_).2
  rintro ⟨state, history⟩ action _ - ⟨standing, explained⟩ - taken
  rcases program_silent.record_cases taken with ⟨t, op, place, rfl, called, rfl⟩ |
    ⟨t, choice, memory, place, rfl, stepped, rfl⟩
  · exact ⟨standing.call called, explained⟩
  · refine ⟨standing.step stepped, forall_failures_step explained fun fail => ?_⟩
    simp only [Function.update_self] at fail
    have inside := standing t (timed_of_fails fail)
    exact (failure_cases stepped inside fail).imp_right (Or.imp_right And.left)

section Lost

variable {initiallySet : Bool} {state : State Thread Memory Pc} {history : History Thread} {t : Thread}

/-- **A timed wait is lost**: there are fewer tokens than woken timed waits. -/
def Lost (here : State Thread Memory Pc × History Thread) : Prop :=
  here.1.memory.counter < count woken (places here)

/-- A step that claims a token wakes a timed wait, or takes the token. -/
theorem claims_step {choice : Choice} {memory after : Memory} {op : Option Op} {pc moved : Pc}
    (stepped : step choice memory pc = some (after, moved)) (inside : op.any Op.timed = true → pc.inTimed = true)
    (claimed : claims choice memory.counter op pc = true) :
    woken (op, pc) = false ∧ (woken (op, moved) = true ∧ after.counter = memory.counter ∨
      woken (op, moved) = false ∧ after.counter + 1 = memory.counter) := by
  cases pc with
  | read caller =>
    obtain ⟨some, asleep⟩ := Bool.and_eq_true_iff.mp claimed
    have performed := (ordinary_eq_some stepped).2
    rw [if_pos (of_decide_eq_true some)] at performed
    cases performed
    refine ⟨by simpa using asleep, Or.inr ⟨not_woken_of_ne (by cases caller <;> nofun), ?_⟩⟩
    exact Nat.succ_pred_eq_of_pos (of_decide_eq_true some)
  | blocked point =>
    obtain ⟨timed, ready⟩ := Bool.and_eq_true_iff.mp claimed
    have waits : point.step choice memory.counter = _ := of_decide_eq_true ready
    have own : point.timed = true := inside timed
    simp only [step, waits, Option.map_some, Option.some.injEq] at stepped
    cases stepped
    refine ⟨not_woken_of_ne nofun, Or.inl ⟨?_, rfl⟩⟩
    cases point with
    | poll => cases own
    | _ => simp [woken, timed, polled]
  | _ => cases claimed

/-- A step that does not spare the woken timed waits loses one. -/
theorem lost_of_not_spared (sound : Sound (state, history)) {action : Action Thread Op Choice}
    {after : State Thread Memory Pc × History Thread}
    (taken : (recorded initiallySet Thread).next (state, history) action = some after)
    (hurts : ¬ Spared (state, history) action) : Lost after := by
  rcases program_silent.record_cases taken with ⟨t, op, place, rfl, called, rfl⟩ |
    ⟨t, choice, memory, place, rfl, stepped, rfl⟩
  · exact absurd trivial hurts
  · simp only [Spared] at hurts
    push Not at hurts
    obtain ⟨claimed, few⟩ := hurts
    have few : state.memory.counter ≤ count woken (places (state, history)) := few
    have stepped : step choice state.memory (state.thread t) = some (memory, place) := stepped
    obtain ⟨asleep, effect⟩ := claims_step stepped (sound.standing t) claimed
    have change : count woken (Function.update (places (state, history)) t (history.op t, place)) +
        (woken (history.op t, state.thread t)).toNat = _ :=
      count_update woken (places (state, history)) t (history.op t, place)
    rw [asleep, Bool.toNat_false] at change
    show memory.counter < count woken (places _)
    rw [places_step]
    show memory.counter < count woken (Function.update (places (state, history)) t (history.op t, place))
    rcases effect with ⟨there, kept⟩ | ⟨there, took⟩
    · rw [there, Bool.toNat_true] at change
      omega
    · rw [there, Bool.toNat_false] at change
      omega

/-- **A lost timed wait fails**, if the woken ones go on. -/
theorem exists_failure {here : State Thread Memory Pc × History Thread} (lost : Lost here) :
    ∃ later, ((recorded initiallySet Thread).resume here).Reachable later ∧ ¬ Punctual later.2 := by
  generalize tokens : here.1.memory.counter = n
  induction n generalizing here with
  | zero =>
    obtain ⟨state, history⟩ := here
    obtain ⟨t, woke⟩ := exists_of_count_pos (lt_of_le_of_lt (Nat.zero_le _) lost)
    obtain ⟨timed, place⟩ := Bool.and_eq_true_iff.mp woke
    have place : state.thread t = .read .alone := of_decide_eq_true place
    have empty : ¬ 0 < state.memory.counter := by
      simp only at tokens
      omega
    have stepped : step .go state.memory (state.thread t) = some (state.memory, .idle) := by
      rw [place]
      exact congrArg some (if_neg empty)
    have leaves : (recorded initiallySet Thread).next (state, history) (.step t .go) = some _ :=
      Program.record_step stepped
    refine ⟨_, System.Reach.start.step trivial leaves, fun punctual => ?_⟩
    have failed : fails (history.op t) state.memory.counter (state.thread t) .idle = true := by
      have timed : (history.op t).any Op.timed = true := timed
      simp [fails, timed, empty]
    have attempt : failure .go state.memory.counter (state.thread t) = .attempt state.memory.counter := by
      rw [place]
      rfl
    have late := punctual (.attempt state.memory.counter) (by simp [note, failed, attempt])
    rcases late with late | late <;> cases late
  | succ n ih =>
    obtain ⟨state, history⟩ := here
    obtain ⟨t, woke⟩ := exists_of_count_pos (lt_of_le_of_lt (Nat.zero_le _) lost)
    have place : state.thread t = .read .alone := of_decide_eq_true (Bool.and_eq_true_iff.mp woke).2
    have some : 0 < state.memory.counter := by
      simp only at tokens
      omega
    have stepped : step .go state.memory (state.thread t) = Option.some (state.memory.take, .idle) := by
      rw [place]
      exact congrArg Option.some (if_pos some)
    have away : woken (history.op t, Pc.idle) = false := not_woken_of_ne nofun
    have fewer : count woken (Function.update (places (state, history)) t (history.op t, Pc.idle)) + 1 =
        count woken (places (state, history)) := count_update_leave woke away
    have takes : (recorded initiallySet Thread).next (state, history) (.step t .go) = Option.some _ :=
      Program.record_step stepped
    have first : ((recorded initiallySet Thread).resume (state, history)).Reachable _ :=
      System.Reach.start.step trivial takes
    have short : Lost (⟨state.memory.take, Function.update state.thread t .idle⟩,
        note state (.step t .go) ⟨state.memory.take, Function.update state.thread t .idle⟩ history) := by
      have few : state.memory.counter < count woken (places (state, history)) := lost
      show state.memory.counter - 1 < count woken (places _)
      rw [places_step]
      show state.memory.counter - 1 <
        count woken (Function.update (places (state, history)) t (history.op t, Pc.idle))
      omega
    obtain ⟨later, reached, failed⟩ := ih short (Nat.sub_eq_of_eq_add tokens)
    exact ⟨later, first.resume reached, failed⟩

end Lost

/-- **On Linux** a token for every woken timed wait is a sharp condition. -/
theorem sharp (initiallySet : Bool) :
    (recorded initiallySet Thread).Sharp (fun _ => True) Spared fun here => Punctual here.2 :=
  .of_invariant (sound_start initiallySet) (fun _ _ _ sound _ spared taken => sound.next spared taken)
    (fun _ sound => sound.punctual) (fun _ _ _ _ sound hurts taken => lost_of_not_spared sound taken hurts)
    fun _ => exists_failure

end NovaSync.NativeAutoResetEventEventfd

/-! ### Apple -/

namespace NovaSync.NativeAutoResetEventKqueue

open Concurrency Detail
open NativeAutoResetEventTimeouts (Failure)

/-- `try_wait_until` reads the clock once, and goes on as `try_wait_for` with the time that is left. -/
def tryWaitUntil (future : Bool) : Op := .tryWaitFor future

/-- A timed wait comes to return `false`: with `kevent_for`, or with its `try_wait` after it. -/
def fails (pc after : Pc) : Bool :=
  decide (after = .leave) && match pc with
    | .keventFor _ | .tryLoad (.after true) | .tryCas (.after true) _ => true
    | _ => false

def failure (choice : Choice ⊕ Kevent) (token : ℤ) : Pc → Failure (Choice ⊕ Kevent) ℤ
  | .keventFor _ => .wait choice
  | _ => .attempt token

/-- A timed wait whose `kevent_for` has returned an event, in its `try_wait`. -/
def woken : Pc → Bool
  | .tryLoad (.after true) | .tryCas (.after true) _ => true
  | _ => false

/-- The step wakes a timed wait, or takes a token for another thread than a woken timed wait. -/
def claims (choice : Choice ⊕ Kevent) (memory : Memory) : Pc → Bool
  | .keventFor point => decide ((point.step choice memory.queue).map Prod.snd = some (.inr true))
  | .tryCas caller s => !woken (.tryCas caller s) && decide (choice = .inl .go ∧ memory.token = s.1)
  | _ => false

variable {Thread : Type*} [DecidableEq Thread] [Fintype Thread]

abbrev Failures := List (Failure (Choice ⊕ Kevent) ℤ)

/-- Why timed waits have failed. -/
def note (state : State Thread Memory Pc) (action : Action Thread Op (Choice ⊕ Kevent))
    (after : State Thread Memory Pc) (failures : Failures) : Failures :=
  match action with
  | .step t choice =>
      if fails (state.thread t) (after.thread t) then
        failure choice state.memory.token (state.thread t) :: failures
      else failures
  | .call _ _ | .wake _ _ => failures

abbrev recorded (initiallySet : Bool) (Thread : Type*) [DecidableEq Thread] [Fintype Thread] :
    System (State Thread Memory Pc × Failures) (Action Thread Op (Choice ⊕ Kevent)) :=
  (system initiallySet Thread).record [] note

/-- **Timed waits fail by a timeout or an error.** -/
def Punctual (failures : Failures) : Prop :=
  ∀ failure ∈ failures, failure = .wait (.inl .expired) ∨ failure = .wait (.inr .expired) ∨
    failure = .wait (.inr .failed)

/-- **Timed waits fail by a timeout or an error, or find no token** when they have been woken. -/
def Explained (failures : Failures) : Prop :=
  ∀ failure ∈ failures, (failure = .wait (.inl .expired) ∨ failure = .wait (.inr .expired) ∨
    failure = .wait (.inr .failed)) ∨ ∃ tokens ≤ 0, failure = .attempt tokens

/-- **Tokens for the woken timed waits**: a step that claims a token finds more of them, and a `signal` does not
overflow `token_count_` beside a woken timed wait. -/
def Spared (here : State Thread Memory Pc × Failures) :
    Action Thread Op (Choice ⊕ Kevent) → Prop
  | .step t choice =>
      (claims choice here.1.memory (here.1.thread t) = true →
        (count woken here.1.thread : ℤ) < here.1.memory.token) ∧
      (here.1.thread t = .signalAdd → count woken here.1.thread = 0 ∨ here.1.memory.token + 1 < 2 ^ 31)
  | .call _ _ | .wake _ _ => True

instance (here : State Thread Memory Pc × Failures) :
    @DecidablePred (Action Thread Op (Choice ⊕ Kevent)) (Spared here)
  | .step _ _ => inferInstanceAs (Decidable ((_ → _) ∧ (_ → _)))
  | .call _ _ | .wake _ _ => inferInstanceAs (Decidable True)

section Steps

variable {choice : Choice ⊕ Kevent} {memory after : Memory} {pc moved : Pc}

/-- A loop test of `try_wait` is of a woken timed wait where its caller is one that finds a token. -/
theorem woken_tryLoop {caller : Caller} {token : ℤ} (there : woken (tryLoop caller token) = true) :
    woken (.tryLoad caller) = true ∧ 0 < token := by
  unfold tryLoop at there
  split at there
  · rename_i some
    rcases caller with _ | timed | timed | (_ | _)
    all_goals first | exact ⟨rfl, some⟩ | cases there
  · rcases caller with _ | timed | (_ | _) | (_ | _) <;> cases there

/-- **Tokens and woken timed waits, step by step**: a thread that is not woken by the step finds as many tokens
after it, or has taken one that it was woken for or claims; a thread that is woken claims one. -/
theorem woken_atomicStep {action : Choice}
    (stepped : atomicStep action memory pc = some (after, moved)) :
    (after.token = memory.token ∧ (woken moved = true → woken pc = true)) ∨
    (woken moved = false ∧ after.token = memory.token - 1 ∧
      (woken pc = true ∨ claims (.inl action) memory pc = true)) ∨
    (woken moved = false ∧ woken pc = false ∧
      (pc = .signalAdd ∧ after.token = int32 (memory.token + 1) ∨ memory.token = 0 ∧ after.token = 1)) := by
  cases pc with
  | idle | kevent | keventFor => cases stepped
  | signalLoad =>
    cases (ordinary_eq_some stepped).2
    refine Or.inl ⟨rfl, ?_⟩
    split <;> nofun
  | signalCas =>
    rcases compareExchangeStrong_cases stepped with ⟨-, found, same⟩ | ⟨-, same⟩
    · cases same
      exact Or.inr (Or.inr ⟨rfl, rfl, Or.inr ⟨found, rfl⟩⟩)
    · cases same
      exact Or.inl ⟨rfl, nofun⟩
  | signalAdd =>
    cases (ordinary_eq_some stepped).2
    refine Or.inr (Or.inr ⟨?_, rfl, Or.inl ⟨rfl, rfl⟩⟩)
    split <;> rfl
  | tryLoad caller =>
    cases (ordinary_eq_some stepped).2
    exact Or.inl ⟨rfl, fun there => (woken_tryLoop there).1⟩
  | tryCas caller s =>
    rcases compareExchangeWeak_cases stepped with ⟨went, found, same⟩ | ⟨-, same⟩
    · cases same
      refine Or.inr (Or.inl ⟨?_, by rw [found], ?_⟩)
      · rcases caller with _ | _ | _ | _ <;> rfl
      · cases here : woken (.tryCas caller s) with
        | true => exact Or.inl rfl
        | false => exact Or.inr (by simp [claims, here, went, found])
    · cases same
      refine Or.inl ⟨rfl, fun there => ?_⟩
      have own := (woken_tryLoop there).1
      rcases caller with _ | timed | timed | (_ | _) <;> first | rfl | cases own
  | chainToken woken =>
    cases (ordinary_eq_some stepped).2
    refine Or.inl ⟨rfl, ?_⟩
    split <;> nofun
  | chainCount woken =>
    cases (ordinary_eq_some stepped).2
    refine Or.inl ⟨rfl, ?_⟩
    split <;> nofun
  | trigger | register | chainTrigger | leave =>
    cases (ordinary_eq_some stepped).2
    exact Or.inl ⟨rfl, nofun⟩

/-- An atomic operation is the program's own choice. -/
theorem exists_atomicStep (stepped : choice.getLeft?.bind (atomicStep · memory pc) = some (after, moved)) :
    ∃ action, choice = .inl action ∧ atomicStep action memory pc = some (after, moved) := by
  obtain ⟨action, went, performed⟩ := Option.bind_eq_some_iff.mp stepped
  exact ⟨action, Sum.getLeft?_eq_some_iff.mp went, performed⟩

/-- The same for every step. -/
theorem woken_step (stepped : step choice memory pc = some (after, moved)) :
    (after.token = memory.token ∧
      ((woken moved = true → woken pc = true) ∨ claims choice memory pc = true)) ∨
    (woken moved = false ∧ after.token = memory.token - 1 ∧
      (woken pc = true ∨ claims choice memory pc = true)) ∨
    (woken moved = false ∧ woken pc = false ∧
      (pc = .signalAdd ∧ after.token = int32 (memory.token + 1) ∨ memory.token = 0 ∧ after.token = 1)) := by
  cases pc with
  | kevent =>
    obtain ⟨outcome, -, called⟩ := Option.bind_eq_some_iff.mp stepped
    obtain ⟨queue, -, same⟩ := Option.map_eq_some_iff.mp called
    cases same
    exact Or.inl ⟨rfl, Or.inl nofun⟩
  | keventFor point =>
    obtain ⟨⟨queue, result⟩, waits, same⟩ := Option.map_eq_some_iff.mp stepped
    rcases result with next | _ | _
    · cases same
      exact Or.inl ⟨rfl, Or.inl nofun⟩
    · cases same
      exact Or.inl ⟨rfl, Or.inl nofun⟩
    · cases same
      exact Or.inl ⟨rfl, Or.inr (by simp [claims, waits])⟩
  | _ =>
    obtain ⟨action, rfl, performed⟩ := exists_atomicStep stepped
    rcases woken_atomicStep performed with ⟨same, own⟩ | rest
    · exact Or.inl ⟨same, Or.inl own⟩
    · exact Or.inr rest

theorem tryLoop_ne_leave {caller : Caller} {token : ℤ} (some : 0 < token) : tryLoop caller token ≠ .leave := by
  simp [tryLoop, some]

/-- **A timed wait fails with its `kevent_for`, or finds no token after it.** -/
theorem failure_cases (stepped : step choice memory pc = some (after, moved)) (fail : fails pc moved = true) :
    (failure choice memory.token pc = .wait (.inl .expired) ∨
      failure choice memory.token pc = .wait (.inr .expired) ∨
      failure choice memory.token pc = .wait (.inr .failed)) ∨
    failure choice memory.token pc = .attempt memory.token ∧ memory.token ≤ 0 ∧ woken pc = true := by
  obtain ⟨left, timed⟩ := Bool.and_eq_true_iff.mp fail
  have left := of_decide_eq_true left
  subst left
  split at timed
  · obtain ⟨⟨queue, result⟩, waits, same⟩ := Option.map_eq_some_iff.mp stepped
    rcases result with next | _ | _
    · cases same
    · have late := KeventFor.late_of_step waits
      exact Or.inl (late.imp (congrArg _) (Or.imp (congrArg _) (congrArg _)))
    · cases same
  · obtain ⟨action, -, performed⟩ := exists_atomicStep stepped
    have there := congrArg Prod.snd (ordinary_eq_some performed).2
    exact Or.inr ⟨rfl, not_lt.mp fun some => tryLoop_ne_leave some there.symm, rfl⟩
  · obtain ⟨action, -, performed⟩ := exists_atomicStep stepped
    rcases compareExchangeWeak_cases performed with ⟨-, -, same⟩ | ⟨-, same⟩
    · cases same
    · have there := congrArg Prod.snd same
      exact Or.inr ⟨rfl, not_lt.mp fun some => tryLoop_ne_leave some there.symm, rfl⟩
  · cases timed

end Steps

/-- **A token for every woken timed wait.** -/
structure Sound (here : State Thread Memory Pc × Failures) : Prop where
  tokens : 0 < count woken here.1.thread → (count woken here.1.thread : ℤ) ≤ here.1.memory.token
  punctual : Punctual here.2

theorem sound_start (initiallySet : Bool) : Sound (recorded initiallySet Thread).start where
  tokens some := by
    have nobody : count woken (recorded initiallySet Thread).start.1.thread = 0 := count_const rfl
    rw [nobody] at some
    cases some
  punctual _ member := by cases member

theorem call_asleep {op : Op} {pc moved : Pc} (called : call op pc = some moved) :
    woken pc = false ∧ woken moved = false := by
  unfold call at called
  split at called
  · cases called
    exact ⟨rfl, rfl⟩
  · cases called
    exact ⟨rfl, rfl⟩
  · cases called
    exact ⟨rfl, rfl⟩
  · cases called
    refine ⟨rfl, ?_⟩
    split <;> rfl
  · cases called

section Sound

variable {state : State Thread Memory Pc} {failures : Failures} {t : Thread} {moved : Pc}

/-- What holds of the failures before a step and of the one that it adds. -/
theorem forall_failures_step {choice : Choice ⊕ Kevent} {after : State Thread Memory Pc}
    {E : Failure (Choice ⊕ Kevent) ℤ → Prop} (before : ∀ failure ∈ failures, E failure)
    (fresh : fails (state.thread t) (after.thread t) = true →
      E (failure choice state.memory.token (state.thread t))) :
    ∀ failure ∈ note state (.step t choice) after failures, E failure := by
  intro failure member
  simp only [note] at member
  split at member
  · rename_i fail
    rcases List.mem_cons.mp member with rfl | earlier
    · exact fresh fail
    · exact before failure earlier
  · exact before failure member

theorem Sound.positive (sound : Sound (state, failures)) (here : woken (state.thread t) = true) :
    0 < state.memory.token := by
  have some : 0 < count woken state.thread := count_pos here
  have enough : (count woken state.thread : ℤ) ≤ state.memory.token := sound.tokens some
  omega

theorem Sound.call {op : Op} (sound : Sound (state, failures))
    (called : call op (state.thread t) = some moved) :
    Sound (⟨state.memory, Function.update state.thread t moved⟩, failures) := by
  obtain ⟨before, after⟩ := call_asleep called
  refine ⟨?_, sound.punctual⟩
  show 0 < count woken (Function.update state.thread t moved) → _
  rw [count_update_same (after.trans before.symm)]
  exact sound.tokens

variable {choice : Choice ⊕ Kevent} {memory : Memory}

theorem Sound.tokens_step (sound : Sound (state, failures)) (spared : Spared (state, failures) (.step t choice))
    (stepped : step choice state.memory (state.thread t) = some (memory, moved))
    (some : 0 < count woken (Function.update state.thread t moved)) :
    (count woken (Function.update state.thread t moved) : ℤ) ≤ memory.token := by
  have tokens : 0 < count woken state.thread → (count woken state.thread : ℤ) ≤ state.memory.token :=
    sound.tokens
  have change := count_update woken state.thread t moved
  have more : claims choice state.memory (state.thread t) = true →
    (count woken state.thread : ℤ) < state.memory.token := spared.1
  have room : state.thread t = .signalAdd →
    count woken state.thread = 0 ∨ state.memory.token + 1 < 2 ^ 31 := spared.2
  rcases woken_step stepped with ⟨same, own | claimed⟩ | ⟨away, took, owner⟩ | ⟨away, before, brought⟩
  · have less : (woken moved).toNat ≤ (woken (state.thread t)).toNat := Bool.toNat_le_toNat own
    rw [same]
    omega
  · have := more claimed
    have := Bool.toNat_le (woken moved)
    rw [same]
    omega
  · rw [away, Bool.toNat_false] at change
    rw [took]
    rcases owner with here | claimed
    · rw [here, Bool.toNat_true] at change
      omega
    · have := more claimed
      omega
  · rw [away, before] at change
    have enough := tokens (by omega)
    rcases brought with ⟨here, added⟩ | ⟨none, -⟩
    · rcases room here with nobody | small
      · omega
      · rw [added, int32_eq_self ⟨by omega, small⟩]
        omega
    · omega

theorem Sound.step (sound : Sound (state, failures)) (spared : Spared (state, failures) (.step t choice))
    (stepped : step choice state.memory (state.thread t) = some (memory, moved)) :
    Sound (⟨memory, Function.update state.thread t moved⟩,
      note state (.step t choice) ⟨memory, Function.update state.thread t moved⟩ failures) := by
  refine ⟨sound.tokens_step spared stepped, forall_failures_step sound.punctual fun fail => ?_⟩
  simp only [Function.update_self] at fail
  rcases failure_cases stepped fail with late | ⟨-, none, woke⟩
  · exact late
  · exact absurd (sound.positive woke) (not_lt.mpr none)

end Sound

/-- A step that spares the woken timed waits. -/
theorem Sound.next {initiallySet : Bool} {here after : State Thread Memory Pc × Failures}
    {action : Action Thread Op (Choice ⊕ Kevent)} (sound : Sound here) (spared : Spared here action)
    (taken : (recorded initiallySet Thread).next here action = some after) : Sound after := by
  obtain ⟨state, failures⟩ := here
  rcases program_silent.record_cases taken with ⟨t, op, place, rfl, called, rfl⟩ |
    ⟨t, choice, memory, place, rfl, stepped, rfl⟩
  · exact sound.call called
  · exact sound.step spared stepped

/-- **Every failure is explained.** -/
theorem explained_of_reachable {initiallySet : Bool} {here : State Thread Memory Pc × Failures}
    (reached : (recorded initiallySet Thread).Reachable here) : Explained here.2 := by
  refine reached.invariant (P := fun here => Explained here.2) (fun _ member => by cases member) ?_
  rintro ⟨state, failures⟩ action _ - explained - taken
  rcases program_silent.record_cases taken with ⟨t, op, place, rfl, called, rfl⟩ |
    ⟨t, choice, memory, place, rfl, stepped, rfl⟩
  · exact explained
  · refine forall_failures_step explained fun fail => ?_
    simp only [Function.update_self] at fail
    exact (failure_cases stepped fail).imp_right fun empty => ⟨_, empty.2.1, empty.1⟩

section Lost

variable {initiallySet : Bool} {state : State Thread Memory Pc} {failures : Failures} {t : Thread}

/-- **A timed wait is lost**: there are fewer tokens than woken timed waits. -/
def Lost (here : State Thread Memory Pc × Failures) : Prop :=
  0 < count woken here.1.thread ∧ here.1.memory.token < count woken here.1.thread

/-- An exchange of the expected tokens. -/
theorem step_tryCas {memory : Memory} {caller : Caller} {s : {s : ℤ // 0 < s}} (found : memory.token = s.1) :
    step (.inl .go) memory (.tryCas caller s) =
      some ({ memory with token := s.1 - 1 }, NativeAutoResetEventKqueue.taken caller) := by
  simp [step, atomicStep, compareExchangeWeak, ordinary, found]

/-- A step that claims a token wakes a timed wait, or takes the token. -/
theorem claims_step {choice : Choice ⊕ Kevent} {memory after : Memory} {pc moved : Pc}
    (stepped : step choice memory pc = some (after, moved)) (claimed : claims choice memory pc = true) :
    woken pc = false ∧ (woken moved = true ∧ after.token = memory.token ∨
      woken moved = false ∧ after.token = memory.token - 1 ∧ 0 < memory.token) := by
  cases pc with
  | keventFor point =>
    obtain ⟨⟨queue, result⟩, waits, same⟩ := Option.map_eq_some_iff.mp stepped
    simp only [claims, waits, Option.map_some, decide_eq_true_eq, Option.some.injEq] at claimed
    subst claimed
    cases same
    exact ⟨rfl, Or.inl ⟨rfl, rfl⟩⟩
  | tryCas caller s =>
    obtain ⟨asleep, exchanges⟩ := Bool.and_eq_true_iff.mp claimed
    obtain ⟨rfl, found⟩ := of_decide_eq_true exchanges
    rw [step_tryCas found] at stepped
    cases stepped
    refine ⟨by simpa using asleep, Or.inr ⟨?_, by rw [found], by rw [found]; exact s.2⟩⟩
    rcases caller with _ | _ | _ | _ <;> rfl
  | _ => cases claimed

/-- A step that does not spare the woken timed waits loses one. -/
theorem lost_of_not_spared (range : InInt32 state.memory.token) {action : Action Thread Op (Choice ⊕ Kevent)}
    {after : State Thread Memory Pc × Failures}
    (taken : (recorded initiallySet Thread).next (state, failures) action = some after)
    (hurts : ¬ Spared (state, failures) action) : Lost after := by
  rcases program_silent.record_cases taken with ⟨t, op, place, rfl, called, rfl⟩ |
    ⟨t, choice, memory, place, rfl, stepped, rfl⟩
  · exact absurd trivial hurts
  · have stepped : step choice state.memory (state.thread t) = some (memory, place) := stepped
    have change := count_update woken state.thread t place
    show 0 < count woken (Function.update state.thread t place) ∧
      memory.token < count woken (Function.update state.thread t place)
    rw [Spared, not_and_or, Classical.not_imp, Classical.not_imp, not_lt, not_or, not_lt] at hurts
    rcases hurts with ⟨claimed, few⟩ | ⟨here, several, full⟩
    · have few : state.memory.token ≤ count woken state.thread := few
      obtain ⟨asleep, effect⟩ := claims_step stepped claimed
      rw [asleep, Bool.toNat_false] at change
      rcases effect with ⟨there, kept⟩ | ⟨there, took, some⟩
      · rw [there, Bool.toNat_true] at change
        omega
      · rw [there, Bool.toNat_false] at change
        omega
    · have here : state.thread t = .signalAdd := here
      have several : count woken state.thread ≠ 0 := several
      have full : 2 ^ 31 ≤ state.memory.token + 1 := full
      rw [here] at stepped change
      obtain ⟨action, -, performed⟩ := exists_atomicStep stepped
      have result := (ordinary_eq_some performed).2
      have token : memory.token = int32 (state.memory.token + 1) := congrArg (fun after => after.1.token) result
      have moves : place = if state.memory.token = 0 then Pc.trigger else Pc.idle := congrArg Prod.snd result
      have asleep : woken place = false := by
        rw [moves]
        split <;> rfl
      have wrapped : int32 (state.memory.token + 1) < 0 := by
        have most : state.memory.token + 1 = 2 ^ 31 := by
          have := range.2
          omega
        rw [most]
        decide
      rw [asleep] at change
      have same : count woken (Function.update state.thread t place) = count woken state.thread := change
      omega

/-- A woken timed wait that finds no token. -/
theorem exists_leave {memory : Memory} {pc : Pc} (woke : woken pc = true) (none : memory.token ≤ 0) :
    ∃ action, step (.inl action) memory pc = some (memory, .leave) ∧ fails pc .leave = true ∧
      failure (.inl action) memory.token pc = .attempt memory.token := by
  have missed : tryLoop (.after true) memory.token = .leave := dif_neg (not_lt.mpr none)
  unfold woken at woke
  split at woke
  · refine ⟨.go, ?_, rfl, rfl⟩
    show some (memory, tryLoop (.after true) memory.token) = _
    rw [missed]
  · refine ⟨.spurious, ?_, rfl, rfl⟩
    show some (memory, tryLoop (.after true) memory.token) = _
    rw [missed]
  · cases woke

/-- A woken timed wait that finds a token comes to its exchange, and takes it. -/
theorem exists_tryCas {memory : Memory} {pc : Pc} (woke : woken pc = true) (some : 0 < memory.token) :
    ∃ action, step (.inl action) memory pc =
      Option.some (memory, .tryCas (.after true) ⟨memory.token, some⟩) := by
  have found : tryLoop (.after true) memory.token = .tryCas (.after true) ⟨memory.token, some⟩ := dif_pos some
  unfold woken at woke
  split at woke
  · refine ⟨.go, ?_⟩
    show Option.some (memory, tryLoop (.after true) memory.token) = _
    rw [found]
  · refine ⟨.spurious, ?_⟩
    show Option.some (memory, tryLoop (.after true) memory.token) = _
    rw [found]
  · cases woke

/-- **A lost timed wait fails**, if the woken ones go on. -/
theorem exists_failure {here : State Thread Memory Pc × Failures} (lost : Lost here) :
    ∃ later, ((recorded initiallySet Thread).resume here).Reachable later ∧ ¬ Punctual later.2 := by
  generalize tokens : here.1.memory.token.toNat = n
  induction n generalizing here with
  | zero =>
    obtain ⟨state, failures⟩ := here
    obtain ⟨t, woke⟩ := exists_of_count_pos lost.1
    obtain ⟨action, stepped, failed, attempt⟩ := exists_leave woke (Int.toNat_eq_zero.mp tokens)
    have leaves : (recorded initiallySet Thread).next (state, failures) (.step t (.inl action)) = some _ :=
      Program.record_step stepped
    refine ⟨_, System.Reach.start.step trivial leaves, fun punctual => ?_⟩
    have late := punctual (.attempt state.memory.token) (by simp [note, failed, attempt])
    rcases late with late | late | late <;> cases late
  | succ n ih =>
    obtain ⟨state, failures⟩ := here
    obtain ⟨t, woke⟩ := exists_of_count_pos lost.1
    have some : 0 < state.memory.token := by
      simp only at tokens
      omega
    obtain ⟨action, loads⟩ := exists_tryCas woke some
    have loaded : (recorded initiallySet Thread).next (state, failures) (.step t (.inl action)) =
        Option.some _ := Program.record_step loads
    have first : ((recorded initiallySet Thread).resume (state, failures)).Reachable _ :=
      System.Reach.start.step trivial loaded
    have exchanges : step (.inl .go) state.memory (Function.update state.thread t
        (.tryCas (.after true) ⟨state.memory.token, some⟩) t) =
        Option.some ({ state.memory with token := state.memory.token - 1 }, .chainToken true) := by
      rw [Function.update_self]
      exact step_tryCas rfl
    have exchanged (failures : Failures) : (recorded initiallySet Thread).next
        (⟨state.memory, Function.update state.thread t (.tryCas (.after true) ⟨state.memory.token, some⟩)⟩,
          failures) (.step t (.inl .go)) = Option.some _ := Program.record_step exchanges
    have second := first.step trivial (exchanged _)
    rw [Function.update_idem] at second
    have fewer : count woken (Function.update state.thread t (.chainToken true)) + 1 =
        count woken state.thread := count_update_leave woke rfl
    have few : state.memory.token < count woken state.thread := lost.2
    have short : ∀ failures : Failures,
        Lost (⟨{ state.memory with token := state.memory.token - 1 },
          Function.update state.thread t (.chainToken true)⟩, failures) := fun _ => by
      show 0 < count woken (Function.update state.thread t (.chainToken true)) ∧
        state.memory.token - 1 < count woken (Function.update state.thread t (.chainToken true))
      omega
    obtain ⟨later, reached, failed⟩ := ih (short _) (by
      show (state.memory.token - 1).toNat = n
      simp only at tokens
      omega)
    exact ⟨later, second.resume reached, failed⟩

/-- `token_count_` is an `int`. -/
theorem range_of_next {here after : State Thread Memory Pc × Failures}
    {action : Action Thread Op (Choice ⊕ Kevent)} (reached : (recorded initiallySet Thread).Reachable here)
    (taken : (recorded initiallySet Thread).next here action = some after) :
    InInt32 here.1.memory.token := by
  have someone : Nonempty Thread := match action with
    | .call t _ | .step t _ | .wake t _ => ⟨t⟩
  exact (counted_of_reachable reached.erase).range

end Lost

/-- **On Apple** a token for every woken timed wait is a sharp condition. -/
theorem sharp (initiallySet : Bool) :
    (recorded initiallySet Thread).Sharp (fun _ => True) Spared fun here => Punctual here.2 :=
  .of_invariant (sound_start initiallySet) (fun _ _ _ sound _ spared taken => sound.next spared taken)
    (fun _ sound => sound.punctual)
    (fun _ _ _ reached _ hurts taken => lost_of_not_spared (range_of_next reached taken) taken hurts)
    fun _ => exists_failure

end NovaSync.NativeAutoResetEventKqueue

namespace NovaSync.NativeAutoResetEventTimeouts

open Concurrency Detail

/-- **A timed wait fails by a timeout or an error, or because its one attempt has found no token**, on Linux and on
Apple. The attempts do not fail in the runs that leave the woken timed waits a token each; and after every step that
does not, one of them can. -/
theorem nativeAutoResetEvent_failures (initiallySet : Bool) (Thread : Type*) [DecidableEq Thread]
    [Fintype Thread] :
    ((∀ here, (NativeAutoResetEventEventfd.recorded initiallySet Thread).Reachable here →
        NativeAutoResetEventEventfd.Explained here.2) ∧
      (NativeAutoResetEventEventfd.recorded initiallySet Thread).Sharp (fun _ => True)
        NativeAutoResetEventEventfd.Spared fun here => NativeAutoResetEventEventfd.Punctual here.2) ∧
    (∀ here, (NativeAutoResetEventKqueue.recorded initiallySet Thread).Reachable here →
        NativeAutoResetEventKqueue.Explained here.2) ∧
      (NativeAutoResetEventKqueue.recorded initiallySet Thread).Sharp (fun _ => True)
        NativeAutoResetEventKqueue.Spared fun here => NativeAutoResetEventKqueue.Punctual here.2 :=
  ⟨⟨fun _ => NativeAutoResetEventEventfd.explained_of_reachable,
      NativeAutoResetEventEventfd.sharp initiallySet⟩,
    fun _ => NativeAutoResetEventKqueue.explained_of_reachable,
    NativeAutoResetEventKqueue.sharp initiallySet⟩

/-- A signal between two timed waits of one thread: the first takes its token, and the second times out. -/
theorem nativeAutoResetEvent_failures_late :
    (∃ here, (NativeAutoResetEventEventfd.recorded false (Fin 2)).Reach
      (fun here action => True ∧ NativeAutoResetEventEventfd.Spared here action) here ∧
        here.2.failures = [.wait .expired] ∧ NativeAutoResetEventEventfd.Punctual here.2) ∧
    ∃ here, (NativeAutoResetEventKqueue.recorded false (Fin 2)).Reach
      (fun here action => True ∧ NativeAutoResetEventKqueue.Spared here action) here ∧
        here.2 = [.wait (.inr .expired)] ∧ NativeAutoResetEventKqueue.Punctual here.2 := by
  obtain ⟨here, reached, failed⟩ := System.exists_reach_of_run
    (NativeAutoResetEventEventfd.recorded false (Fin 2))
    (fun here action => True ∧ NativeAutoResetEventEventfd.Spared here action)
    [.call 0 (.tryWaitFor true), .call 1 .signal, .step 1 .go, .step 1 .go, .step 1 .go,
      .step 0 .go, .step 0 .go, .call 0 .tryWaitUntil, .step 0 .go, .step 0 .expired]
    (fun here => decide (here.2.failures = [.wait .expired])) (by decide +kernel)
  obtain ⟨there, arrived, expired⟩ := System.exists_reach_of_run
    (NativeAutoResetEventKqueue.recorded false (Fin 2))
    (fun here action => True ∧ NativeAutoResetEventKqueue.Spared here action)
    [.call 0 (.tryWaitFor true), .step 0 (.inl .go), .step 0 (.inl .go), .step 0 (.inl .go),
      .call 1 .signal, .step 1 (.inl .go), .step 1 (.inl .go), .step 1 (.inl .go),
      .step 0 (.inr (.event .user)), .step 0 (.inl .go), .step 0 (.inl .go), .step 0 (.inl .go),
      .step 0 (.inl .go), .call 0 (NativeAutoResetEventKqueue.tryWaitUntil true), .step 0 (.inl .go),
      .step 0 (.inl .go), .step 0 (.inl .go), .step 0 (.inr .expired)]
    (fun here => decide (here.2 = [.wait (.inr .expired)])) (by decide +kernel)
  exact ⟨⟨here, reached, of_decide_eq_true failed,
      ((nativeAutoResetEvent_failures false (Fin 2)).1.2 here reached).1⟩,
    ⟨there, arrived, of_decide_eq_true expired,
      ((nativeAutoResetEvent_failures false (Fin 2)).2.2 there arrived).1⟩⟩

/-- **A timed wait returns `false` because another thread has taken the token that woke it.** On Linux one signal
makes the eventfd readable for two timed waits, and one of them reads nothing. On Apple a `try_wait` comes between
the `kevent_for` of a timed wait and its own `try_wait`. -/
theorem nativeAutoResetEvent_beaten :
    (¬ ∀ (initiallySet : Bool) (Thread : Type) [DecidableEq Thread] [Fintype Thread] (state)
      (history : NativeAutoResetEventEventfd.History Thread),
      (NativeAutoResetEventEventfd.recorded initiallySet Thread).Reachable (state, history) →
        NativeAutoResetEventEventfd.Punctual history) ∧
    ¬ ∀ (initiallySet : Bool) (Thread : Type) [DecidableEq Thread] [Fintype Thread] (state failures),
      (NativeAutoResetEventKqueue.recorded initiallySet Thread).Reachable (state, failures) →
        NativeAutoResetEventKqueue.Punctual failures := by
  constructor
  · intro punctual
    obtain ⟨here, reached, failed⟩ := System.exists_reachable_of_run
      (NativeAutoResetEventEventfd.recorded false (Fin 3))
      [.call 0 (.tryWaitFor true), .call 1 .tryWaitUntil, .step 1 .go, .call 2 .signal, .step 2 .go,
        .step 2 .go, .step 2 .go, .step 0 .go, .step 1 .go, .step 0 .go, .step 1 .go]
      (fun here => decide (here.2.failures = [.attempt 0])) (by decide +kernel)
    have late := punctual _ _ here.1 here.2 reached
    unfold NativeAutoResetEventEventfd.Punctual at late
    rw [of_decide_eq_true failed] at late
    revert late
    decide
  · intro punctual
    obtain ⟨here, reached, failed⟩ := System.exists_reachable_of_run
      (NativeAutoResetEventKqueue.recorded false (Fin 2))
      [.call 0 (NativeAutoResetEventKqueue.tryWaitUntil true), .step 0 (.inl .go), .step 0 (.inl .go),
        .step 0 (.inl .go), .call 1 .signal, .step 1 (.inl .go), .step 1 (.inl .go), .step 1 (.inl .go),
        .step 0 (.inr (.event .user)), .call 1 .tryWait, .step 1 (.inl .go), .step 1 (.inl .go),
        .step 0 (.inl .go)]
      (fun here => decide (here.2 = [.attempt 0])) (by decide +kernel)
    have late := punctual _ _ here.1 here.2 reached
    unfold NativeAutoResetEventKqueue.Punctual at late
    rw [of_decide_eq_true failed] at late
    revert late
    decide

end NovaSync.NativeAutoResetEventTimeouts
