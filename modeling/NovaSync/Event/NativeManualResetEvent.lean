/-
**`native_manual_reset_event` on Linux and on the platforms that have neither eventfds nor kqueues.**

The event is set while its descriptor is readable: an eventfd that a read empties, or the reading end of a pipe, of
which a read takes at most 128 bytes. `signal` writes if a poll has found nothing to read; `reset` reads until it
finds nothing; the waits poll. A poll that is interrupted or fails is not tried again by `signal`, which then writes
nothing and returns: such a call reports nothing here, and its signal is lost if the event was not set.

* `nativeManualResetEvent_moments` — whatever a call reports was the case at a moment of the call: the event was set
  for a `signal` whose poll did not fail or a successful wait, not set for a `reset` or a failed attempt.
* `nativeManualResetEvent_no_lost_signal` — after a `signal` whose poll did not fail, and during and since which
  nobody has been resetting, the event is set, and every waiter comes to see it.
* `nativeManualResetEvent_bounded` — at most one unread signal for each thread, so none is refused; and a `reset`
  ends once nobody writes any more.
-/

import NovaSync.Concurrency.Moments
import NovaSync.Detail.EventfdTokens

set_option linter.unusedSectionVars false

namespace NovaSync.NativeManualResetEvent

open Concurrency Detail
open EventfdTokens (Wait)

/-! ### The program -/

/-- The descriptor of the event; a pipe holds up to `capacity` bytes. -/
inductive Backend
  | eventfd
  | pipe (capacity : {n : ℕ // 0 < n})
deriving DecidableEq, Repr

namespace Backend

/-- A write that would leave more than this in the descriptor fails with `EAGAIN`. -/
def capacity : Backend → ℕ
  | .eventfd => 2 ^ 64 - 2
  | .pipe capacity => capacity

/-- What a read takes of a readable descriptor. -/
def taken (counter : ℕ) : Backend → ℕ
  | .eventfd => counter
  | .pipe _ => min counter 128

/-- A write of the value one, or of one byte. -/
def write (backend : Backend) (counter : ℕ) : ℕ :=
  if counter + 1 ≤ backend.capacity then counter + 1 else counter

end Backend

inductive Op
  | signal
  | reset
  | tryWait
  | wait
  | tryWaitFor (positive : Bool)
  | tryWaitUntil (clock : Clock)
deriving DecidableEq, Repr

/-- What the last call has done: nothing, or a `signal` whose poll failed; any other `signal`; `reset`; a wait that
has found the event set or not set; a wait that has returned `false` after a timeout or an error. -/
inductive Report
  | nothing
  | signalled
  | cleared
  | found (set : Bool)
  | gaveUp
deriving DecidableEq, Repr

/-- The next system call of a thread.

* `outside report`: none.
* `probe`, `write`: the `try_poll` and the `write` of `signal`; `read`: the `read` of `reset`.
* `check again`: the `try_poll` of `try_wait`, which `wait` calls until it returns `true`.
* `rest`: the clock reading before `try_wait_until` calls `try_wait_for`.
* `waiting wait point`: inside `poll_intr` without a timeout, `ppoll_for` or `poll_intr` with one, or
  `ppoll_until`. -/
inductive Pc
  | outside (report : Report)
  | probe
  | write
  | read
  | check (again : Bool)
  | rest
  | waiting (wait : Wait) (point : PollPoint)
deriving DecidableEq, Repr

/-- `try_wait_for`. -/
def waitFor (positive : Bool) : Pc := if positive then .waiting .relative Wait.relative.entry else .check false

def begin (backend : Backend) : Op → Pc
  | .signal => .probe
  | .reset => .read
  | .tryWait => .check false
  | .wait => .check true
  | .tryWaitFor positive => waitFor positive
  | .tryWaitUntil clock =>
      match backend, clock with
      | .eventfd, .system | .eventfd, .steady => .waiting .absolute Wait.absolute.entry
      | .eventfd, .other | .pipe _, _ => .rest

def call (backend : Backend) (op : Op) : Pc → Option Pc
  | .outside _ => some (begin backend op)
  | _ => none

/-- `try_poll`: whether the descriptor is readable, or nothing for an error, which may be an `EINTR`. -/
def tryPoll (choice : Choice) (counter : ℕ) : Option (Option Bool) :=
  match choice with
  | .go => some (some (0 < counter))
  | .interrupted | .failed => some none
  | .spurious | .expired => none

/-- Where a call goes on after a wait for readability. -/
def afterWait (backend : Backend) (readable : Bool) : Wait → Pc
  | .forever => .check true
  | .relative =>
      match backend with
      | .eventfd => if readable then .check false else .outside .gaveUp
      | .pipe _ => .check false
  | .absolute => .outside (if readable then .found true else .gaveUp)

/-- The next system call, as the environment resolves it. -/
def step (backend : Backend) (choice : Choice) (counter : ℕ) : Pc → Option (ℕ × Pc)
  | .outside _ => none
  | .probe => (tryPoll choice counter).map fun
      | some false => (counter, .write)
      | some true => (counter, .outside .signalled)
      | none => (counter, .outside .nothing)
  | .write => ordinary choice (backend.write counter, .outside .signalled)
  | .read => ordinary choice <|
      if 0 < counter then (counter - backend.taken counter, .read) else (counter, .outside .cleared)
  | .check again => (tryPoll choice counter).map fun
      | some true => (counter, .outside (.found true))
      | some false => (counter, if again then .waiting .forever Wait.forever.entry else .outside (.found false))
      | none => (counter, if again then .waiting .forever Wait.forever.entry else .outside .gaveUp)
  | .rest =>
      match choice with
      | .go => some (counter, waitFor true)
      | .expired => some (counter, waitFor false)
      | .spurious | .interrupted | .failed => none
  | .waiting wait point => (point.step choice counter).map fun
      | .inl next => (counter, .waiting wait next)
      | .inr readable => (counter, afterWait backend readable wait)

/-- The event as a thread program; nobody sleeps on a futex. -/
def program (backend : Backend) : Program ℕ Pc Op Choice where
  idle := .outside .nothing
  call := call backend
  step := step backend
  wake := fun _ => none
  asleep := fun _ => false
  woken := id

theorem program_silent (backend : Backend) : (program backend).Silent := fun _ => rfl

/-- The event used by the threads of `Thread`. -/
abbrev system (backend : Backend) (initiallySet : Bool) (Thread : Type*) [DecidableEq Thread] [Fintype Thread] :
    System (State Thread ℕ Pc) (Action Thread Op Choice) :=
  (program backend).system initiallySet.toNat

/-- The event is set; it is not; somebody is resetting it. -/
inductive Moment
  | set
  | clear
  | resetting
deriving DecidableEq, Repr

def holds {Thread : Type*} [Fintype Thread] (moment : Moment) (state : State Thread ℕ Pc) : Bool :=
  match moment with
  | .set => decide (0 < state.memory)
  | .clear => decide (state.memory = 0)
  | .resetting => decide (∃ t, state.thread t = .read)

/-- The event beside the moments of the threads' calls. -/
abbrev watched (backend : Backend) (initiallySet : Bool) (Thread : Type*) [DecidableEq Thread] [Fintype Thread] :
    System (State Thread ℕ Pc × (Thread → Moment → Bool)) (Action Thread Op Choice) :=
  (program backend).watched initiallySet.toNat holds

namespace Pc

/-- The thread is inside a wait. -/
def waits : Pc → Bool
  | .check _ | .rest | .waiting _ _ => true
  | .outside _ | .probe | .write | .read => false

/-- The thread has found nothing to read, and is about to write. -/
def writes : Pc → Bool
  | .write => true
  | _ => false

/-- The thread is inside `signal`. -/
def signals : Pc → Bool
  | .probe | .write => true
  | _ => false

end Pc

/-- What a report tells of the event. -/
def Report.Tells (report : Report) (moment : Moment) : Prop :=
  match report with
  | .signalled | .found true => moment = .set
  | .cleared | .found false => moment = .clear
  | .nothing | .gaveUp => False

/-- The thread is outside, with a report of the moment. -/
def Pc.Owes (pc : Pc) (moment : Moment) : Prop := ∃ report : Report, pc = .outside report ∧ report.Tells moment

/-- The descriptor is as the moment has it. -/
def Moment.At (counter : ℕ) : Moment → Prop
  | .set => 0 < counter
  | .clear => counter = 0
  | .resetting => False

namespace Backend

variable (backend : Backend)

theorem capacity_pos : 0 < backend.capacity := by
  cases backend with
  | eventfd => decide
  | pipe capacity => exact capacity.2

theorem taken_pos {counter : ℕ} (positive : 0 < counter) : 0 < backend.taken counter := by
  cases backend with
  | eventfd => exact positive
  | pipe capacity => exact Nat.lt_min.mpr ⟨positive, by decide⟩

theorem write_pos (counter : ℕ) : 0 < backend.write counter := by
  have room := backend.capacity_pos
  unfold write
  split <;> omega

theorem write_le (counter : ℕ) : backend.write counter ≤ counter + 1 := by
  unfold write
  split <;> omega

end Backend

/-! ### What a step can do -/

/-- **The effects of a step.** A call moves on, or reports what it finds; a `signal` that has found nothing is about
to write, and writes; a `reset` reads. -/
inductive Effect (backend : Backend) (counter : ℕ) (pc : Pc) : ℕ → Pc → Prop
  | moves {after : Pc} : pc.writes = false → after.writes = false → (∀ report, after ≠ .outside report) →
      Effect backend counter pc counter after
  | reports {report : Report} : pc.writes = false → (∀ moment, report.Tells moment → moment.At counter) →
      Effect backend counter pc counter (.outside report)
  | prepares : pc = .probe → counter = 0 → Effect backend counter pc counter .write
  | writes : pc = .write → Effect backend counter pc (backend.write counter) (.outside .signalled)
  | drains : pc = .read → 0 < counter → Effect backend counter pc (counter - backend.taken counter) .read

variable {backend : Backend}

/-- The outcomes of a `try_poll`. -/
theorem tryPoll_cases {choice : Choice} {counter : ℕ} {polled : Option Bool}
    (performed : tryPoll choice counter = some polled) :
    polled = some true ∧ 0 < counter ∨ polled = some false ∧ counter = 0 ∨ polled = none := by
  cases choice with
  | go =>
    cases performed
    rcases Nat.eq_zero_or_pos counter with empty | positive
    · exact Or.inr (Or.inl ⟨by simp [empty], empty⟩)
    · exact Or.inl ⟨by simp [positive], positive⟩
  | interrupted | failed =>
    cases performed
    exact Or.inr (Or.inr rfl)
  | spurious | expired => cases performed

theorem told_set {report : Report} {counter : ℕ} (about : ∀ moment, report.Tells moment → moment = .set)
    (positive : 0 < counter) (moment : Moment) (told : report.Tells moment) : moment.At counter := by
  rw [about moment told]
  exact positive

theorem told_clear {report : Report} {counter : ℕ} (about : ∀ moment, report.Tells moment → moment = .clear)
    (empty : counter = 0) (moment : Moment) (told : report.Tells moment) : moment.At counter := by
  rw [about moment told]
  exact empty

theorem waitFor_effect {counter : ℕ} {pc : Pc} (positive : Bool) (elsewhere : pc.writes = false) :
    Effect backend counter pc counter (waitFor positive) := by
  cases positive <;> exact .moves elsewhere rfl nofun

/-- A poll of a wait is for nothing more than to go on, or for the report of `ppoll_until`. -/
theorem afterWait_effect {counter : ℕ} {pc : Pc} {readable : Bool} (wait : Wait) (elsewhere : pc.writes = false)
    (polled : readable = true → 0 < counter) :
    Effect backend counter pc counter (afterWait backend readable wait) := by
  cases wait with
  | forever => exact .moves elsewhere rfl nofun
  | relative =>
    cases backend with
    | pipe capacity => exact .moves elsewhere rfl nofun
    | eventfd =>
      cases readable with
      | true => exact .moves elsewhere rfl nofun
      | false => exact .reports elsewhere fun _ told => told.elim
  | absolute =>
    cases readable with
    | true => exact .reports elsewhere (told_set (fun _ told => told) (polled rfl))
    | false => exact .reports elsewhere fun _ told => told.elim

theorem step_effect {choice : Choice} {counter after : ℕ} {pc moved : Pc}
    (stepped : step backend choice counter pc = some (after, moved)) :
    Effect backend counter pc after moved := by
  cases pc with
  | outside report => cases stepped
  | probe =>
    obtain ⟨polled, performed, result⟩ := Option.map_eq_some_iff.mp stepped
    rcases tryPoll_cases performed with ⟨rfl, positive⟩ | ⟨rfl, empty⟩ | rfl <;> cases result
    · exact .reports rfl (told_set (fun _ told => told) positive)
    · exact .prepares rfl empty
    · exact .reports rfl fun _ told => told.elim
  | write =>
    cases (ordinary_eq_some stepped).2
    exact .writes rfl
  | read =>
    obtain ⟨-, result⟩ := ordinary_eq_some stepped
    split at result
    · rename_i positive
      cases result
      exact .drains rfl positive
    · rename_i empty
      cases result
      exact .reports rfl (told_clear (fun _ told => told) (Nat.eq_zero_of_not_pos empty))
  | check again =>
    obtain ⟨polled, performed, result⟩ := Option.map_eq_some_iff.mp stepped
    rcases tryPoll_cases performed with ⟨rfl, positive⟩ | ⟨rfl, empty⟩ | rfl <;> cases result
    · exact .reports rfl (told_set (fun _ told => told) positive)
    · cases again with
      | true => exact .moves rfl rfl nofun
      | false => exact .reports rfl (told_clear (fun _ told => told) empty)
    · cases again with
      | true => exact .moves rfl rfl nofun
      | false => exact .reports rfl fun _ told => told.elim
  | rest =>
    cases choice with
    | go | expired =>
      cases stepped
      exact waitFor_effect _ rfl
    | spurious | interrupted | failed => cases stepped
  | waiting wait point =>
    obtain ⟨next | readable, polled, result⟩ := Option.map_eq_some_iff.mp stepped <;> cases result
    · exact .moves rfl rfl nofun
    · refine afterWait_effect wait rfl fun ready => ?_
      subst ready
      exact PollPoint.readable_of_step polled

theorem call_begins {op : Op} {pc moved : Pc} (called : call backend op pc = some moved) :
    pc.writes = false ∧ moved.writes = false ∧ ∀ report, moved ≠ .outside report := by
  have begun : (begin backend op).writes = false ∧ ∀ report, begin backend op ≠ .outside report := by
    cases op with
    | tryWaitFor positive => cases positive <;> exact ⟨rfl, nofun⟩
    | tryWaitUntil clock => cases backend <;> cases clock <;> exact ⟨rfl, nofun⟩
    | signal | reset | tryWait | wait => exact ⟨rfl, nofun⟩
  cases pc with
  | outside report =>
    cases called
    exact ⟨rfl, begun⟩
  | probe | write | read | check | rest | waiting => cases called

/-! ### Moments -/

section Runs

variable {initiallySet : Bool} {Thread : Type*} [DecidableEq Thread] [Fintype Thread] {state : State Thread ℕ Pc}
  {past : Thread → Moment → Bool}

theorem holds_of_at {moment : Moment} (here : moment.At state.memory) : holds moment state = true := by
  cases moment with
  | set | clear => exact decide_eq_true here
  | resetting => exact here.elim

/-- **What a call reports was the case at a moment of the call**: the event was set for a `signal` whose poll did not
fail and for a wait that has returned `true`, and not set for a `reset` and for an attempt that has found nothing. -/
theorem nativeManualResetEvent_moments (reached : (watched backend initiallySet Thread).Reachable (state, past))
    {t : Thread} {report : Report} (returned : state.thread t = .outside report) {moment : Moment}
    (told : report.Tells moment) : past t moment = true := by
  have idle : ∀ moment, ¬ (program backend).idle.Owes moment := by
    rintro moment ⟨report, here, told⟩
    cases here
    exact told
  have calls : ∀ op pc moved moment, (program backend).call op pc = some moved → ¬ moved.Owes moment := by
    rintro op pc moved moment called ⟨report, here, -⟩
    exact (call_begins called).2.2 report here
  have steps : ∀ (state : State Thread ℕ Pc) t choice counter moved moment,
      (program backend).step choice state.memory (state.thread t) = some (counter, moved) → moved.Owes moment →
      (state.thread t).Owes moment ∨ holds moment state = true ∨
        holds moment ⟨counter, Function.update state.thread t moved⟩ = true := by
    rintro state t choice counter moved moment stepped ⟨report, rfl, told⟩
    cases step_effect stepped with
    | moves _ _ inside => exact absurd rfl (inside report)
    | reports _ finds => exact Or.inr (Or.inl (holds_of_at (finds moment told)))
    | writes here =>
      have about : moment = .set := told
      subst about
      exact Or.inr (Or.inr (decide_eq_true (backend.write_pos _)))
  have owes : (state.thread t).Owes moment := ⟨report, returned, told⟩
  exact Program.past_of_owed (program_silent backend) idle calls steps reached owes

/-- While thread 0 resets, thread 1 signals, and thread 0 reads that signal too. -/
theorem nativeManualResetEvent_moments_taken :
    ∃ (state : State (Fin 2) ℕ Pc) (past : Fin 2 → Moment → Bool),
      (watched .eventfd true (Fin 2)).Reachable (state, past) ∧ state.thread 1 = .outside .signalled ∧
      state.memory = 0 ∧ past 1 .set = true := by
  obtain ⟨⟨state, past⟩, reached, computed⟩ := System.exists_reachable_of_run (watched .eventfd true (Fin 2))
    [.call 0 .reset, .step 0 .go, .call 1 .signal, .step 1 .go, .step 1 .go, .step 0 .go, .step 0 .go]
    (fun here => decide (here.1.thread 1 = .outside .signalled ∧ here.1.memory = 0)) (by decide +kernel)
  obtain ⟨returned, empty⟩ := of_decide_eq_true computed
  exact ⟨state, past, reached, returned, empty, nativeManualResetEvent_moments reached returned rfl⟩

/-! ### No signal is lost -/

/-- Who has signalled while nobody was resetting finds the event set, as long as nobody has been. -/
def Kept (here : State Thread ℕ Pc × (Thread → Moment → Bool)) : Prop :=
  ∀ t, here.1.thread t = .outside .signalled → here.2 t .resetting = false → 0 < here.1.memory

theorem kept_of_reachable {here : State Thread ℕ Pc × (Thread → Moment → Bool)}
    (reached : (watched backend initiallySet Thread).Reachable here) : Kept here := by
  refine reached.invariant (P := Kept) nofun ?_
  rintro ⟨state, past⟩ action later before kept _ taken u returned never
  rcases (program_silent backend).record_cases taken with ⟨t, op, moved, rfl, called, rfl⟩ |
    ⟨t, choice, memory, moved, rfl, stepped, rfl⟩
  · rcases update_cases id returned with ⟨-, here⟩ | ⟨other, there⟩
    · exact absurd here ((call_begins called).2.2 _)
    · have goesOn : Program.begins (.call t op : Action Thread Op Choice) u = false := decide_eq_false other
      exact kept u there (Program.past_of_noteMoments state goesOn never)
  · have earlier : past u .resetting = false := Program.past_of_noteMoments state rfl never
    rcases update_cases id returned with ⟨rfl, here⟩ | ⟨other, there⟩
    · have here : moved = .outside .signalled := here
      subst here
      cases step_effect stepped with
      | moves _ _ inside => exact absurd rfl (inside _)
      | reports _ finds => exact finds .set rfl
      | writes => exact backend.write_pos _
    · have positive : 0 < state.memory := kept u there earlier
      cases step_effect stepped with
      | moves | reports | prepares => exact positive
      | writes => exact backend.write_pos _
      | drains here =>
        have resetting : holds .resetting state = true := decide_eq_true ⟨t, here⟩
        rw [Program.past_of_holds before resetting u] at earlier
        cases earlier

/-- **A wait comes to see the event set**, as long as it is set whenever the wait polls. -/
theorem waiter_comes {counter : ℕ} {pc : Pc} (inside : pc.waits = true) (positive : 0 < counter) :
    (program backend).Comes .go (fun counter => decide (0 < counter)) (· = .outside (.found true)) counter pc := by
  have check : ∀ (counter : ℕ) (again : Bool), 0 < counter → (program backend).Comes .go
      (fun counter => decide (0 < counter)) (· = .outside (.found true)) counter (.check again) := by
    intro counter again positive
    have stepped : (program backend).step .go counter (.check again) = some (counter, .outside (.found true)) := by
      simp only [program, step, tryPoll, Option.map_some, decide_eq_true positive]
    exact Program.Comes.after stepped fun _ _ => .arrived rfl
  have waiting : ∀ (counter : ℕ) (wait : Wait) (point : PollPoint), 0 < counter → (program backend).Comes .go
      (fun counter => decide (0 < counter)) (· = .outside (.found true)) counter (.waiting wait point) := by
    intro counter wait point positive
    have follows : ∀ counter point, (program backend).step .go counter (.waiting wait point) =
        (point.step .go counter).map fun result =>
          (counter, result.elim (.waiting wait) (afterWait backend · wait)) := by
      intro counter point
      simp only [program, step]
      congr 1
      funext result
      cases result <;> rfl
    refine EventfdTokens.wait_comes follows (fun counter positive => ?_) positive point
    cases wait with
    | forever => exact check counter true positive
    | relative => cases backend <;> exact check counter false positive
    | absolute => exact .arrived rfl
  cases pc with
  | outside | probe | write | read => cases inside
  | check again => exact check counter again positive
  | rest =>
    have stepped : (program backend).step .go counter .rest = some (counter, waitFor true) := rfl
    refine Program.Comes.after stepped fun later same => waiting later _ _ ?_
    rw [decide_eq_true positive] at same
    exact of_decide_eq_true same
  | waiting wait point => exact waiting counter wait point positive

/-- A `signal` goes on to its end, and returns without having signalled only if its poll is interrupted or fails. -/
theorem step_signals {choice : Choice} {counter after : ℕ} {pc moved : Pc} (inside : pc.signals = true)
    (stepped : step backend choice counter pc = some (after, moved)) :
    moved = .write ∨ moved = .outside .signalled ∨
      moved = .outside .nothing ∧ (choice = .interrupted ∨ choice = .failed) := by
  cases pc with
  | probe =>
    cases choice with
    | go =>
      simp only [step, tryPoll, Option.map_some] at stepped
      cases readable : decide (0 < counter) with
      | true =>
        rw [readable] at stepped
        cases stepped
        exact Or.inr (Or.inl rfl)
      | false =>
        rw [readable] at stepped
        cases stepped
        exact Or.inl rfl
    | interrupted =>
      cases stepped
      exact Or.inr (Or.inr ⟨rfl, Or.inl rfl⟩)
    | failed =>
      cases stepped
      exact Or.inr (Or.inr ⟨rfl, Or.inr rfl⟩)
    | spurious | expired => cases stepped
  | write =>
    cases (ordinary_eq_some stepped).2
    exact Or.inr (Or.inl rfl)
  | outside | read | check | rest | waiting => cases inside

/-- **No lost signal.** A `signal` returns without having signalled only if its poll is interrupted or fails. After
any other `signal` the event is set, unless somebody has been resetting it during that call or since; and as long as
it is set whenever they look, all waiters come to see it set. -/
theorem nativeManualResetEvent_no_lost_signal
    (reached : (watched backend initiallySet Thread).Reachable (state, past)) :
    (∀ t choice after, (state.thread t).signals = true →
      (system backend initiallySet Thread).next state (.step t choice) = some after →
      after.thread t = .write ∨ after.thread t = .outside .signalled ∨
        after.thread t = .outside .nothing ∧ (choice = .interrupted ∨ choice = .failed)) ∧
    ∀ t, state.thread t = .outside .signalled → past t .resetting = false →
      0 < state.memory ∧ ∀ u, (state.thread u).waits = true → (program backend).Comes .go
        (fun counter => decide (0 < counter)) (· = .outside (.found true)) state.memory (state.thread u) := by
  refine ⟨fun t choice after inside taken => ?_, fun t signalled never => ?_⟩
  · obtain ⟨⟨counter, moved⟩, stepped, rfl⟩ := Option.map_eq_some_iff.mp taken
    simp only [Function.update_self]
    exact step_signals inside stepped
  · have set : 0 < state.memory := kept_of_reachable reached t signalled never
    exact ⟨set, fun u inside => waiter_comes inside set⟩

/-- Thread 0 waits through a pipe of one byte; the signals of threads 1 and 2 both count. -/
theorem nativeManualResetEvent_no_lost_signal_twice :
    ∃ (state : State (Fin 3) ℕ Pc) (past : Fin 3 → Moment → Bool),
      (watched (.pipe ⟨1, by decide⟩) false (Fin 3)).Reachable (state, past) ∧ (state.thread 0).waits = true ∧
      state.thread 2 = .outside .signalled ∧ past 2 .resetting = false ∧ 0 < state.memory ∧
      (program (.pipe ⟨1, by decide⟩)).Comes .go (fun counter => decide (0 < counter)) (· = .outside (.found true))
        state.memory (state.thread 0) := by
  obtain ⟨⟨state, past⟩, reached, computed⟩ :=
    System.exists_reachable_of_run (watched (.pipe ⟨1, by decide⟩) false (Fin 3))
      [.call 0 .wait, .step 0 .go, .step 0 .interrupted, .call 1 .signal, .call 2 .signal, .step 1 .go, .step 2 .go,
        .step 1 .go, .step 2 .go]
      (fun here => decide ((here.1.thread 0).waits = true ∧ here.1.thread 2 = .outside .signalled ∧
        here.2 2 .resetting = false)) (by decide +kernel)
  obtain ⟨waiting, signalled, never⟩ := of_decide_eq_true computed
  obtain ⟨set, comes⟩ := (nativeManualResetEvent_no_lost_signal reached).2 2 signalled never
  exact ⟨state, past, reached, waiting, signalled, never, set, comes 0 waiting⟩

/-- A `signal` whose poll is interrupted is lost. -/
example : ((system .eventfd false (Fin 1)).run (system .eventfd false (Fin 1)).start
    [.call 0 .signal, .step 0 .interrupted]).any
    (fun state => state.thread 0 = .outside .nothing ∧ state.memory = 0) = true := by
  decide +kernel

/-! ### Unread signals -/

/-- The signals that are not read, those about to be written included, are at most as many as the threads, or the
one that the event is constructed with. -/
def Bounded (state : State Thread ℕ Pc) : Prop :=
  state.memory + count Pc.writes state.thread ≤ max 1 (Fintype.card Thread)

theorem Bounded.effect {t : Thread} {counter : ℕ} {moved : Pc} (bounded : Bounded state)
    (effect : Effect backend state.memory (state.thread t) counter moved) :
    Bounded ⟨counter, Function.update state.thread t moved⟩ := by
  have change := count_update Pc.writes state.thread t moved
  unfold Bounded at *
  cases effect with
  | moves elsewhere elsewhere' =>
    rw [elsewhere, elsewhere'] at change
    simp only
    omega
  | reports elsewhere =>
    rw [elsewhere] at change
    simp only [Pc.writes, Bool.toNat_false] at change ⊢
    omega
  | prepares here empty =>
    have most := count_le_card Pc.writes (Function.update state.thread t .write)
    simp only
    omega
  | writes here =>
    have most := backend.write_le state.memory
    rw [here] at change
    simp only [Pc.writes, Bool.toNat_false, Bool.toNat_true] at change ⊢
    omega
  | drains here =>
    rw [here] at change
    simp only [Pc.writes, Bool.toNat_false] at change ⊢
    omega

theorem bounded_of_reachable (reached : (system backend initiallySet Thread).Reachable state) : Bounded state := by
  have start : Bounded (system backend initiallySet Thread).start := by
    have nobody : count Pc.writes (system backend initiallySet Thread).start.thread = 0 := count_const rfl
    have first : (system backend initiallySet Thread).start.memory ≤ 1 := Bool.toNat_le _
    unfold Bounded
    omega
  refine reached.invariant start fun state action after _ bounded _ taken => ?_
  rcases (program_silent backend).next_cases taken with ⟨t, op, moved, -, called, rfl⟩ |
    ⟨t, choice, counter, moved, -, stepped, rfl⟩
  · have elsewhere := call_begins called
    have same : count Pc.writes (Function.update state.thread t moved) = count Pc.writes state.thread :=
      count_update_same (elsewhere.2.1.trans elsewhere.1.symm)
    unfold Bounded at *
    simp only [same]
    exact bounded
  · exact bounded.effect (step_effect stepped)

/-- **A `reset` ends** once the others leave the descriptor alone: each of its reads takes something. -/
theorem reset_comes (counter : ℕ) :
    (program backend).Comes .go id (· = .outside .cleared) counter .read := by
  induction counter using Nat.strong_induction_on with
  | _ counter ih =>
    by_cases empty : counter = 0
    · subst empty
      have stepped : (program backend).step .go 0 .read = some (0, .outside .cleared) := rfl
      exact Program.Comes.after stepped fun _ _ => .arrived rfl
    · have positive : 0 < counter := Nat.pos_of_ne_zero empty
      have taken := backend.taken_pos positive
      have stepped : (program backend).step .go counter .read = some (counter - backend.taken counter, .read) := by
        simp only [program, step, ordinary, if_true, if_pos positive]
      refine Program.Comes.after stepped fun later same => ?_
      rw [show later = counter - backend.taken counter from same]
      exact ih _ (by omega)

/-- **Signals do not pile up.** Unread signals and those about to be written are at most as many as the threads, so
where that many fit into the descriptor, no write of a `signal` is refused; and a `reset` ends once the others leave
the descriptor alone. -/
theorem nativeManualResetEvent_bounded (reached : (system backend initiallySet Thread).Reachable state) :
    state.memory + count Pc.writes state.thread ≤ max 1 (Fintype.card Thread) ∧
      (max 1 (Fintype.card Thread) ≤ backend.capacity →
        ∀ t, state.thread t = .write → backend.write state.memory = state.memory + 1) ∧
      ∀ t, state.thread t = .read →
        (program backend).Comes .go id (· = .outside .cleared) state.memory (state.thread t) := by
  have bounded := bounded_of_reachable reached
  refine ⟨bounded, fun room t here => ?_, fun t here => ?_⟩
  · have writer : 0 < count Pc.writes state.thread := count_pos (t := t) (by rw [here]; rfl)
    unfold Bounded at bounded
    exact if_pos (by omega)
  · rw [here]
    exact reset_comes state.memory

/-- Both threads have found nothing to read, and write. -/
theorem nativeManualResetEvent_bounded_twice :
    ∃ state, (system .eventfd false (Fin 2)).Reachable state ∧ state.memory = 1 ∧ state.thread 1 = .write ∧
      state.memory + count Pc.writes state.thread ≤ 2 ∧ Backend.write .eventfd state.memory = 2 := by
  obtain ⟨state, reached, computed⟩ := System.exists_reachable_of_run (system .eventfd false (Fin 2))
    [.call 0 .signal, .call 1 .signal, .step 0 .go, .step 1 .go, .step 0 .go]
    (fun state => decide (state.memory = 1 ∧ state.thread 1 = .write)) (by decide +kernel)
  obtain ⟨one, here⟩ := of_decide_eq_true computed
  obtain ⟨most, fits, -⟩ := nativeManualResetEvent_bounded reached
  have written : Backend.write .eventfd state.memory = state.memory + 1 := fits (by decide) 1 here
  exact ⟨state, reached, one, here, most, by rw [written, one]⟩

/-- One `reset` clears the event twice: in between, thread 1 sees it clear, signals, and sees it set. -/
example : ((system .eventfd true (Fin 2)).run (system .eventfd true (Fin 2)).start
    [.call 0 .reset, .step 0 .go, .call 1 .tryWait, .step 1 .go, .call 1 .signal, .step 1 .go, .step 1 .go,
      .call 1 .tryWait, .step 1 .go, .step 0 .go, .call 1 .tryWait, .step 1 .go]).any
    (fun state => state.thread 0 = .read ∧ state.thread 1 = .outside (.found false)) = true := by
  decide +kernel

end Runs

end NovaSync.NativeManualResetEvent
