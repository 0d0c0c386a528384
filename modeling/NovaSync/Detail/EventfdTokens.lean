/-
**Tokens kept by an eventfd.**

`eventfd_mutex_impl` and `eventfd_semaphore` have no word of their own: what is free is the counter of an
`EFD_SEMAPHORE` eventfd. An acquisition reads it until a read succeeds, and waits for the descriptor to become
readable in between; the operations differ in how they wait. A release is one write. A write that the counter has
no room for fails with `EAGAIN`, which `write_intr` returns and nobody looks at.

* `step_effect` — everything a step can do.
* `accounted_of_reachable` — the counter and the acquisitions add up to the tokens there were and those written,
  whoever calls what.
* `wait_comes`, `acquisition_comes` — a wait for readability and an acquisition come to their ends by their own
  steps, as long as the others leave the counter positive whenever they look.
* `counter_eq_zero_of_quiet` — where nobody can go on, an acquisition that has not ended means that nothing is
  left.
-/

import NovaSync.Concurrency.Threads
import NovaSync.Detail.Eventfd
import NovaSync.Detail.Kevent

set_option linter.unusedSectionVars false

namespace NovaSync.EventfdTokens

open Concurrency Detail

/-! ### The program -/

/-- The largest value of the counter of an eventfd. -/
def counterMax : ℕ := 2 ^ 64 - 2

/-- The eventfd, and the history of the run: the tokens written, the reads that have succeeded, and the tokens of
the writes that have failed. -/
structure Memory where
  counter : ℕ
  released : ℕ := 0
  acquired : ℕ := 0
  dropped : ℕ := 0
deriving DecidableEq, Repr

/-- How an acquisition waits: `poll_intr`, `ppoll_for` or `ppoll_until`. -/
inductive Wait
  | forever
  | relative
  | absolute
deriving DecidableEq, Repr

/-- Where the wait begins. -/
def Wait.entry : Wait → PollPoint
  | .forever => .poll
  | .relative => .ppollFor
  | .absolute => .timerfd

/-- What follows a read that finds nothing: the answer `false`, a wait, or the clock reading before the duration
that is left is waited for. -/
inductive Otherwise
  | fail
  | waits (wait : Wait)
  | rest
deriving DecidableEq, Repr

/-- The next system call of a thread.

* `outside acquired`: none; `acquired` says whether the last call has acquired.
* `read otherwise`: the `read` of an attempt.
* `waiting wait point`: inside the wait.
* `rest`: `abs_time - Clock::now()`, and its comparison with zero.
* `write n`: the `write` of a release. -/
inductive Pc
  | outside (acquired : Bool)
  | read (otherwise : Otherwise)
  | waiting (wait : Wait) (point : PollPoint)
  | rest
  | write (n : ℕ)
deriving DecidableEq, Repr

def Otherwise.next : Otherwise → Pc
  | .fail => .outside false
  | .waits wait => .waiting wait wait.entry
  | .rest => .rest

/-- Where an acquisition goes on after a wait: a wait that has given up leaves it one last attempt. -/
def Wait.next (wait : Wait) (readable : Bool) : Pc :=
  if readable = true ∨ wait = .forever then .read (.waits wait) else .read .fail

/-- Where an acquisition for a duration begins. -/
def readFor (positive : Bool) : Pc := .read (if positive then .waits .relative else .fail)

/-- Where an acquisition with a deadline begins. -/
def readUntil : Clock → Pc
  | .system | .steady => .read (.waits .absolute)
  | .other => .read .rest

namespace Memory

/-- A read that finds a token. -/
def read (memory : Memory) : Memory :=
  { memory with counter := Eventfd.read memory.counter, acquired := memory.acquired + 1 }

/-- A write of `n`. -/
def write (memory : Memory) (n : ℕ) : Memory :=
  if memory.counter + n ≤ counterMax then
    { memory with counter := memory.counter + n, released := memory.released + n }
  else { memory with dropped := memory.dropped + n }

end Memory

/-- The next system call, as the environment resolves it. -/
def step (choice : Choice) (memory : Memory) : Pc → Option (Memory × Pc)
  | .outside _ => none
  | .read otherwise => ordinary choice <|
      if 0 < memory.counter then (memory.read, .outside true) else (memory, otherwise.next)
  | .waiting wait point => (point.step choice memory.counter).map fun
      | .inl next => (memory, .waiting wait next)
      | .inr readable => (memory, wait.next readable)
  | .rest =>
      match choice with
      | .go => some (memory, readFor true)
      | .expired => some (memory, readFor false)
      | .spurious | .interrupted | .failed => none
  | .write n => ordinary choice (memory.write n, .outside false)

/-- The threads' program, given which calls they make; nobody sleeps on a futex. -/
def program {Op : Type*} (call : Op → Pc → Option Pc) : Program Memory Pc Op Choice where
  idle := .outside false
  call := call
  step := step
  wake := fun _ => none
  asleep := fun _ => false
  woken := id

theorem program_silent {Op : Type*} (call : Op → Pc → Option Pc) : (program call).Silent := fun _ => rfl

namespace Pc

/-- The thread is inside an acquisition. -/
def acquiring : Pc → Bool
  | .read _ | .waiting _ _ | .rest => true
  | .outside _ | .write _ => false

/-- The thread has acquired, and its release has not written yet. -/
def owner : Pc → Bool
  | .outside acquired => acquired
  | .write _ => true
  | .read _ | .waiting _ _ | .rest => false

end Pc

theorem acquiring_next (wait : Wait) (readable : Bool) : (wait.next readable).acquiring = true := by
  unfold Wait.next
  split <;> rfl

/-! ### What a step can do -/

/-- **The effects of a step.** An acquisition moves on, ends at a positive counter or fails at an empty one; a
release finds room, or it does not. -/
inductive Effect (memory : Memory) (pc : Pc) : Memory → Pc → Prop
  | moves {after : Pc} : pc.acquiring = true → after.acquiring = true →
      (∀ otherwise, pc = .read otherwise → memory.counter = 0) → Effect memory pc memory after
  | acquires (otherwise : Otherwise) : pc = .read otherwise → 0 < memory.counter →
      Effect memory pc memory.read (.outside true)
  | fails : pc = .read .fail → memory.counter = 0 → Effect memory pc memory (.outside false)
  | writes (n : ℕ) : pc = .write n → memory.counter + n ≤ counterMax → Effect memory pc
      { memory with counter := memory.counter + n, released := memory.released + n } (.outside false)
  | drops (n : ℕ) : pc = .write n → counterMax < memory.counter + n → Effect memory pc
      { memory with dropped := memory.dropped + n } (.outside false)

theorem step_effect {choice : Choice} {memory after : Memory} {pc moved : Pc}
    (stepped : step choice memory pc = some (after, moved)) : Effect memory pc after moved := by
  cases pc with
  | outside acquired => cases stepped
  | read otherwise =>
    obtain ⟨-, result⟩ := ordinary_eq_some stepped
    split at result
    · rename_i positive
      cases result
      exact .acquires otherwise rfl positive
    · rename_i positive
      have empty : memory.counter = 0 := Nat.eq_zero_of_not_pos positive
      cases result
      cases otherwise with
      | fail => exact .fails rfl empty
      | waits | rest => exact .moves rfl rfl fun _ _ => empty
  | waiting wait point =>
    obtain ⟨next | readable, -, result⟩ := Option.map_eq_some_iff.mp stepped <;> cases result
    · exact .moves rfl rfl nofun
    · exact .moves rfl (acquiring_next wait readable) nofun
  | rest =>
    cases choice with
    | go | expired =>
      cases stepped
      exact .moves rfl rfl nofun
    | spurious | interrupted | failed => cases stepped
  | write n =>
    obtain ⟨-, result⟩ := ordinary_eq_some stepped
    cases result
    unfold Memory.write
    split
    · rename_i room
      exact .writes n rfl room
    · rename_i full
      exact .drops n rfl (Nat.lt_of_not_le full)

/-! ### The tokens add up -/

section Runs

variable {Op : Type*} {call : Op → Pc → Option Pc} {initial : ℕ} {Thread : Type*} [DecidableEq Thread]
  [Fintype Thread]

/-- **The tokens of a memory add up**, and the counter is one that an eventfd can have. -/
structure Accounted (initial : ℕ) (memory : Memory) : Prop where
  tokens : memory.counter + memory.acquired = initial + memory.released
  room : memory.counter ≤ counterMax

theorem Accounted.step {memory after : Memory} {pc moved : Pc} (accounted : Accounted initial memory)
    (effect : Effect memory pc after moved) : Accounted initial after := by
  obtain ⟨tokens, room⟩ := accounted
  cases effect with
  | moves | fails | drops => exact ⟨tokens, room⟩
  | acquires otherwise here positive =>
    constructor <;> simp only [Memory.read, Eventfd.read] <;> omega
  | writes n here fits =>
    refine ⟨?_, fits⟩
    simp only
    omega

theorem accounted_of_reachable (fits : initial ≤ counterMax) {state : State Thread Memory Pc}
    (reached : ((program call).system { counter := initial }).Reachable state) :
    Accounted initial state.memory := by
  refine reached.invariant (P := fun state => Accounted initial state.memory) ⟨rfl, fits⟩
    fun state action after _ accounted _ taken => ?_
  rcases (program_silent call).next_cases taken with ⟨t, op, moved, -, -, rfl⟩ |
    ⟨t, choice, memory, moved, -, stepped, rfl⟩
  · exact accounted
  · exact accounted.step (step_effect stepped)

/-! ### Nobody is left waiting -/

/-- **A wait comes to its end** as long as the descriptor is readable whenever it is polled. -/
theorem wait_comes {Memory Local : Type*} {program : Program Memory Local Op Choice} {counter : Memory → ℕ}
    {place : PollPoint → Local} {next : Bool → Local} {goal : Local → Prop}
    (follows : ∀ memory point, program.step .go memory (place point) =
      (point.step .go (counter memory)).map fun result => (memory, result.elim place next))
    (arrives : ∀ memory, 0 < counter memory →
      program.Comes .go (fun memory => decide (0 < counter memory)) goal memory (next true))
    {memory : Memory} (positive : 0 < counter memory) (point : PollPoint) :
    program.Comes .go (fun memory => decide (0 < counter memory)) goal memory (place point) := by
  have left : ∀ {memory later : Memory}, 0 < counter memory →
      decide (0 < counter later) = decide (0 < counter memory) → 0 < counter later := by
    intro memory later positive same
    rw [decide_eq_true positive] at same
    exact of_decide_eq_true same
  have polls : ∀ (memory : Memory) (point : PollPoint), 0 < counter memory →
      point.step .go (counter memory) = some (.inr true) →
      program.Comes .go (fun memory => decide (0 < counter memory)) goal memory (place point) := by
    intro memory point positive polled
    have stepped : program.step .go memory (place point) = some (memory, next true) := by
      rw [follows, polled]
      rfl
    exact Program.Comes.after stepped fun later same => arrives later (left positive same)
  cases point with
  | poll | ppollFor | ppollUntil => exact polls memory _ positive (if_pos positive)
  | remaining =>
    have stepped : program.step .go memory (place .remaining) = some (memory, place .ppollFor) := follows _ _
    exact Program.Comes.after stepped fun later same =>
      polls later _ (left positive same) (if_pos (left positive same))
  | timerfd =>
    have stepped : program.step .go memory (place .timerfd) = some (memory, place .ppollUntil) := follows _ _
    exact Program.Comes.after stepped fun later same =>
      polls later _ (left positive same) (if_pos (left positive same))

/-- **An acquisition ends** as long as the counter is positive whenever it looks. -/
theorem acquisition_comes {memory : Memory} {pc : Pc} (inside : pc.acquiring = true)
    (positive : 0 < memory.counter) : (program call).Comes .go (fun memory => decide (0 < memory.counter))
      (· = .outside true) memory pc := by
  have attempt : ∀ (memory : Memory) (otherwise : Otherwise), 0 < memory.counter → (program call).Comes .go
      (fun memory => decide (0 < memory.counter)) (· = .outside true) memory (.read otherwise) := by
    intro memory otherwise positive
    have stepped : (program call).step .go memory (.read otherwise) = some (memory.read, .outside true) := by
      simp only [program, step, ordinary, if_true, if_pos positive]
    exact Program.Comes.after stepped fun _ _ => .arrived rfl
  cases pc with
  | outside | write => cases inside
  | read otherwise => exact attempt memory otherwise positive
  | rest =>
    have stepped : (program call).step .go memory .rest = some (memory, readFor true) := rfl
    refine Program.Comes.after stepped fun later same => attempt later _ ?_
    rw [decide_eq_true positive] at same
    exact of_decide_eq_true same
  | waiting wait point =>
    have follows : ∀ memory point, (program call).step .go memory (.waiting wait point) =
        (point.step .go memory.counter).map fun result => (memory, result.elim (.waiting wait) wait.next) := by
      intro memory point
      simp only [program, step]
      congr 1
      funext result
      cases result <;> rfl
    refine wait_comes follows (fun memory positive => ?_) positive point
    rw [Wait.next, if_pos (Or.inl rfl)]
    exact attempt memory _ positive

/-- **Where nobody can go on, an acquisition that has not ended finds nothing.** -/
theorem counter_eq_zero_of_quiet {memory : Memory} {pc : Pc} (inside : pc.acquiring = true)
    (quiet : step .go memory pc = none) : memory.counter = 0 := by
  by_contra positive
  have comes : (program fun (_ : Unit) _ => none).Comes .go (fun memory => decide (0 < memory.counter))
      (· = .outside true) memory pc := acquisition_comes inside (Nat.pos_of_ne_zero positive)
  obtain ⟨n, after, computed, reached⟩ := comes (fun _ => id) fun _ _ => rfl
  cases n with
  | zero =>
    cases computed
    have ended : pc = .outside true := reached
    rw [ended] at inside
    cases inside
  | succ n =>
    obtain ⟨between, stepped, -⟩ := Option.bind_eq_some_iff.mp computed
    rw [show (program _).step .go memory pc = none from quiet] at stepped
    cases stepped

end Runs

end NovaSync.EventfdTokens
