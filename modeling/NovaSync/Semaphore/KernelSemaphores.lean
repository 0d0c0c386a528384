/-
**`posix_semaphore`, `mach_semaphore`, `dispatch_semaphore` and `win32_semaphore`.**

The tokens are the value of a kernel semaphore; the four wrappers differ in how they release, in what they do
about a wait that the kernel interrupts, and in how a wait with a timeout comes about. `sem_post`,
`semaphore_signal` and `dispatch_semaphore_signal` are called once for each token, `ReleaseSemaphore` once for all
of them; nobody looks at what they return, so that tokens which do not fit are lost. Time is not modelled: a
deadline may have passed at any moment. A semaphore is constructed with a number of tokens that its kernel takes.

* `reach_ledger` — the refinement: a run is a run of the abstract semaphore in which nobody registers.
* `kernelSemaphore_accounts` — every token that the kernel has taken is there or has been handed out.
* `kernelSemaphore_releases` — what `release` is asked for is taken, lost, or still to be given; none is lost as
  long as all of it fits, and the rest is lost where it does not.
* `kernelSemaphore_answers` — what an acquisition returns was the case at a moment of the call, but for the errors
  that it returns as `false`.
* `kernelSemaphore_no_stranded_waiter` — a token is there for every waiter, and a waiter that cannot go on means
  that all tokens which the kernel has taken have been handed out.
* `machTimespec_exact_iff` — `mach_semaphore::try_acquire_for` waits for another time if the duration is negative.
-/

import NovaSync.Concurrency.Moments
import NovaSync.Detail.Atomic
import NovaSync.Detail.Kevent
import NovaSync.Detail.TimedWait
import NovaSync.Semaphore.TokenLedger

set_option linter.unusedSectionVars false

namespace NovaSync.KernelSemaphores

open Concurrency Detail Semaphore

/-! ### The program -/

inductive Kernel
  | posix
  | mach
  | dispatch
  | win32
deriving DecidableEq, Repr

/-- `SEM_VALUE_MAX` and `LONG_MAX`. -/
def valueMax : ℕ := 2 ^ 31 - 1

/-- The kernel semaphore can have this value; those of Apple have no documented limit. -/
def Kernel.fits (kernel : Kernel) (value : ℕ) : Bool :=
  match kernel with
  | .posix | .win32 => decide (value ≤ valueMax)
  | .mach | .dispatch => true

/-- The value of the kernel semaphore, and the history of the run: the tokens that it has taken from a release, those
handed out, and those that a release has lost. -/
structure Memory where
  value : ℕ
  released : ℕ := 0
  acquired : ℕ := 0
  dropped : ℕ := 0
deriving DecidableEq, Repr

namespace Memory

def acquire (memory : Memory) : Memory :=
  { memory with value := memory.value - 1, acquired := memory.acquired + 1 }

def give (memory : Memory) (given lost : ℕ) : Memory :=
  { memory with
    value := memory.value + given, released := memory.released + given, dropped := memory.dropped + lost }

/-- `sem_post`, `semaphore_signal` or `dispatch_semaphore_signal`. -/
def post (memory : Memory) (kernel : Kernel) : Memory :=
  if kernel.fits (memory.value + 1) then memory.give 1 0 else memory.give 0 1

/-- `ReleaseSemaphore( handle_, LONG( n ), nullptr )`, which fails on a count that is not positive or that the value
has no room for. -/
def releaseSemaphore (memory : Memory) (n : ℕ) : Memory :=
  if 0 < int32 n ∧ memory.value + (int32 n).toNat ≤ valueMax then
    memory.give (int32 n).toNat (n - (int32 n).toNat)
  else memory.give 0 n

end Memory

/-- `positive` says whether the duration is, as far as the wrapper looks at it. -/
inductive Op
  | release (n : ℕ)
  | acquire
  | tryAcquire
  | tryAcquireFor (positive : Bool)
  | tryAcquireUntil (clock : Clock)
deriving DecidableEq, Repr

/-- What the last call has returned: nothing; `true`, or `acquire` with a token; `false` from an attempt that has
found no token; `false` from a wait that has timed out; `false` because of an error, an interruption, or a deadline
that had passed before the wait began. -/
inductive Report
  | nothing
  | acquired
  | empty
  | timedOut
  | gaveUp
deriving DecidableEq, Repr

/-- The next system call of a thread.

* `outside report`: none.
* `post n`: the loop of `release`, with `n` tokens to go; `releaseSemaphore n`: that of Windows.
* `wait`: `sem_wait`, `semaphore_wait`, `dispatch_semaphore_wait` or `WaitForSingleObject` without a timeout.
* `attempt`: the same for no time at all.
* `timed`: `sem_timedwait`, `semaphore_timedwait`, `dispatch_semaphore_wait` or `WaitForMultipleObjects`.
* `rest`: `abs_time - Clock::now()` before `try_acquire_for`, on Windows; `compare`: the comparison of the deadline
  with the clock; `timer`: `wait_handle_until` before it waits. -/
inductive Pc
  | outside (report : Report)
  | post (n : ℕ)
  | releaseSemaphore (n : ℕ)
  | wait
  | attempt
  | timed
  | rest
  | compare
  | timer
deriving DecidableEq, Repr

def begin (kernel : Kernel) : Op → Pc
  | .release n => if kernel = .win32 then .releaseSemaphore n else .post n
  | .acquire => .wait
  | .tryAcquire => .attempt
  | .tryAcquireFor positive =>
      match kernel with
      | .posix | .mach => .timed
      | .dispatch => if positive then .timed else .attempt
      | .win32 => if positive then .compare else .attempt
  | .tryAcquireUntil clock =>
      match kernel, clock with
      | .posix, .system => .timed
      | .win32, .other => .rest
      | .posix, .steady | .posix, .other | .mach, _ | .dispatch, _ | .win32, .system | .win32, .steady => .compare

def call (kernel : Kernel) (op : Op) : Pc → Option Pc
  | .outside _ => some (begin kernel op)
  | _ => none

/-- The next system call, as the environment resolves it. A wait reports a timeout only while there is no token. -/
def step (kernel : Kernel) (choice : Choice) (memory : Memory) : Pc → Option (Memory × Pc)
  | .outside _ => none
  | .post 0 => ordinary choice (memory, .outside .nothing)
  | .post (n + 1) => ordinary choice (memory.post kernel, .post n)
  | .releaseSemaphore n => ordinary choice (memory.releaseSemaphore n, .outside .nothing)
  | .wait =>
      match choice, kernel with
      | .go, _ => if 0 < memory.value then some (memory.acquire, .outside .acquired) else none
      | .interrupted, .posix | .interrupted, .mach => some (memory, .wait)
      | _, _ => none
  | .attempt =>
      match choice, kernel with
      | .go, _ =>
          if 0 < memory.value then some (memory.acquire, .outside .acquired) else some (memory, .outside .empty)
      | .interrupted, .posix | .interrupted, .mach => some (memory, .outside .gaveUp)
      | _, _ => none
  | .timed =>
      match choice, kernel with
      | .go, _ => if 0 < memory.value then some (memory.acquire, .outside .acquired) else none
      | .expired, _ => if memory.value = 0 then some (memory, .outside .timedOut) else none
      | .interrupted, .posix => some (memory, .timed)
      -- `KERN_ABORTED`, which `acquire` tries again
      | .interrupted, .mach => some (memory, .outside .gaveUp)
      | .failed, .posix | .failed, .mach | .failed, .win32 => some (memory, .outside .gaveUp)
      | _, _ => none
  | .rest =>
      match choice with
      | .go => some (memory, .compare)
      | .expired => some (memory, .attempt)
      | .spurious | .interrupted | .failed => none
  | .compare =>
      match choice with
      | .go => some (memory, if kernel = .win32 then .timer else .timed)
      | .expired => some (memory, .attempt)
      | .spurious | .interrupted | .failed => none
  | .timer =>
      match choice with
      | .go => some (memory, .timed)
      | .expired | .failed => some (memory, .outside .gaveUp)
      | .spurious | .interrupted => none

/-- The semaphore as a thread program; nobody sleeps on a futex. -/
def program (kernel : Kernel) : Program Memory Pc Op Choice where
  idle := .outside .nothing
  call := call kernel
  step := step kernel
  wake := fun _ => none
  asleep := fun _ => false
  woken := id

theorem program_silent (kernel : Kernel) : (program kernel).Silent := fun _ => rfl

/-- What a constructor passes on to the kernel unchanged. Larger or negative numbers are left out: `sem_init` and
`semaphore_create` get them as `unsigned( initial )` and `int( initial )`, `CreateSemaphoreW` as `LONG( initial )`, and
the constructors assert that the kernel takes them; that of `dispatch_semaphore` signals once for each token, so that
it takes any number that is not negative. -/
abbrev Initial := {initial : ℕ // initial ≤ valueMax}

/-- The semaphore used by the threads of `Thread`. -/
abbrev system (kernel : Kernel) (initial : Initial) (Thread : Type*) [DecidableEq Thread] [Fintype Thread] :
    System (State Thread Memory Pc) (Action Thread Op Choice) :=
  (program kernel).system { value := initial }

/-- There is a token; there is none. -/
inductive Moment
  | token
  | none
deriving DecidableEq, Repr

def holds {Thread : Type*} (moment : Moment) (state : State Thread Memory Pc) : Bool :=
  match moment with
  | .token => decide (0 < state.memory.value)
  | .none => decide (state.memory.value = 0)

/-- The semaphore beside the moments of the threads' calls. -/
abbrev watched (kernel : Kernel) (initial : Initial) (Thread : Type*) [DecidableEq Thread] [Fintype Thread] :
    System (State Thread Memory Pc × (Thread → Moment → Bool)) (Action Thread Op Choice) :=
  (program kernel).watched { value := initial } holds

/-- The thread is inside an acquisition. -/
def Pc.acquiring : Pc → Bool
  | .wait | .attempt | .timed | .rest | .compare | .timer => true
  | .outside _ | .post _ | .releaseSemaphore _ => false

/-- What a report tells of the value. -/
def Report.Tells (report : Report) (moment : Moment) : Prop :=
  match report with
  | .acquired => moment = .token
  | .empty | .timedOut => moment = .none
  | .nothing | .gaveUp => False

/-- The thread is outside, with a report of the moment. -/
def Pc.Owes (pc : Pc) (moment : Moment) : Prop := ∃ report : Report, pc = .outside report ∧ report.Tells moment

/-- Only Windows has a timer and `ReleaseSemaphore`, and `dispatch_semaphore` never gives up. -/
def Native (kernel : Kernel) (pc : Pc) : Prop :=
  (pc = .timer → kernel = .win32) ∧ (∀ n, pc = .releaseSemaphore n → kernel = .win32) ∧
    (pc = .outside .gaveUp → kernel ≠ .dispatch)

/-- The tokens that a running `release` has still to give. -/
def Pc.pending : Pc → ℕ
  | .post n | .releaseSemaphore n => n
  | _ => 0

/-! ### What a step can do -/

/-- **The effects of a step.** An acquisition moves on, takes a token, finds none, or gives up; a release gives the
kernel what it takes of the tokens, and loses others, but none if all that it has still to give fits. -/
inductive Effect (kernel : Kernel) (memory : Memory) (pc : Pc) : Memory → Pc → Prop
  | moves {after : Pc} : pc.acquiring = true → after.acquiring = true → (after = .timer → kernel = .win32) →
      Effect kernel memory pc memory after
  | acquires : pc.acquiring = true → 0 < memory.value →
      Effect kernel memory pc memory.acquire (.outside .acquired)
  | finds {report : Report} : pc.acquiring = true → memory.value = 0 → report = .empty ∨ report = .timedOut →
      Effect kernel memory pc memory (.outside report)
  | givesUp : pc.acquiring = true → kernel ≠ .dispatch ∨ pc = .timer →
      Effect kernel memory pc memory (.outside .gaveUp)
  | gives {given lost : ℕ} {after : Pc} : pc.acquiring = false →
      (kernel.fits memory.value = true → kernel.fits (memory.value + given) = true) →
      given + lost + after.pending = pc.pending →
      (Native kernel pc → kernel.fits (memory.value + pc.pending) = true → lost = 0) →
      (after = .outside .nothing ∨ ∃ n, after = .post n) →
      Effect kernel memory pc (memory.give given lost) after

variable {kernel : Kernel}

/-- A value that fits is the smaller for a smaller one. -/
theorem fits_mono {less more : ℕ} (le : less ≤ more) (fits : kernel.fits more = true) : kernel.fits less = true := by
  cases kernel with
  | posix | win32 =>
    simp only [Kernel.fits, decide_eq_true_eq] at fits ⊢
    exact le.trans fits
  | mach | dispatch => rfl

theorem gives_post {memory : Memory} {n : ℕ} :
    Effect kernel memory (.post (n + 1)) (memory.post kernel) (.post n) := by
  unfold Memory.post
  split
  · rename_i room
    exact .gives rfl (fun _ => room) (Nat.add_comm 1 n) (fun _ _ => rfl) (Or.inr ⟨n, rfl⟩)
  · rename_i full
    refine .gives rfl id ?_ (fun _ fits => absurd (fits_mono ?_ fits) full) (Or.inr ⟨n, rfl⟩)
    · simp only [Pc.pending]
      omega
    · simp only [Pc.pending]
      omega

/-- `LONG( n )` of a count that fits is the count; of another one it is less. -/
theorem long_toNat (n : ℕ) : n ≤ valueMax ∧ int32 n = n ∨ valueMax < n ∧ (int32 n).toNat < n := by
  have inside := inInt32_int32 n
  unfold InInt32 at inside
  unfold valueMax
  rcases Nat.lt_or_ge n (2 ^ 31) with small | large
  · exact Or.inl ⟨by omega, int32_eq_self ⟨by omega, by omega⟩⟩
  · exact Or.inr ⟨by omega, by omega⟩

/-- What fits is known of the one kernel with `ReleaseSemaphore`. -/
theorem fits_win32 {n value : ℕ} (native : Native kernel (.releaseSemaphore n)) :
    kernel.fits value = true ↔ value ≤ valueMax := by
  rw [native.2.1 n rfl]
  simp only [Kernel.fits, decide_eq_true_eq]

theorem gives_releaseSemaphore {memory : Memory} {n : ℕ} :
    Effect kernel memory (.releaseSemaphore n) (memory.releaseSemaphore n) (.outside .nothing) := by
  unfold Memory.releaseSemaphore
  split
  · rename_i takes
    refine .gives rfl (fun _ => ?_) ?_ (fun native fits => ?_) (Or.inl rfl)
    · cases kernel with
      | posix | win32 =>
        simp only [Kernel.fits, decide_eq_true_eq]
        exact takes.2
      | mach | dispatch => rfl
    · have most : (int32 n).toNat ≤ n := by
        rcases long_toNat n with ⟨-, same⟩ | ⟨-, less⟩
        · rw [same, Int.toNat_natCast]
        · exact less.le
      simp only [Pc.pending]
      omega
    · have small : memory.value + n ≤ valueMax := (fits_win32 native).mp fits
      rcases long_toNat n with ⟨-, same⟩ | ⟨large, -⟩
      · rw [same, Int.toNat_natCast, Nat.sub_self]
      · omega
  · rename_i refuses
    refine .gives rfl id ?_ (fun native fits => ?_) (Or.inl rfl)
    · simp only [Pc.pending]
      omega
    · have small : memory.value + n ≤ valueMax := (fits_win32 native).mp fits
      rcases long_toNat n with ⟨-, same⟩ | ⟨large, -⟩
      · rw [same, Int.toNat_natCast] at refuses
        omega
      · omega

theorem step_effect {choice : Choice} {memory after : Memory} {pc moved : Pc}
    (stepped : step kernel choice memory pc = some (after, moved)) : Effect kernel memory pc after moved := by
  cases pc with
  | outside report => cases stepped
  | post n =>
    cases n with
    | zero =>
      cases (ordinary_eq_some stepped).2
      have returns : Effect kernel memory (.post 0) (memory.give 0 0) (.outside .nothing) := by
        exact .gives rfl id rfl (fun _ _ => rfl) (Or.inl rfl)
      exact returns
    | succ n =>
      cases (ordinary_eq_some stepped).2
      exact gives_post
  | releaseSemaphore n =>
    obtain ⟨given, returned⟩ := Prod.mk.inj (ordinary_eq_some stepped).2
    rw [given, returned]
    exact gives_releaseSemaphore
  | wait =>
    simp only [step] at stepped
    split at stepped
    · split at stepped <;> cases stepped
      exact .acquires rfl ‹_›
    · cases stepped
      exact .moves rfl rfl nofun
    · cases stepped
      exact .moves rfl rfl nofun
    · cases stepped
  | attempt =>
    simp only [step] at stepped
    split at stepped
    · split at stepped <;> cases stepped
      · exact .acquires rfl ‹_›
      · exact .finds rfl (Nat.eq_zero_of_not_pos ‹_›) (Or.inl rfl)
    · cases stepped
      exact .givesUp rfl (Or.inl nofun)
    · cases stepped
      exact .givesUp rfl (Or.inl nofun)
    · cases stepped
  | timed =>
    simp only [step] at stepped
    split at stepped
    · split at stepped <;> cases stepped
      exact .acquires rfl ‹_›
    · split at stepped <;> cases stepped
      exact .finds rfl ‹_› (Or.inr rfl)
    · cases stepped
      exact .moves rfl rfl nofun
    · cases stepped
      exact .givesUp rfl (Or.inl nofun)
    · cases stepped
      exact .givesUp rfl (Or.inl nofun)
    · cases stepped
      exact .givesUp rfl (Or.inl nofun)
    · cases stepped
      exact .givesUp rfl (Or.inl nofun)
    · cases stepped
  | rest =>
    cases choice with
    | go | expired =>
      cases stepped
      exact .moves rfl rfl nofun
    | spurious | interrupted | failed => cases stepped
  | compare =>
    cases choice with
    | go =>
      cases stepped
      split
      · rename_i windows
        exact .moves rfl rfl fun _ => windows
      · exact .moves rfl rfl nofun
    | expired =>
      cases stepped
      exact .moves rfl rfl nofun
    | spurious | interrupted | failed => cases stepped
  | timer =>
    cases choice with
    | go =>
      cases stepped
      exact .moves rfl rfl nofun
    | expired | failed =>
      cases stepped
      exact .givesUp rfl (Or.inr rfl)
    | spurious | interrupted => cases stepped

theorem call_begins {op : Op} {pc moved : Pc} (called : call kernel op pc = some moved) :
    moved = begin kernel op ∧ pc.acquiring = false := by
  cases pc with
  | outside report =>
    cases called
    exact ⟨rfl, rfl⟩
  | post | releaseSemaphore | wait | attempt | timed | rest | compare | timer => cases called

/-- An operation begins inside, and not with the timer. -/
theorem begin_inside (op : Op) : (∀ report, begin kernel op ≠ .outside report) ∧ begin kernel op ≠ .timer := by
  cases op with
  | release n =>
    simp only [begin]
    split <;> exact ⟨nofun, nofun⟩
  | acquire | tryAcquire => exact ⟨nofun, nofun⟩
  | tryAcquireFor positive => cases kernel <;> cases positive <;> exact ⟨nofun, nofun⟩
  | tryAcquireUntil clock => cases kernel <;> cases clock <;> exact ⟨nofun, nofun⟩

theorem begin_releaseSemaphore {op : Op} {n : ℕ} (here : begin kernel op = .releaseSemaphore n) :
    kernel = .win32 := by
  cases op with
  | release m =>
    simp only [begin] at here
    split at here
    · assumption
    · cases here
  | acquire | tryAcquire => cases here
  | tryAcquireFor positive => cases kernel <;> cases positive <;> cases here
  | tryAcquireUntil clock => cases kernel <;> cases clock <;> cases here

/-! ### The abstract semaphore -/

section Runs

variable {initial : Initial} {Thread : Type*} [DecidableEq Thread] [Fintype Thread]
  {state : State Thread Memory Pc} {past : Thread → Moment → Bool}

/-- The numbers of a memory. Nobody registers. -/
def ledger (memory : Memory) : Ledger where
  count := memory.value
  released := memory.released
  acquired := memory.acquired
  waiting := 0
  retaking := 0

/-- **A step is a move**, and takes no token that is not there. -/
theorem effect_ledger {memory after : Memory} {pc moved : Pc} (effect : Effect kernel memory pc after moved) :
    ∃ move, (ledger memory).Enabled move ∧ (ledger memory).Spares move ∧
      ledger after = (ledger memory).apply move := by
  cases effect with
  | moves | finds | givesUp => exact ⟨.stay, trivial, trivial, rfl⟩
  | acquires inside positive =>
    have available : 0 < (ledger memory).count := Int.natCast_pos.mpr positive
    refine ⟨.take, available, available, Ledger.ext ?_ rfl rfl rfl rfl⟩
    simp only [ledger, Memory.acquire, Ledger.apply]
    omega
  | @gives given lost =>
    refine ⟨.release given, trivial, trivial, Ledger.ext ?_ rfl rfl rfl rfl⟩
    simp only [ledger, Memory.give, Ledger.apply, Nat.cast_add]

/-- **The semaphore refines the abstract one.** -/
theorem reach_ledger (reached : (system kernel initial Thread).Reachable state) :
    (Ledger.system initial).Reach Ledger.Spares (ledger state.memory) := by
  refine reached.invariant (P := fun state => (Ledger.system initial).Reach Ledger.Spares (ledger state.memory))
    .start fun state action after before refines _ taken => ?_
  rcases (program_silent kernel).next_cases taken with ⟨t, op, moved, -, -, rfl⟩ |
    ⟨t, choice, memory, moved, -, stepped, rfl⟩
  · exact refines
  · obtain ⟨move, enabled, spares, result⟩ := effect_ledger (step_effect stepped)
    refine refines.step spares ?_
    rw [result]
    exact if_pos enabled

theorem fits_of_reachable (reached : (system kernel initial Thread).Reachable state) :
    kernel.fits state.memory.value = true := by
  have start : kernel.fits initial = true := by
    cases kernel with
    | posix | win32 => exact decide_eq_true initial.2
    | mach | dispatch => rfl
  refine reached.invariant (P := fun state => kernel.fits state.memory.value = true) start
    fun state action after before fits _ taken => ?_
  rcases (program_silent kernel).next_cases taken with ⟨t, op, moved, -, -, rfl⟩ |
    ⟨t, choice, memory, moved, -, stepped, rfl⟩
  · exact fits
  · cases step_effect stepped with
    | moves | finds | givesUp => exact fits
    | acquires =>
      cases kernel with
      | posix | win32 =>
        have fewer : state.memory.acquire.value ≤ state.memory.value := Nat.sub_le _ _
        simp only [Kernel.fits, decide_eq_true_eq] at fits ⊢
        exact fewer.trans fits
      | mach | dispatch => rfl
    | gives _ room => exact room fits

theorem tokens_of_reachable (reached : (system kernel initial Thread).Reachable state) :
    state.memory.value + state.memory.acquired = initial + state.memory.released := by
  have tokens := Ledger.balanced_of_reach (reach_ledger reached)
  unfold Ledger.Balanced ledger at tokens
  simp only at tokens
  omega

/-- **Every token that the kernel has taken is there or has been handed out.** In every run the semaphore is the
abstract one; its value and the acquisitions add up to the tokens it was constructed with and those that the kernel
has taken from a release, and the value is one that the kernel allows. -/
theorem kernelSemaphore_accounts (reached : (system kernel initial Thread).Reachable state) :
    (Ledger.system initial).Reach Ledger.Spares (ledger state.memory) ∧
      state.memory.value + state.memory.acquired = initial + state.memory.released ∧
      kernel.fits state.memory.value = true := by
  exact ⟨reach_ledger reached, tokens_of_reachable reached, fits_of_reachable reached⟩

/-- Thread 0 takes the only token; the wait of thread 1 is interrupted, and goes on. -/
theorem kernelSemaphore_accounts_interrupted :
    ∃ state, (system .posix ⟨1, by decide⟩ (Fin 2)).Reachable state ∧ state.thread 0 = .outside .acquired ∧
      state.thread 1 = .wait ∧ (Ledger.system 1).Reach Ledger.Spares (ledger state.memory) ∧
      state.memory.value + state.memory.acquired = 1 + state.memory.released ∧
      Kernel.fits .posix state.memory.value = true := by
  obtain ⟨state, reached, computed⟩ := System.exists_reachable_of_run (system .posix ⟨1, by decide⟩ (Fin 2))
    [.call 0 .acquire, .call 1 .acquire, .step 1 .interrupted, .step 0 .go, .step 1 .interrupted]
    (fun state => decide (state.thread 0 = .outside .acquired ∧ state.thread 1 = .wait)) (by decide +kernel)
  obtain ⟨acquired, waiting⟩ := of_decide_eq_true computed
  exact ⟨state, reached, acquired, waiting, kernelSemaphore_accounts reached⟩

/-! ### Places -/

theorem Native.call {op : Op} {pc moved : Pc} (called : KernelSemaphores.call kernel op pc = some moved) :
    Native kernel moved := by
  obtain ⟨inside, untimed⟩ := begin_inside op
  rw [(call_begins called).1]
  refine ⟨fun timer => absurd timer untimed, fun n here => ?_, fun here => absurd here (inside _)⟩
  exact begin_releaseSemaphore here

theorem Native.effect {memory after : Memory} {pc moved : Pc} (native : Native kernel pc)
    (effect : Effect kernel memory pc after moved) : Native kernel moved := by
  cases effect with
  | moves _ inside windows =>
    refine ⟨windows, ?_, ?_⟩
    · rintro n rfl
      cases inside
    · rintro rfl
      cases inside
  | acquires => exact ⟨nofun, nofun, nofun⟩
  | finds _ _ reports => rcases reports with rfl | rfl <;> exact ⟨nofun, nofun, nofun⟩
  | givesUp _ errs =>
    refine ⟨nofun, nofun, fun _ => ?_⟩
    rcases errs with other | timer
    · exact other
    · rw [native.1 timer]
      nofun
  | gives _ _ _ _ places => rcases places with rfl | ⟨n, rfl⟩ <;> exact ⟨nofun, nofun, nofun⟩

theorem native_of_reachable (reached : (system kernel initial Thread).Reachable state) (t : Thread) :
    Native kernel (state.thread t) :=
  (program_silent kernel).everywhere (P := Native kernel) ⟨nofun, nofun, nofun⟩
    (fun _ _ _ _ called => Native.call called)
    (fun _ _ _ _ _ native stepped => native.effect (step_effect stepped)) reached t

/-! ### Lost tokens -/

/-- The tokens that the calls of `release` have asked for, as a history. -/
def noteAsked (_ : State Thread Memory Pc) (action : Action Thread Op Choice) (_ : State Thread Memory Pc)
    (asked : ℕ) : ℕ :=
  match action with
  | .call _ (.release n) => asked + n
  | _ => asked

/-- The semaphore beside the tokens that it is asked to release. -/
abbrev asking (kernel : Kernel) (initial : Initial) (Thread : Type*) [DecidableEq Thread] [Fintype Thread] :
    System (State Thread Memory Pc × ℕ) (Action Thread Op Choice) :=
  (system kernel initial Thread).record 0 noteAsked

/-- The tokens that the running releases have still to give. -/
def pending (state : State Thread Memory Pc) : ℕ := ∑ t, (state.thread t).pending

theorem pending_update (state : State Thread Memory Pc) (memory : Memory) (t : Thread) (moved : Pc) :
    pending ⟨memory, Function.update state.thread t moved⟩ + (state.thread t).pending =
      pending state + moved.pending :=
  sum_update Pc.pending state.thread t moved

theorem pending_le (state : State Thread Memory Pc) (t : Thread) : (state.thread t).pending ≤ pending state :=
  Finset.single_le_sum (fun u _ => Nat.zero_le (state.thread u).pending) (Finset.mem_univ t)

/-- A call asks for what it is going to give. -/
theorem call_asks {t : Thread} {op : Op} {moved : Pc}
    (called : KernelSemaphores.call kernel op (state.thread t) = some moved) (asked : ℕ)
    (after : State Thread Memory Pc) :
    noteAsked state (.call t op) after asked = asked + moved.pending ∧ (state.thread t).pending = 0 := by
  obtain ⟨rfl, outside⟩ := call_begins called
  refine ⟨?_, ?_⟩
  · cases op with
    | release n =>
      simp only [noteAsked, begin]
      split <;> rfl
    | acquire | tryAcquire => rfl
    | tryAcquireFor positive => cases kernel <;> cases positive <;> rfl
    | tryAcquireUntil clock => cases kernel <;> cases clock <;> rfl
  · cases here : state.thread t with
    | outside report => rfl
    | post | releaseSemaphore | wait | attempt | timed | rest | compare | timer =>
      rw [here] at called
      cases called

/-- A step gives or loses what is no longer to be given. -/
theorem effect_pending {memory after : Memory} {pc moved : Pc} (effect : Effect kernel memory pc after moved) :
    after.released + after.dropped + moved.pending = memory.released + memory.dropped + pc.pending := by
  have nothing : ∀ {place : Pc}, place.acquiring = true → place.pending = 0 := by
    intro place inside
    cases place with
    | outside | post | releaseSemaphore => cases inside
    | wait | attempt | timed | rest | compare | timer => rfl
  cases effect with
  | moves inside onward => rw [nothing inside, nothing onward]
  | acquires inside | finds inside | givesUp inside =>
    rw [nothing inside]
    rfl
  | gives _ _ balance =>
    simp only [Memory.give]
    omega

/-- **What is asked for is taken, lost, or still to be given.** -/
theorem asked_of_reachable {asked : ℕ} (reached : (asking kernel initial Thread).Reachable (state, asked)) :
    asked = state.memory.released + state.memory.dropped + pending state := by
  have nothing : pending (system kernel initial Thread).start = 0 := Finset.sum_eq_zero fun _ _ => rfl
  have start : 0 = 0 + 0 + pending (system kernel initial Thread).start := by omega
  refine reached.invariant (P := fun here => here.2 = here.1.memory.released + here.1.memory.dropped + pending here.1)
    start ?_
  rintro ⟨state, asked⟩ action later _ balance _ taken
  rcases (program_silent kernel).record_cases taken with ⟨t, op, moved, rfl, called, rfl⟩ |
    ⟨t, choice, memory, moved, rfl, stepped, rfl⟩
  · obtain ⟨asks, outside⟩ := call_asks called asked ⟨state.memory, Function.update state.thread t moved⟩
    have change := pending_update state state.memory t moved
    simp only at balance asks ⊢
    omega
  · have change := pending_update state memory t moved
    have balanced := effect_pending (step_effect stepped)
    simp only [noteAsked] at balance ⊢
    omega

/-- **Nothing is lost** as long as all that was ever asked for fits. -/
theorem dropped_of_reachable {asked : ℕ} (reached : (asking kernel initial Thread).Reachable (state, asked))
    (fits : kernel.fits (initial + asked) = true) : state.memory.dropped = 0 := by
  refine reached.invariant (P := fun here => kernel.fits (initial + here.2) = true → here.1.memory.dropped = 0)
    (fun _ => rfl) ?_ fits
  rintro ⟨state, asked⟩ action later before kept _ taken fits
  rcases (program_silent kernel).record_cases taken with ⟨t, op, moved, rfl, called, rfl⟩ |
    ⟨t, choice, memory, moved, rfl, stepped, rfl⟩
  · refine kept (fits_mono ?_ fits)
    rw [(call_asks called _ _).1]
    omega
  · have fits : kernel.fits (initial + asked) = true := fits
    have none : state.memory.dropped = 0 := kept fits
    cases step_effect stepped with
    | moves | acquires | finds | givesUp => exact none
    | gives _ _ _ loses =>
      have balance := asked_of_reachable before
      have tokens := tokens_of_reachable before.erase
      have mine := pending_le state t
      have room : state.memory.value + (state.thread t).pending ≤ initial + asked := by omega
      have lost := loses (native_of_reachable before.erase t) (fits_mono room fits)
      simp only [Memory.give, none, lost]

/-- **What becomes of the tokens that are released.** Those that the calls of `release` have asked for have been
taken by the kernel, or lost, or are still to be given. `mach_semaphore` and `dispatch_semaphore` lose none;
`posix_semaphore` and `win32_semaphore` lose none as long as the initial tokens and all that were asked for fit
together, and what does not fit, was not acquired, and is not still to be given, is lost. -/
theorem kernelSemaphore_releases {asked : ℕ} (reached : (asking kernel initial Thread).Reachable (state, asked)) :
    asked = state.memory.released + state.memory.dropped + pending state ∧
      (kernel = .mach ∨ kernel = .dispatch ∨ initial + asked ≤ valueMax → state.memory.dropped = 0) ∧
      (kernel = .posix ∨ kernel = .win32 →
        initial + asked ≤ valueMax + state.memory.acquired + state.memory.dropped + pending state) := by
  have balance := asked_of_reachable reached
  refine ⟨balance, fun unlimited => dropped_of_reachable reached ?_, fun limited => ?_⟩
  · cases kernel with
    | mach | dispatch => rfl
    | posix | win32 => exact decide_eq_true ((unlimited.resolve_left nofun).resolve_left nofun)
  · have tokens := tokens_of_reachable reached.erase
    have most : state.memory.value ≤ valueMax := by
      have fits := fits_of_reachable reached.erase
      rcases limited with rfl | rfl <;> exact of_decide_eq_true fits
    omega

/-- Thread 0 asks Windows for 2^32 + 5 tokens, which gives 5 of them. -/
theorem kernelSemaphore_releases_truncated :
    ∃ state asked, (asking .win32 ⟨0, by decide⟩ (Fin 1)).Reachable (state, asked) ∧ asked = 2 ^ 32 + 5 ∧
      state.memory.released = 5 ∧ state.memory.dropped = 2 ^ 32 ∧
      asked = state.memory.released + state.memory.dropped + pending state := by
  obtain ⟨⟨state, asked⟩, reached, computed⟩ := System.exists_reachable_of_run
    (asking .win32 ⟨0, by decide⟩ (Fin 1)) [.call 0 (.release (2 ^ 32 + 5)), .step 0 .go]
    (fun here => decide (here.2 = 2 ^ 32 + 5 ∧ here.1.memory.released = 5 ∧ here.1.memory.dropped = 2 ^ 32))
    (by decide +kernel)
  obtain ⟨all, given, lost⟩ := of_decide_eq_true computed
  exact ⟨state, asked, reached, all, given, lost, (kernelSemaphore_releases reached).1⟩

/-! ### Answers -/

/-- An acquisition gives up because it is interrupted, because its wait fails, or because its deadline has passed
before it waits. -/
theorem step_gaveUp {choice : Choice} {memory after : Memory} {pc : Pc}
    (stepped : step kernel choice memory pc = some (after, .outside .gaveUp)) :
    choice = .interrupted ∨ choice = .failed ∨ choice = .expired ∧ pc = .timer := by
  cases choice with
  | interrupted => exact Or.inl rfl
  | failed => exact Or.inr (Or.inl rfl)
  | spurious =>
    cases pc with
    | post n => cases n <;> cases (ordinary_eq_some stepped).1
    | releaseSemaphore n => cases (ordinary_eq_some stepped).1
    | outside | wait | attempt | timed | rest | compare | timer => cases kernel <;> cases stepped
  | expired =>
    cases pc with
    | timer => exact Or.inr (Or.inr ⟨rfl, rfl⟩)
    | post n => cases n <;> cases (ordinary_eq_some stepped).1
    | releaseSemaphore n => cases (ordinary_eq_some stepped).1
    | timed =>
      simp only [step] at stepped
      split at stepped <;> cases stepped
    | outside | wait | attempt | rest | compare => cases kernel <;> cases stepped
  | go =>
    cases pc with
    | post n => cases n <;> cases (Prod.mk.inj (ordinary_eq_some stepped).2).2
    | releaseSemaphore n => cases (Prod.mk.inj (ordinary_eq_some stepped).2).2
    | wait | attempt | timed =>
      simp only [step] at stepped
      split at stepped <;> cases stepped
    | compare =>
      simp only [step] at stepped
      cases kernel <;> cases stepped
    | outside | rest | timer => cases stepped

/-- **What an acquisition returns was the case at a moment of the call**: a token was there for one that has
returned with it, and none for one that has found none or timed out. A step that gives up is interrupted, fails, or
finds the deadline passed before the wait; `dispatch_semaphore` has no such step. -/
theorem kernelSemaphore_answers (reached : (watched kernel initial Thread).Reachable (state, past)) :
    (∀ t report, state.thread t = .outside report →
      (∀ moment, report.Tells moment → past t moment = true) ∧ (report = .gaveUp → kernel ≠ .dispatch)) ∧
    ∀ t choice after, (system kernel initial Thread).next state (.step t choice) = some after →
      after.thread t = .outside .gaveUp →
      choice = .interrupted ∨ choice = .failed ∨ choice = .expired ∧ state.thread t = .timer := by
  have idle : ∀ moment, ¬ (program kernel).idle.Owes moment := by
    rintro moment ⟨report, here, told⟩
    cases here
    exact told
  have calls : ∀ op pc moved moment, (program kernel).call op pc = some moved → ¬ moved.Owes moment := by
    rintro op pc moved moment called ⟨report, here, -⟩
    exact (begin_inside op).1 report ((call_begins called).1.symm.trans here)
  have steps : ∀ (state : State Thread Memory Pc) t choice memory moved moment,
      (program kernel).step choice state.memory (state.thread t) = some (memory, moved) → moved.Owes moment →
      (state.thread t).Owes moment ∨ holds moment state = true ∨
        holds moment ⟨memory, Function.update state.thread t moved⟩ = true := by
    rintro state t choice memory moved moment stepped ⟨report, rfl, told⟩
    refine Or.inr (Or.inl ?_)
    cases step_effect stepped with
    | moves _ inside => cases inside
    | acquires _ positive =>
      cases told
      exact decide_eq_true positive
    | finds _ empty reports =>
      have about : moment = .none := by rcases reports with rfl | rfl <;> exact told
      subst about
      exact decide_eq_true empty
    | givesUp => exact told.elim
    | gives _ _ _ _ places =>
      rcases places with here | ⟨n, here⟩ <;> cases here
      exact told.elim
  refine ⟨fun t report returned => ⟨fun moment told => ?_, fun gaveUp => ?_⟩, fun t choice after taken gaveUp => ?_⟩
  · exact Program.past_of_owed (program_silent kernel) idle calls steps reached ⟨report, returned, told⟩
  · subst gaveUp
    exact (native_of_reachable reached.erase t).2.2 returned
  · obtain ⟨⟨memory, moved⟩, stepped, rfl⟩ := Option.map_eq_some_iff.mp taken
    have place : moved = .outside .gaveUp := by
      simpa only [Function.update_self] using gaveUp
    rw [place] at stepped
    exact step_gaveUp stepped

/-- A wait with a deadline finds no token until the deadline has passed; one is released before the next call. -/
theorem kernelSemaphore_answers_empty :
    ∃ (state : State (Fin 2) Memory Pc) (past : Fin 2 → Moment → Bool),
      (watched .dispatch ⟨0, by decide⟩ (Fin 2)).Reachable (state, past) ∧ state.thread 0 = .outside .timedOut ∧
      state.memory.value = 1 ∧ past 0 .none = true := by
  obtain ⟨⟨state, past⟩, reached, computed⟩ :=
    System.exists_reachable_of_run (watched .dispatch ⟨0, by decide⟩ (Fin 2))
      [.call 0 (.tryAcquireUntil .steady), .step 0 .go, .step 0 .expired, .call 1 (.release 1), .step 1 .go]
      (fun here => decide (here.1.thread 0 = .outside .timedOut ∧ here.1.memory.value = 1)) (by decide +kernel)
  obtain ⟨timedOut, one⟩ := of_decide_eq_true computed
  exact ⟨state, past, reached, timedOut, one, ((kernelSemaphore_answers reached).1 0 _ timedOut).1 .none rfl⟩

/-! ### Nobody is left waiting -/

/-- **An acquisition comes to its end** as long as there is a token whenever it looks. -/
theorem acquisition_comes {memory : Memory} {pc : Pc} (inside : pc.acquiring = true) (positive : 0 < memory.value) :
    (program kernel).Comes .go (fun memory => decide (0 < memory.value)) (· = .outside .acquired) memory pc := by
  have left : ∀ {memory later : Memory}, 0 < memory.value →
      decide (0 < later.value) = decide (0 < memory.value) → 0 < later.value :=
    fun positive same => (decide_eq_decide.mp same).mpr positive
  have takes : ∀ {memory : Memory} {pc : Pc}, 0 < memory.value → pc = .wait ∨ pc = .attempt ∨ pc = .timed →
      (program kernel).Comes .go (fun memory => decide (0 < memory.value)) (· = .outside .acquired) memory pc := by
    intro memory pc positive place
    have stepped : (program kernel).step .go memory pc = some (memory.acquire, .outside .acquired) := by
      rcases place with rfl | rfl | rfl <;> simp only [program, step, if_pos positive]
    exact Program.Comes.after stepped fun _ _ => .arrived rfl
  have timer : ∀ {memory : Memory}, 0 < memory.value → (program kernel).Comes .go
      (fun memory => decide (0 < memory.value)) (· = .outside .acquired) memory .timer := fun positive =>
    Program.Comes.after rfl fun _ same => takes (left positive same) (Or.inr (Or.inr rfl))
  have compare : ∀ {memory : Memory}, 0 < memory.value → (program kernel).Comes .go
      (fun memory => decide (0 < memory.value)) (· = .outside .acquired) memory .compare := by
    intro memory positive
    have stepped : (program kernel).step .go memory .compare =
        some (memory, if kernel = .win32 then .timer else .timed) := rfl
    refine Program.Comes.after stepped fun _ same => ?_
    split
    · exact timer (left positive same)
    · exact takes (left positive same) (Or.inr (Or.inr rfl))
  cases pc with
  | outside | post | releaseSemaphore => cases inside
  | wait => exact takes positive (Or.inl rfl)
  | attempt => exact takes positive (Or.inr (Or.inl rfl))
  | timed => exact takes positive (Or.inr (Or.inr rfl))
  | rest => exact Program.Comes.after rfl fun _ same => compare (left positive same)
  | compare => exact compare positive
  | timer => exact timer positive

theorem value_eq_zero_of_quiet {memory : Memory} {pc : Pc} (inside : pc.acquiring = true)
    (quiet : step kernel .go memory pc = none) : memory.value = 0 := by
  cases pc with
  | outside | post | releaseSemaphore => cases inside
  | wait | timed =>
    simp only [step] at quiet
    split at quiet
    · cases quiet
    · exact Nat.eq_zero_of_not_pos ‹_›
  | attempt =>
    simp only [step] at quiet
    split at quiet <;> cases quiet
  | rest | compare | timer => cases quiet

/-- **A token is there for whoever waits.** While there is a token whenever it looks, an acquisition comes to its
end by its own steps; and where nobody can go on, a waiter means that all tokens have been handed out that the
kernel has taken from a release. -/
theorem kernelSemaphore_no_stranded_waiter (reached : (system kernel initial Thread).Reachable state) {t : Thread}
    (waiting : (state.thread t).acquiring = true) :
    (0 < state.memory.value → (program kernel).Comes .go (fun memory => decide (0 < memory.value))
      (· = .outside .acquired) state.memory (state.thread t)) ∧
    ((∀ u, step kernel .go state.memory (state.thread u) = none) →
      state.memory.acquired = initial + state.memory.released) := by
  refine ⟨acquisition_comes waiting, fun quiet => ?_⟩
  have tokens := tokens_of_reachable reached
  rw [value_eq_zero_of_quiet waiting (quiet t), Nat.zero_add] at tokens
  exact tokens

/-- Thread 1 has taken one of two tokens that thread 2 releases, thread 0 the other; thread 0 waits for a third. -/
theorem kernelSemaphore_no_stranded_waiter_taken :
    ∃ state, (system .win32 ⟨0, by decide⟩ (Fin 3)).Reachable state ∧ (state.thread 0).acquiring = true ∧
      (∀ u, step .win32 .go state.memory (state.thread u) = none) ∧ state.memory.acquired = 2 ∧
      state.memory.acquired = 0 + state.memory.released := by
  obtain ⟨state, reached, computed⟩ := System.exists_reachable_of_run (system .win32 ⟨0, by decide⟩ (Fin 3))
    [.call 0 .acquire, .call 1 (.tryAcquireFor true), .step 1 .go, .step 1 .go, .call 2 (.release 2), .step 2 .go,
      .step 0 .go, .step 1 .go, .call 0 .acquire]
    (fun state => decide ((state.thread 0).acquiring = true ∧
      (∀ u, step .win32 .go state.memory (state.thread u) = none) ∧ state.memory.acquired = 2)) (by decide +kernel)
  obtain ⟨waiting, quiet, acquired⟩ := of_decide_eq_true computed
  exact ⟨state, reached, waiting, quiet, acquired, (kernelSemaphore_no_stranded_waiter reached waiting).2 quiet⟩

end Runs

/-! ### Deadlines -/

/-- The timespec is one that the kernel takes. -/
def Valid (timespec : Timespec) : Prop := 0 ≤ timespec.nsec ∧ timespec.nsec < 1000000000

/-- The timespec stands for this many nanoseconds. -/
def StandsFor (timespec : Timespec) (ns : ℤ) : Prop := timespec.sec * 1000000000 + timespec.nsec = ns

/-- The `ts` of `posix_semaphore::try_acquire_until_system`: `time_point_cast` truncates. -/
def posixTimespec (absTime : ℤ) : Timespec := asTimespec absTime

/-- The `ts` of `mach_semaphore::try_acquire_for`; its seconds are `unsigned`. -/
def machTimespec (ns : ℤ) : Timespec where
  sec := ns.tdiv 1000000000 % 2 ^ 32
  nsec := ns.tmod 1000000000

theorem valid_asTimespec_iff (ns : ℤ) : Valid (asTimespec ns) ↔ 0 ≤ ns ∨ 1000000000 ∣ ns := by
  constructor
  · rintro ⟨nonnegative, -⟩
    by_contra! negative
    have rest : 0 ≤ (-ns).tmod 1000000000 := Int.tmod_nonneg 1000000000 (by omega)
    rw [Int.neg_tmod] at rest
    have zero : ns.tmod 1000000000 = 0 := le_antisymm (by omega) nonnegative
    exact negative.2 (Int.dvd_of_tmod_eq_zero zero)
  · rintro (nonnegative | divides)
    · exact asTimespec_nsec nonnegative
    · have zero : ns.tmod 1000000000 = 0 := Int.tmod_eq_zero_of_dvd divides
      simp only [Valid, asTimespec, zero]
      decide

/-- **Deadlines before the epoch.** The `timespec` of `posix_semaphore` is the deadline; the kernel rejects it if
the deadline is before the epoch and not a whole number of seconds away from it. -/
theorem posixTimespec_valid_iff (absTime : ℤ) :
    StandsFor (posixTimespec absTime) absTime ∧
      (Valid (posixTimespec absTime) ↔ 0 ≤ absTime ∨ 1000000000 ∣ absTime) :=
  ⟨asTimespec_total absTime, valid_asTimespec_iff absTime⟩

/-- **Durations of `mach_semaphore`.** What the kernel is given is the duration exactly if that is not negative and
below 2^32 seconds. -/
theorem machTimespec_exact_iff (ns : ℤ) :
    Valid (machTimespec ns) ∧ StandsFor (machTimespec ns) ns ↔ 0 ≤ ns ∧ ns < 2 ^ 32 * 1000000000 := by
  have total := asTimespec_total ns
  have valid := valid_asTimespec_iff ns
  simp only [Valid, StandsFor, asTimespec, machTimespec] at *
  constructor
  · rintro ⟨inside, same⟩
    omega
  · rintro ⟨nonnegative, small⟩
    have inside := valid.mpr (Or.inl nonnegative)
    exact ⟨inside, by omega⟩

/-- A wait of minus one second takes 136 years. -/
example : machTimespec (-1000000000) = ⟨2 ^ 32 - 1, 0⟩ := by decide

end NovaSync.KernelSemaphores
