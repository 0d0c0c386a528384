/-
**`native_auto_reset_event` on Linux as a thread program.**

The tokens are the counter of an eventfd, and `wait_count_` counts the threads in `wait`. `signal` drops
its token if it reads no waiter and then polls the counter readable: two looks at the state, before a
separate write. `try_wait_for` and `try_wait_until` poll without announcing themselves in `wait_count_`.

A history counts the tokens written and taken.

* `nativeAutoResetEvent_one_token` — nobody waits: one token at most, where the sections from the poll of
  a `signal` to its write do not overlap; `nativeAutoResetEvent_two_tokens` is an overlap.
* `nativeAutoResetEvent_token_per_signal` — as many signals as blocked threads: no signal is dropped, if
  and only if at most one of the threads is in a timed wait and fewer than `2 ^ 32` are in `wait`;
  `nativeAutoResetEvent_signal_dropped` are two timed waits.
-/

import NovaSync.Concurrency.Threads
import NovaSync.Detail.Eventfd

set_option linter.unusedSectionVars false

namespace NovaSync.NativeAutoResetEventEventfd

open Concurrency Detail

/-! ### The program -/

/-- The counter of the eventfd and `wait_count_`, with the tokens written and taken so far. -/
structure Memory where
  counter : ℕ := 0
  waitCount : BitVec 32 := 0
  written : ℕ := 0
  taken : ℕ := 0
deriving DecidableEq, Repr

inductive Op
  | signal
  | tryWait
  | wait
  | tryWaitFor (positive : Bool)
  | tryWaitUntil
deriving DecidableEq, Repr

/-- Who calls `try_wait`: the loop of `wait`, or a caller that returns what it returns. -/
inductive Caller
  | alone
  | loop
deriving DecidableEq, Repr

/-- The next atomic operation or system call of a thread.

* `signalLoad`, `signalPoll`, `signalWrite`: the load of `wait_count_`, the `try_poll` and the write of
  `signal`.
* `read`: the read of `try_wait`.
* `register`, `leave`: the `fetch_add` and the `fetch_sub` of `wait`.
* `blocked`: a poll, that of `wait` or a timed one. -/
inductive Pc
  | idle
  | signalLoad
  | signalPoll
  | signalWrite
  | read (caller : Caller)
  | register
  | blocked (point : PollPoint)
  | leave
deriving DecidableEq, Repr

/-- Where a successful `try_wait` goes on. -/
def taken : Caller → Pc
  | .alone => .idle
  | .loop => .leave

/-- Where a failed `try_wait` goes on. -/
def missed : Caller → Pc
  | .alone => .idle
  | .loop => .blocked .poll

/-- Where a poll that has returned goes on: `wait` ignores the result, a timed wait gives up or tries
once. -/
def polled : PollPoint → Bool → Pc
  | .poll, _ => .read .loop
  | _, true => .read .alone
  | _, false => .idle

def call : Op → Pc → Option Pc
  | .signal, .idle => some .signalLoad
  | .tryWait, .idle => some (.read .alone)
  | .wait, .idle => some .register
  | .tryWaitFor positive, .idle => some (if positive then .blocked .ppollFor else .read .alone)
  | .tryWaitUntil, .idle => some (.blocked .timerfd)
  | _, _ => none

namespace Memory

/-- The write of `signal`. -/
def write (memory : Memory) : Memory :=
  { memory with counter := Eventfd.write memory.counter, written := memory.written + 1 }

/-- A read that finds a token. -/
def take (memory : Memory) : Memory :=
  { memory with counter := Eventfd.read memory.counter, taken := memory.taken + 1 }

end Memory

/-- The `try_poll` of `signal`: only a positive result counts as set. -/
def tryPoll (choice : Choice) (counter : ℕ) : Option Bool :=
  match choice with
  | .go => some (decide (0 < counter))
  | .interrupted | .failed => some false
  | .spurious | .expired => none

/-- The next step. -/
def step (choice : Choice) (memory : Memory) : Pc → Option (Memory × Pc)
  | .idle => none
  | .signalLoad =>
      ordinary choice (memory, if memory.waitCount = 0 then .signalPoll else .signalWrite)
  | .signalPoll => (tryPoll choice memory.counter).map fun set =>
      (memory, if set then .idle else .signalWrite)
  | .signalWrite => ordinary choice (memory.write, .idle)
  | .read caller => ordinary choice
      (if 0 < memory.counter then (memory.take, taken caller) else (memory, missed caller))
  | .register => ordinary choice ({ memory with waitCount := memory.waitCount + 1 }, .read .loop)
  | .blocked point => (point.step choice memory.counter).map fun
      | .inl next => (memory, .blocked next)
      | .inr readable => (memory, polled point readable)
  | .leave => ordinary choice ({ memory with waitCount := memory.waitCount - 1 }, .idle)

namespace Pc

/-- The thread is inside `signal`. -/
def signals : Pc → Bool
  | .signalLoad | .signalPoll | .signalWrite => true
  | _ => false

/-- The thread is in the loop of `wait`, and has no token. -/
def loops : Pc → Bool
  | .read .loop | .blocked .poll => true
  | _ => false

/-- The thread is counted in `wait_count_`. -/
def registered : Pc → Bool
  | .leave => true
  | pc => pc.loops

/-- The thread is in `wait` or in a timed wait. -/
def waits : Pc → Bool
  | .read .loop | .register | .blocked _ | .leave => true
  | _ => false

/-- The thread has decided to write, and not yet done so. -/
def writes : Pc → Bool
  | .signalWrite => true
  | _ => false

end Pc

/-- The event as a thread program; nobody sleeps on a futex. -/
def program : Program Memory Pc Op Choice where
  idle := .idle
  call := call
  step := step
  wake := fun _ => none
  asleep := fun _ => false
  woken := id

theorem program_silent : program.Silent := fun _ => rfl

/-- The event used by the threads of `Thread`; one that is initially set holds a token. -/
abbrev system (initiallySet : Bool) (Thread : Type*) [DecidableEq Thread] [Fintype Thread] :
    System (State Thread Memory Pc) (Action Thread Op Choice) :=
  program.system { counter := if initiallySet then 1 else 0 }

/-! ### What a step can do -/

/-- **The effects of a step.** -/
inductive Effect (choice : Choice) (memory : Memory) (pc : Pc) : Memory → Pc → Prop
  | moves {after : Pc} : pc.signals = false → after.signals = false → after.loops = pc.loops →
      after.registered = pc.registered → (after.waits = true → pc.waits = true) → after ≠ .register →
      Effect choice memory pc memory after
  | unwaited : pc = .signalLoad → memory.waitCount = 0 → Effect choice memory pc memory .signalPoll
  | waited : pc = .signalLoad → memory.waitCount ≠ 0 → Effect choice memory pc memory .signalWrite
  | clear : pc = .signalPoll → (choice = .go → memory.counter = 0) →
      Effect choice memory pc memory .signalWrite
  | drop : pc = .signalPoll → 0 < memory.counter → Effect choice memory pc memory .idle
  | write : pc = .signalWrite → Effect choice memory pc memory.write .idle
  | take {caller : Caller} : pc = .read caller → 0 < memory.counter →
      Effect choice memory pc memory.take (taken caller)
  | register : pc = .register →
      Effect choice memory pc { memory with waitCount := memory.waitCount + 1 } (.read .loop)
  | leave : pc = .leave →
      Effect choice memory pc { memory with waitCount := memory.waitCount - 1 } .idle

/-- A poll that goes on, or returns, leaves the thread in the loop of `wait` or outside it. -/
theorem blocked_effect {choice : Choice} {memory after : Memory} {point : PollPoint} {moved : Pc}
    (stepped : step choice memory (.blocked point) = some (after, moved)) :
    Effect choice memory (.blocked point) after moved := by
  obtain ⟨result, waits, same⟩ := Option.map_eq_some_iff.mp stepped
  cases result with
  | inl next =>
    have timed := PollPoint.timed_of_step waits
    cases same
    refine .moves rfl rfl ?_ ?_ (fun _ => rfl) nofun
    all_goals cases point <;> cases next <;> first | rfl | cases timed
  | inr readable =>
    cases same
    refine .moves rfl ?_ ?_ ?_ (fun _ => rfl) ?_
    all_goals cases point <;> cases readable <;> first | rfl | nofun

/-- **Every step has one of the effects.** -/
theorem step_effect {choice : Choice} {memory after : Memory} {pc moved : Pc}
    (stepped : step choice memory pc = some (after, moved)) : Effect choice memory pc after moved := by
  cases pc with
  | idle => cases stepped
  | signalLoad =>
    cases (ordinary_eq_some stepped).2
    split
    · rename_i none
      exact .unwaited rfl none
    · rename_i some
      exact .waited rfl some
  | signalPoll =>
    obtain ⟨set, polled, same⟩ := Option.map_eq_some_iff.mp stepped
    cases same
    cases set with
    | true =>
      cases choice with
      | go => exact .drop rfl (of_decide_eq_true (Option.some.inj polled))
      | _ => cases polled
    | false =>
      refine .clear rfl fun went => ?_
      rw [went] at polled
      exact Nat.eq_zero_of_not_pos (of_decide_eq_false (Option.some.inj polled))
  | signalWrite =>
    cases (ordinary_eq_some stepped).2
    exact .write rfl
  | read caller =>
    have performed := (ordinary_eq_some stepped).2
    split at performed
    · rename_i some
      cases performed
      exact .take rfl some
    · cases performed
      cases caller with
      | alone => exact .moves rfl rfl rfl rfl nofun nofun
      | loop => exact .moves rfl rfl rfl rfl (fun _ => rfl) nofun
  | register =>
    cases (ordinary_eq_some stepped).2
    exact .register rfl
  | blocked point => exact blocked_effect stepped
  | leave =>
    cases (ordinary_eq_some stepped).2
    exact .leave rfl

variable {initiallySet : Bool} {Thread : Type*} [DecidableEq Thread] [Fintype Thread]

/-- A step of the system is a call or a step of one thread. -/
theorem next_effect {state after : State Thread Memory Pc} {action : Action Thread Op Choice}
    (taken : program.next state action = some after) :
    (∃ t op moved, action = .call t op ∧ call op (state.thread t) = some moved ∧
      after = ⟨state.memory, Function.update state.thread t moved⟩) ∨
    ∃ t choice memory moved, action = .step t choice ∧
      Effect choice state.memory (state.thread t) memory moved ∧
      after = ⟨memory, Function.update state.thread t moved⟩ := by
  rcases program_silent.next_cases taken with called | ⟨t, choice, memory, moved, steps, stepped, rfl⟩
  · exact Or.inl called
  · exact Or.inr ⟨t, choice, memory, moved, steps, step_effect stepped, rfl⟩

/-! ### Tokens -/

/-- **Tokens are conserved**: those that an event starts with and those written are in the counter or
taken. -/
def Conserved (first : ℕ) (memory : Memory) : Prop :=
  memory.counter + memory.taken = first + memory.written

theorem Conserved.effect {first : ℕ} {choice : Choice} {memory after : Memory} {pc moved : Pc}
    (conserved : Conserved first memory) (effect : Effect choice memory pc after moved) :
    Conserved first after := by
  unfold Conserved at conserved ⊢
  cases effect with
  | write =>
    show memory.counter + 1 + memory.taken = first + (memory.written + 1)
    omega
  | take _ some =>
    show memory.counter - 1 + (memory.taken + 1) = first + memory.written
    omega
  | _ => exact conserved

variable (initiallySet) in
theorem conserved_of_reach {guard : State Thread Memory Pc → Action Thread Op Choice → Prop}
    {first : ℕ} {origin state : State Thread Memory Pc} (start : Conserved first origin.memory)
    (reached : ((system initiallySet Thread).resume origin).Reach guard state) :
    Conserved first state.memory := by
  refine reached.invariant (P := fun state => Conserved first state.memory) start ?_
  intro state action after _ conserved _ taken
  rcases next_effect taken with ⟨t, op, moved, -, -, rfl⟩ | ⟨t, choice, memory, moved, -, effect, rfl⟩
  · exact conserved
  · exact conserved.effect effect

/-! ### Nobody waits -/

/-- Only `signal` and `try_wait` are called. -/
def Unwaited : Action Thread Op Choice → Prop
  | .call _ op => op = .signal ∨ op = .tryWait
  | .step _ _ | .wake _ _ => True

/-- **The sections of `signal` do not overlap**: none polls, and finds no token, while another stands
between its poll and its write; and the poll does not fail. -/
def Apart (state : State Thread Memory Pc) : Action Thread Op Choice → Prop
  | .call _ op => op = .signal ∨ op = .tryWait
  | .step t choice => state.thread t = .signalPoll → choice = .go ∧
      (state.memory.counter = 0 → ∀ u, state.thread u ≠ .signalWrite)
  | .wake _ _ => True

instance (state : State Thread Memory Pc) : @DecidablePred (Action Thread Op Choice) (Apart state)
  | .call _ _ => inferInstanceAs (Decidable (_ ∨ _))
  | .step t _ => inferInstanceAs (Decidable (state.thread t = .signalPoll → _))
  | .wake _ _ => inferInstanceAs (Decidable True)

instance : @DecidablePred (Action Thread Op Choice) Unwaited
  | .call _ _ => inferInstanceAs (Decidable (_ ∨ _))
  | .step _ _ | .wake _ _ => inferInstanceAs (Decidable True)

/-- **One token**, in the counter or on its way there, and nobody waits. -/
structure Single (state : State Thread Memory Pc) : Prop where
  unwaited : state.memory.waitCount = 0
  outside : ∀ t, (state.thread t).waits = false
  token : state.memory.counter + count Pc.writes state.thread ≤ 1

section Single

variable {state : State Thread Memory Pc} {t : Thread} {memory : Memory} {moved : Pc}

theorem writes_of_signals {pc : Pc} (signals : pc.signals = false) : pc.writes = false := by
  cases pc with
  | signalWrite => cases signals
  | _ => rfl

/-- A thread that stays outside the waits, and a token that stays one. -/
theorem Single.move (single : Single state) (unwaited : memory.waitCount = state.memory.waitCount)
    (outside : moved.waits = false)
    (token : memory.counter + count Pc.writes (Function.update state.thread t moved) ≤ 1) :
    Single ⟨memory, Function.update state.thread t moved⟩ := by
  refine ⟨unwaited.trans single.unwaited, fun u => ?_, token⟩
  refine (apply_update ?_ u).trans (single.outside u)
  exact outside.trans (single.outside t).symm

/-- A thread that decides nothing, and no token more. -/
theorem Single.keep (single : Single state) (unwaited : memory.waitCount = state.memory.waitCount)
    (outside : moved.waits = false) (fewer : memory.counter ≤ state.memory.counter)
    (writes : moved.writes = (state.thread t).writes) :
    Single ⟨memory, Function.update state.thread t moved⟩ := by
  refine single.move unwaited outside ?_
  rw [count_update_same writes]
  exact (Nat.add_le_add_right fewer _).trans single.token

theorem Single.effect (single : Single state) {choice : Choice} (apart : Apart state (.step t choice))
    (effect : Effect choice state.memory (state.thread t) memory moved) :
    Single ⟨memory, Function.update state.thread t moved⟩ := by
  have token := single.token
  cases effect with
  | moves outside outside' _ _ waits =>
    refine single.keep rfl ?_ le_rfl ((writes_of_signals outside').trans (writes_of_signals outside).symm)
    by_contra inside
    have before := waits (Bool.eq_true_of_not_eq_false inside)
    rw [single.outside t] at before
    cases before
  | unwaited here | drop here => exact single.keep rfl rfl le_rfl (by rw [here]; rfl)
  | waited _ some => exact absurd single.unwaited some
  | clear here empty =>
    obtain ⟨went, nobody⟩ := apart here
    have none : count Pc.writes state.thread = 0 := by
      by_contra some
      obtain ⟨u, writes⟩ := exists_of_count_pos (Nat.pos_of_ne_zero some)
      have there := nobody (empty went) u
      generalize state.thread u = pc at writes there
      cases pc with
      | signalWrite => exact there rfl
      | _ => cases writes
    refine single.move rfl rfl ?_
    rw [empty went, count_update_enter (by rw [here]; rfl) rfl, none]
  | write here =>
    have fewer : count Pc.writes (Function.update state.thread t .idle) + 1 =
        count Pc.writes state.thread := count_update_leave (by rw [here]; rfl) rfl
    refine single.move rfl rfl ?_
    show state.memory.counter + 1 + count Pc.writes (Function.update state.thread t .idle) ≤ 1
    omega
  | @take caller here =>
    have outside := single.outside t
    rw [here] at outside
    cases caller with
    | loop => cases outside
    | alone => exact single.keep rfl rfl (Nat.sub_le _ _) (by rw [here]; rfl)
  | register here | leave here =>
    have outside := single.outside t
    rw [here] at outside
    cases outside

end Single

theorem single_of_reach {state : State Thread Memory Pc}
    (reached : (system initiallySet Thread).Reach Apart state) : Single state := by
  refine reached.invariant ?_ fun state action after _ single met taken => ?_
  · have none : count Pc.writes (system initiallySet Thread).start.thread = 0 := count_const rfl
    refine ⟨rfl, fun _ => rfl, ?_⟩
    rw [none]
    cases initiallySet with
    | false => exact Nat.zero_le 1
    | true => exact le_rfl
  · rcases next_effect taken with ⟨t, op, moved, rfl, called, rfl⟩ |
      ⟨t, choice, memory, moved, rfl, effect, rfl⟩
    · have idle : state.thread t = .idle := by
        generalize state.thread t = pc at called
        cases pc with
        | idle => rfl
        | _ => cases op <;> cases called
      rw [idle] at called
      rcases met with rfl | rfl
      · cases called
        exact single.keep rfl rfl le_rfl (by rw [idle]; rfl)
      · cases called
        exact single.keep rfl rfl le_rfl (by rw [idle]; rfl)
    · exact single.effect met effect

/-- **While nobody waits there is one token at most**, where the sections of `signal` do not overlap: until
the next write, one `try_wait` at most succeeds. -/
theorem nativeAutoResetEvent_one_token {state : State Thread Memory Pc}
    (reached : (system initiallySet Thread).Reach Apart state) :
    state.memory.counter ≤ 1 ∧
      ∀ later, ((system initiallySet Thread).resume state).Reachable later →
        later.memory.written = state.memory.written → later.memory.taken ≤ state.memory.taken + 1 := by
  have token := (single_of_reach reached).token
  have conserved : Conserved (if initiallySet then 1 else 0) state.memory :=
    conserved_of_reach initiallySet (rfl : Conserved _ (system initiallySet Thread).start.memory) reached
  refine ⟨by omega, fun later resumed quiet => ?_⟩
  have balance := conserved_of_reach initiallySet conserved resumed
  unfold Conserved at conserved balance
  omega

/-- Two threads signal one after the other, and a third takes the token. -/
theorem nativeAutoResetEvent_one_token_taken :
    ∃ state, (system false (Fin 3)).Reach Apart state ∧ state.memory.written = 1 ∧
      state.memory.taken = 0 ∧ state.memory.counter ≤ 1 ∧
        ∀ later, ((system false (Fin 3)).resume state).Reachable later →
          later.memory.written = 1 → later.memory.taken ≤ 1 := by
  obtain ⟨state, reached, signalled⟩ := System.exists_reach_of_run (system false (Fin 3)) Apart
    [.call 0 .signal, .call 1 .signal, .step 0 .go, .step 1 .go, .step 0 .go, .step 0 .go, .step 1 .go]
    (fun state => decide (state.memory.written = 1 ∧ state.memory.taken = 0)) (by decide +kernel)
  obtain ⟨written, taken⟩ := of_decide_eq_true signalled
  obtain ⟨token, once⟩ := nativeAutoResetEvent_one_token reached
  refine ⟨state, reached, written, taken, token, fun later resumed quiet => ?_⟩
  have most := once later resumed (quiet.trans written.symm)
  rw [taken] at most
  exact most

/-- **Two signals store two tokens.** Both poll before either writes. -/
theorem nativeAutoResetEvent_two_tokens :
    ¬ ∀ (Thread : Type) [DecidableEq Thread] [Fintype Thread] (initiallySet : Bool)
      (state : State Thread Memory Pc),
        (system initiallySet Thread).Reach (fun _ => Unwaited) state → state.memory.counter ≤ 1 := by
  intro single
  obtain ⟨state, reached, two⟩ := System.exists_reach_of_run (system false (Fin 2)) (fun _ => Unwaited)
    [.call 0 .signal, .call 1 .signal, .step 0 .go, .step 1 .go, .step 0 .go, .step 1 .go, .step 0 .go,
      .step 1 .go]
    (fun state => decide (state.memory.counter = 2)) (by decide +kernel)
  have most := single _ _ _ reached
  rw [of_decide_eq_true two] at most
  exact absurd most (by decide)

/-! ### As many signals as blocked threads -/

/-- How a thread is blocked: in `wait`, `try_wait_for` or `try_wait_until`. -/
inductive Kind
  | wait
  | relative
  | absolute
deriving DecidableEq, Repr

def Kind.point : Kind → PollPoint
  | .wait => .poll
  | .relative => .ppollFor
  | .absolute => .ppollUntil

def Kind.timed (kind : Kind) : Bool := kind.point.timed

variable {Waiter Signaller : Type*} [DecidableEq Waiter] [Fintype Waiter] [DecidableEq Signaller]
  [Fintype Signaller]

/-- The number of threads in `wait`. -/
def announced (kind : Waiter → Kind) : ℕ := count (fun k => !k.timed) kind

/-- **Every waiter is blocked, every signaller has called `signal`**, and there is no token. -/
def gathered (Signaller : Type*) (kind : Waiter → Kind) : State (Waiter ⊕ Signaller) Memory Pc where
  memory := { waitCount := BitVec.ofNat 32 (announced kind) }
  thread := Sum.elim (fun w => .blocked (kind w).point) fun _ => .signalLoad

/-- Nobody else uses the event, no deadline is reached, and no poll fails. -/
def Undisturbed {Thread : Type*} : Action Thread Op Choice → Prop
  | .step _ choice => choice ≠ .expired ∧ choice ≠ .failed
  | .call _ _ | .wake _ _ => False

instance {Thread : Type*} : @DecidablePred (Action Thread Op Choice) Undisturbed
  | .step _ _ => inferInstanceAs (Decidable (_ ∧ _))
  | .call _ _ | .wake _ _ => inferInstanceAs (Decidable False)

/-- **No signal has been dropped**: each of `n` has written its token or is still inside `signal`. -/
def Undropped (n : ℕ) (state : State Thread Memory Pc) : Prop :=
  state.memory.written + count Pc.signals state.thread = n

/-- What `m` threads in `wait` and `n` signals keep.

* `word`, `most`: `wait_count_` is the number of counted threads, at most `m`.
* `quiet`: a signal polls only after the last of them has left.
* `entered`: nobody enters.
* `taken`: who has left the loop of `wait` has taken a token. -/
structure Paid (m n : ℕ) (state : State Thread Memory Pc) : Prop where
  word : state.memory.waitCount = BitVec.ofNat 32 (count Pc.registered state.thread)
  most : count Pc.registered state.thread ≤ m
  quiet : (∃ t, state.thread t = .signalPoll) → count Pc.registered state.thread = 0
  entered : ∀ t, state.thread t ≠ .register
  taken : m ≤ state.memory.taken + count Pc.loops state.thread
  undropped : Undropped n state

section Paid

variable {m n : ℕ} {state : State Thread Memory Pc} {t : Thread} {memory : Memory} {moved : Pc}

/-- A step that neither begins nor ends a `signal`. -/
theorem Undropped.keep (undropped : Undropped n state) (written : memory.written = state.memory.written)
    (signals : moved.signals = (state.thread t).signals) :
    Undropped n ⟨memory, Function.update state.thread t moved⟩ := by
  unfold Undropped
  rw [count_update_same signals, written]
  exact undropped

theorem registered_of_loops {pc : Pc} (loops : pc.loops = true) : pc.registered = true := by
  cases pc with
  | leave => rfl
  | _ => exact loops

theorem count_loops_eq_zero (none : count Pc.registered state.thread = 0) :
    count Pc.loops state.thread = 0 := by
  by_contra some
  obtain ⟨t, loops⟩ := exists_of_count_pos (Nat.pos_of_ne_zero some)
  have positive := count_pos (registered_of_loops loops)
  omega

/-- **A signal that polls finds no token**: who was counted has taken one, and at most one more is
expected. -/
theorem Paid.clear (paid : Paid m n state) (conserved : Conserved 0 state.memory) (few : n ≤ m + 1)
    (here : state.thread t = .signalPoll) : state.memory.counter = 0 := by
  have loops := count_loops_eq_zero (paid.quiet ⟨t, here⟩)
  have taken := paid.taken
  have undropped := paid.undropped
  have inside : 0 < count Pc.signals state.thread := count_pos (t := t) (by rw [here]; rfl)
  unfold Conserved at conserved
  unfold Undropped at undropped
  omega

/-- A step that registers nobody. -/
theorem Paid.move (paid : Paid m n state)
    (word : memory.waitCount =
      BitVec.ofNat 32 (count Pc.registered (Function.update state.thread t moved)))
    (fewer : count Pc.registered (Function.update state.thread t moved) ≤
      count Pc.registered state.thread)
    (quiet : moved = .signalPoll → count Pc.registered state.thread = 0) (entered : moved ≠ .register)
    (taken : m ≤ memory.taken + count Pc.loops (Function.update state.thread t moved))
    (undropped : Undropped n ⟨memory, Function.update state.thread t moved⟩) :
    Paid m n ⟨memory, Function.update state.thread t moved⟩ := by
  refine ⟨word, fewer.trans paid.most, ?_, fun u => ?_, taken, undropped⟩
  · rintro ⟨u, polls⟩
    rcases update_cases id polls with ⟨-, here⟩ | ⟨-, there⟩
    · exact Nat.le_zero.mp (fewer.trans_eq (quiet here))
    · exact Nat.le_zero.mp (fewer.trans_eq (paid.quiet ⟨u, there⟩))
  · by_cases here : u = t
    · subst here
      simpa only [Function.update_self] using entered
    · simpa only [Function.update_of_ne here] using paid.entered u

/-- A step that leaves `wait_count_`. -/
theorem Paid.keep (paid : Paid m n state) (waitCount : memory.waitCount = state.memory.waitCount)
    (registered : moved.registered = (state.thread t).registered)
    (quiet : moved = .signalPoll → count Pc.registered state.thread = 0) (entered : moved ≠ .register)
    (taken : m ≤ memory.taken + count Pc.loops (Function.update state.thread t moved))
    (undropped : Undropped n ⟨memory, Function.update state.thread t moved⟩) :
    Paid m n ⟨memory, Function.update state.thread t moved⟩ := by
  have same : count Pc.registered (Function.update state.thread t moved) =
      count Pc.registered state.thread := count_update_same registered
  refine paid.move ?_ same.le quiet entered taken undropped
  rw [same]
  exact waitCount.trans paid.word

theorem Paid.effect (paid : Paid m n state) (conserved : Conserved 0 state.memory) (few : n ≤ m + 1)
    (small : m < 2 ^ 32) {choice : Choice}
    (effect : Effect choice state.memory (state.thread t) memory moved) :
    Paid m n ⟨memory, Function.update state.thread t moved⟩ := by
  have taken := paid.taken
  have undropped := paid.undropped
  cases effect with
  | moves outside outside' loops registered _ entered =>
    refine paid.keep rfl registered ?_ entered ?_ ?_
    · rintro rfl
      cases outside'
    · rw [count_update_same loops]
      exact taken
    · exact undropped.keep rfl (outside'.trans outside.symm)
  | unwaited here none =>
    refine paid.keep rfl (by rw [here]; rfl) (fun _ => ?_) nofun ?_ ?_
    · have word := paid.word
      rw [none] at word
      have wrapped := congrArg BitVec.toNat word
      rw [BitVec.toNat_ofNat, Nat.mod_eq_of_lt (lt_of_le_of_lt paid.most small)] at wrapped
      exact wrapped.symm
    · rw [count_update_same (by rw [here]; rfl)]
      exact taken
    · exact undropped.keep rfl (by rw [here]; rfl)
  | waited here | clear here =>
    refine paid.keep rfl (by rw [here]; rfl) nofun nofun ?_ ?_
    · rw [count_update_same (by rw [here]; rfl)]
      exact taken
    · exact undropped.keep rfl (by rw [here]; rfl)
  | drop here some =>
    have empty := paid.clear conserved few here
    omega
  | write here =>
    refine paid.keep rfl (by rw [here]; rfl) nofun nofun ?_ ?_
    · rw [count_update_same (by rw [here]; rfl)]
      exact taken
    · have fewer : count Pc.signals (Function.update state.thread t .idle) + 1 =
          count Pc.signals state.thread := count_update_leave (by rw [here]; rfl) rfl
      unfold Undropped at undropped
      show state.memory.written + 1 + count Pc.signals (Function.update state.thread t .idle) = n
      omega
  | @take caller here =>
    refine paid.keep rfl ?_ ?_ ?_ ?_ ?_
    · rw [here]
      cases caller <;> rfl
    · cases caller <;> nofun
    · cases caller <;> nofun
    · have change := count_update Pc.loops state.thread t (NativeAutoResetEventEventfd.taken caller)
      have most := Bool.toNat_le (state.thread t).loops
      show m ≤ state.memory.taken + 1 + _
      omega
    · exact undropped.keep rfl (by rw [here]; cases caller <;> rfl)
  | register here => exact absurd here (paid.entered t)
  | leave here =>
    have fewer : count Pc.registered (Function.update state.thread t .idle) + 1 =
        count Pc.registered state.thread := count_update_leave (by rw [here]; rfl) rfl
    refine paid.move ?_ (by omega) nofun nofun ?_ ?_
    · show state.memory.waitCount - 1 = _
      rw [paid.word, ← fewer]
      bv_omega
    · rw [count_update_same (by rw [here]; rfl)]
      exact taken
    · exact undropped.keep rfl (by rw [here]; rfl)

end Paid

/-! #### From the gathered threads -/

section Gathered

variable (Signaller) (kind : Waiter → Kind)

theorem count_gathered (place : Pc → Bool) : count place (gathered Signaller kind).thread =
    count (fun k => place (.blocked k.point)) kind + count place (fun _ : Signaller => .signalLoad) :=
  count_sumElim place (fun w => .blocked (kind w).point) fun _ => .signalLoad

/-- A place where exactly the threads in `wait` are. -/
theorem count_waiting_gathered {place : Pc → Bool} (outside : place .signalLoad = false)
    (inside : ∀ k : Kind, place (.blocked k.point) = !k.timed) :
    count place (gathered Signaller kind).thread = announced kind := by
  have signallers : count place (fun _ : Signaller => .signalLoad) = 0 := count_const outside
  have waiters : (fun k : Kind => place (.blocked k.point)) = fun k => !k.timed := by
    funext k
    exact inside k
  rw [count_gathered, signallers, waiters]
  rfl

/-- A place where exactly the signallers are. -/
theorem count_signalling_gathered {place : Pc → Bool} (inside : place .signalLoad = true)
    (outside : ∀ k : Kind, place (.blocked k.point) = false) :
    count place (gathered Signaller kind).thread = Fintype.card Signaller := by
  have signallers : count place (fun _ : Signaller => .signalLoad) = Fintype.card Signaller :=
    count_const_card inside
  have waiters : count (fun k : Kind => place (.blocked k.point)) kind = 0 :=
    Finset.sum_eq_zero fun w _ => congrArg Bool.toNat (outside (kind w))
  rw [count_gathered, signallers, waiters, Nat.zero_add]

theorem paid_gathered : Paid (announced kind) (Fintype.card Signaller) (gathered Signaller kind) := by
  have registered : count Pc.registered (gathered Signaller kind).thread = announced kind :=
    count_waiting_gathered Signaller kind rfl fun k => by cases k <;> rfl
  have loops : count Pc.loops (gathered Signaller kind).thread = announced kind :=
    count_waiting_gathered Signaller kind rfl fun k => by cases k <;> rfl
  have signals : count Pc.signals (gathered Signaller kind).thread = Fintype.card Signaller :=
    count_signalling_gathered Signaller kind rfl fun _ => rfl
  refine ⟨by rw [registered]; rfl, registered.le, ?_, ?_, ?_, ?_⟩
  · rintro ⟨w | s, polls⟩ <;> cases polls
  · rintro (w | s) <;> nofun
  · rw [loops]
    exact Nat.le_add_left _ _
  · unfold Undropped
    rw [signals]
    exact Nat.zero_add _

/-- Each thread comes to its place alone, while there is no token. -/
theorem exists_enter (t : Waiter ⊕ Signaller) : ∃ op choices first, call op .idle = some first ∧
    ∀ n : ℕ, program.alone ({ waitCount := BitVec.ofNat 32 n }, first) choices =
      some ({ waitCount := BitVec.ofNat 32 (n + ((gathered Signaller kind).thread t).registered.toNat) },
        (gathered Signaller kind).thread t) := by
  rcases t with w | s
  · generalize place : (gathered Signaller kind).thread (.inl w) = pc
    have there : Pc.blocked (kind w).point = pc := place
    cases known : kind w with
    | wait =>
      rw [known] at there
      subst there
      refine ⟨.wait, [.go, .go], _, rfl, fun n => ?_⟩
      rw [BitVec.ofNat_add]
      rfl
    | relative =>
      rw [known] at there
      subst there
      exact ⟨.tryWaitFor true, [], _, rfl, fun _ => rfl⟩
    | absolute =>
      rw [known] at there
      subst there
      exact ⟨.tryWaitUntil, [.go], _, rfl, fun _ => rfl⟩
  · exact ⟨.signal, [], _, rfl, fun _ => rfl⟩

/-- The threads of a set have come, and the others are idle. -/
def partly (there : Finset (Waiter ⊕ Signaller)) : Waiter ⊕ Signaller → Pc :=
  there.piecewise (gathered Signaller kind).thread fun _ => .idle

theorem partly_reachable (there : Finset (Waiter ⊕ Signaller)) :
    (system false (Waiter ⊕ Signaller)).Reachable
      ⟨{ waitCount := BitVec.ofNat 32 (count Pc.registered (partly Signaller kind there)) },
        partly Signaller kind there⟩ := by
  induction there using Finset.induction_on with
  | empty =>
    have nobody : partly Signaller kind ∅ = fun _ => .idle := Finset.piecewise_empty _ _
    have none : count Pc.registered (fun _ : Waiter ⊕ Signaller => Pc.idle) = 0 := count_const rfl
    rw [nobody, none]
    exact .start
  | insert t there fresh ih =>
    have idle : partly Signaller kind there t = .idle := Finset.piecewise_eq_of_notMem _ _ _ fresh
    have joined : partly Signaller kind (insert t there) =
        Function.update (partly Signaller kind there) t ((gathered Signaller kind).thread t) :=
      Finset.piecewise_insert _ _ _ _
    have counted : count Pc.registered (partly Signaller kind (insert t there)) =
        count Pc.registered (partly Signaller kind there) +
          ((gathered Signaller kind).thread t).registered.toNat := by
      have change := count_update Pc.registered (partly Signaller kind there) t
        ((gathered Signaller kind).thread t)
      rw [idle, ← joined] at change
      exact change
    obtain ⟨op, choices, first, called, computed⟩ := exists_enter Signaller kind t
    rw [counted, joined]
    exact Program.reachable_operation t op choices ih (by rw [idle]; exact called) (computed _)

/-- **The gathered threads are a state of the event.** -/
theorem gathered_reachable :
    (system false (Waiter ⊕ Signaller)).Reachable (gathered Signaller kind) := by
  have all := partly_reachable Signaller kind Finset.univ
  have everybody : partly Signaller kind Finset.univ = (gathered Signaller kind).thread :=
    Finset.piecewise_univ _ _
  have registered : count Pc.registered (gathered Signaller kind).thread = announced kind :=
    count_waiting_gathered Signaller kind rfl fun k => by cases k <;> rfl
  rw [everybody, registered] at all
  exact all

variable {Signaller kind}

/-- The runs from the gathered threads in which nothing else happens. -/
abbrev Continues (kind : Waiter → Kind) (state : State (Waiter ⊕ Signaller) Memory Pc) : Prop :=
  ((system false (Waiter ⊕ Signaller)).resume (gathered Signaller kind)).Reach
    (fun _ => Undisturbed) state

theorem paid_of_continues {state : State (Waiter ⊕ Signaller) Memory Pc}
    (few : Fintype.card Signaller ≤ announced kind + 1) (small : announced kind < 2 ^ 32)
    (reached : Continues kind state) : Paid (announced kind) (Fintype.card Signaller) state := by
  refine reached.invariant (paid_gathered Signaller kind) fun state action after before paid met taken => ?_
  rcases next_effect taken with ⟨t, op, moved, rfl, -, -⟩ | ⟨t, choice, memory, moved, -, effect, rfl⟩
  · exact met.elim
  · have conserved : Conserved 0 state.memory :=
      conserved_of_reach false (rfl : Conserved 0 (gathered Signaller kind).memory) before
    exact paid.effect conserved few small effect

/-- **After `k` rounds** of a signal and a `wait` that takes its token: `k` waiters have left, and `k`
signals have written. -/
structure Round (kind : Waiter → Kind) (k : ℕ) (state : State (Waiter ⊕ Signaller) Memory Pc) : Prop where
  reached : Continues kind state
  counter : state.memory.counter = 0
  waitCount : state.memory.waitCount = BitVec.ofNat 32 (announced kind - k)
  written : state.memory.written = k
  waiting : count (· = Pc.blocked .poll) state.thread = announced kind - k
  signalling : count (· = Pc.signalLoad) state.thread = Fintype.card Signaller - k

theorem undisturbed_go {Thread : Type*} (t : Thread) :
    Undisturbed (.step t .go : Action Thread Op Choice) :=
  ⟨nofun, nofun⟩

/-- A thread that goes on alone, in the ordinary course of its steps. -/
theorem Continues.alone {state : State (Waiter ⊕ Signaller) Memory Pc} {t : Waiter ⊕ Signaller}
    (reached : Continues kind state) {memory : Memory} {moved : Pc} (n : ℕ)
    (computed : program.alone (state.memory, state.thread t) (List.replicate n .go) =
      some (memory, moved)) : Continues kind ⟨memory, Function.update state.thread t moved⟩ := by
  refine Program.reach_alone rfl reached (fun _ choice member => ?_) computed
  rw [List.eq_of_mem_replicate member]
  exact undisturbed_go t

/-- A signal that finds no token writes one, whatever it reads in `wait_count_`. -/
theorem Continues.signal {state : State (Waiter ⊕ Signaller) Memory Pc} {t : Waiter ⊕ Signaller}
    (reached : Continues kind state) (here : state.thread t = .signalLoad)
    (empty : state.memory.counter = 0) :
    Continues kind ⟨state.memory.write, Function.update state.thread t .idle⟩ := by
  by_cases none : state.memory.waitCount = 0
  · have loads : program.step .go state.memory (state.thread t) = some (state.memory, .signalPoll) := by
      rw [here]
      exact congrArg (fun pc => some (state.memory, pc)) (if_pos none)
    have polls : program.step .go state.memory .signalPoll = some (state.memory, .signalWrite) := by
      show some (state.memory, if decide (0 < state.memory.counter) then Pc.idle else .signalWrite) = _
      rw [empty]
      rfl
    exact reached.alone 3 ((Program.alone_cons loads _).trans (Program.alone_cons polls _))
  · have loads : program.step .go state.memory (state.thread t) = some (state.memory, .signalWrite) := by
      rw [here]
      exact congrArg (fun pc => some (state.memory, pc)) (if_neg none)
    exact reached.alone 2 (Program.alone_cons loads _)

/-- A signal that reads no waiter and then polls a token is dropped. -/
theorem Continues.drop {state : State (Waiter ⊕ Signaller) Memory Pc} {t : Waiter ⊕ Signaller}
    (reached : Continues kind state) (here : state.thread t = .signalLoad)
    (none : state.memory.waitCount = 0) (some : 0 < state.memory.counter) :
    Continues kind ⟨state.memory, Function.update state.thread t .idle⟩ := by
  have loads : program.step .go state.memory (state.thread t) =
      Option.some (state.memory, .signalPoll) := by
    rw [here]
    exact congrArg (fun pc => Option.some (state.memory, pc)) (if_pos none)
  have polls : program.step .go state.memory .signalPoll = Option.some (state.memory, .idle) := by
    show Option.some (state.memory, if decide (0 < state.memory.counter) then Pc.idle else .signalWrite) = _
    rw [decide_eq_true some]
    rfl
  exact reached.alone 2 ((Program.alone_cons loads _).trans (Program.alone_cons polls _))

/-- A thread in `wait` takes a token, and leaves. -/
theorem Continues.wait {state : State (Waiter ⊕ Signaller) Memory Pc} {t : Waiter ⊕ Signaller}
    (reached : Continues kind state) (here : state.thread t = .blocked .poll)
    (some : 0 < state.memory.counter) :
    Continues kind ⟨{ state.memory.take with waitCount := state.memory.waitCount - 1 },
      Function.update state.thread t .idle⟩ := by
  have polls : program.step .go state.memory (state.thread t) =
      Option.some (state.memory, .read .loop) := by
    have ready : PollPoint.poll.step .go state.memory.counter = Option.some (.inr true) := if_pos some
    rw [here]
    show ((PollPoint.poll.step .go state.memory.counter).map _) = _
    rw [ready]
    rfl
  have reads : program.step .go state.memory (.read .loop) =
      Option.some (state.memory.take, .leave) := congrArg Option.some (if_pos some)
  exact reached.alone 3 ((Program.alone_cons polls _).trans (Program.alone_cons reads _))

/-- **One more round.** -/
theorem Round.next {k : ℕ} {state : State (Waiter ⊕ Signaller) Memory Pc} (round : Round kind k state)
    (waiter : k < announced kind) (signaller : k < Fintype.card Signaller) :
    ∃ after : State (Waiter ⊕ Signaller) Memory Pc, Round kind (k + 1) after := by
  obtain ⟨s, loads⟩ : ∃ s, decide (state.thread s = .signalLoad) = true :=
    exists_of_count_pos (by rw [round.signalling]; omega)
  obtain ⟨w, polls⟩ : ∃ w, decide (state.thread w = .blocked .poll) = true :=
    exists_of_count_pos (by rw [round.waiting]; omega)
  have here := of_decide_eq_true loads
  have there := of_decide_eq_true polls
  have apart : w ≠ s := by
    rintro rfl
    rw [here] at there
    cases there
  have still : Function.update state.thread s .idle w = .blocked .poll := by
    rw [Function.update_of_ne apart]
    exact there
  have signalled := round.reached.signal here round.counter
  refine ⟨_, signalled.wait still (Nat.succ_pos _), ?_, ?_, ?_, ?_, ?_⟩
  · show state.memory.counter + 1 - 1 = 0
    rw [round.counter]
  · have less : announced kind - k = announced kind - (k + 1) + 1 := by omega
    show state.memory.waitCount - 1 = _
    rw [round.waitCount, less]
    bv_omega
  · exact congrArg Nat.succ round.written
  · have left : count (· = Pc.blocked .poll) (Function.update (Function.update state.thread s .idle) w
        .idle) + 1 = count (· = Pc.blocked .poll) (Function.update state.thread s .idle) :=
      count_update_leave (by rw [still]; rfl) rfl
    have same : count (· = Pc.blocked .poll) (Function.update state.thread s .idle) =
        count (· = Pc.blocked .poll) state.thread := count_update_same (by rw [here]; rfl)
    rw [same, round.waiting] at left
    show count (· = Pc.blocked .poll) (Function.update (Function.update state.thread s .idle) w .idle) = _
    omega
  · have same : count (· = Pc.signalLoad) (Function.update (Function.update state.thread s .idle) w
        .idle) = count (· = Pc.signalLoad) (Function.update state.thread s .idle) :=
      count_update_same (by rw [still]; rfl)
    have left : count (· = Pc.signalLoad) (Function.update state.thread s .idle) + 1 =
        count (· = Pc.signalLoad) state.thread := count_update_leave (by rw [here]; rfl) rfl
    rw [round.signalling] at left
    show count (· = Pc.signalLoad) (Function.update (Function.update state.thread s .idle) w .idle) = _
    omega

variable (kind) in
theorem exists_round (k : ℕ) (waiters : k ≤ announced kind) (signallers : k ≤ Fintype.card Signaller) :
    ∃ state : State (Waiter ⊕ Signaller) Memory Pc, Round kind k state := by
  induction k with
  | zero =>
    refine ⟨gathered Signaller kind, .start, rfl, rfl, rfl, ?_, ?_⟩
    · exact count_waiting_gathered Signaller kind rfl fun k => by cases k <;> rfl
    · exact count_signalling_gathered Signaller kind rfl fun k => by cases k <;> rfl
  | succ k ih =>
    obtain ⟨state, round⟩ := ih (by omega) (by omega)
    exact round.next waiters signallers

/-- **No signal is dropped**, with as many signals as blocked threads, if and only if at most one of the
threads is in a timed wait and `wait_count_` holds the number of the others. -/
theorem nativeAutoResetEvent_token_per_signal (balanced : Fintype.card Waiter = Fintype.card Signaller)
    (kind : Waiter → Kind) :
    (∀ state : State (Waiter ⊕ Signaller) Memory Pc, Continues kind state →
      Undropped (Fintype.card Signaller) state) ↔
    count Kind.timed kind ≤ 1 ∧ announced kind < 2 ^ 32 := by
  have kinds : count Kind.timed kind + announced kind = Fintype.card Waiter :=
    count_add_count_not Kind.timed kind
  constructor
  · intro undropped
    by_contra many
    have room : announced kind % 2 ^ 32 + 1 < Fintype.card Signaller := by omega
    obtain ⟨state, round⟩ : ∃ state : State (Waiter ⊕ Signaller) Memory Pc,
        Round kind (announced kind % 2 ^ 32) state :=
      exists_round kind _ (Nat.mod_le _ _) (by omega)
    have none : state.memory.waitCount = 0 := by
      rw [round.waitCount]
      apply BitVec.eq_of_toNat_eq
      rw [BitVec.toNat_ofNat]
      show _ = 0
      omega
    -- the first of the remaining signals writes, and the second one polls that token
    obtain ⟨s, loads⟩ : ∃ s, decide (state.thread s = .signalLoad) = true :=
      exists_of_count_pos (by rw [round.signalling]; omega)
    have here := of_decide_eq_true loads
    have once := round.reached.signal here round.counter
    have left : count (· = Pc.signalLoad) (Function.update state.thread s .idle) + 1 =
        count (· = Pc.signalLoad) state.thread := count_update_leave loads rfl
    rw [round.signalling] at left
    have another : 0 < count (· = Pc.signalLoad) (Function.update state.thread s .idle) := by omega
    obtain ⟨u, follows⟩ := exists_of_count_pos another
    have there := of_decide_eq_true follows
    have dropped := once.drop there none (Nat.succ_pos _)
    have fewer : count Pc.signals (Function.update (Function.update state.thread s .idle) u .idle) + 1 =
        count Pc.signals (Function.update state.thread s .idle) :=
      count_update_leave (by rw [there]; rfl) rfl
    have before : state.memory.written + 1 + count Pc.signals (Function.update state.thread s .idle) = _ :=
      undropped _ once
    have after : state.memory.written + 1 + count Pc.signals
        (Function.update (Function.update state.thread s .idle) u .idle) = _ := undropped _ dropped
    omega
  · rintro ⟨few, small⟩ state reached
    exact (paid_of_continues (by omega) small reached).undropped

end Gathered

/-- One thread in `wait` and one in `try_wait_for`, and two signals. -/
theorem nativeAutoResetEvent_token_per_signal_mixed :
    Fintype.card Bool = Fintype.card (Fin 2) ∧
      ∀ state : State (Bool ⊕ Fin 2) Memory Pc,
        Continues (fun timed => if timed then Kind.relative else .wait) state → Undropped 2 state := by
  have balanced : Fintype.card Bool = Fintype.card (Fin 2) := rfl
  refine ⟨balanced, (nativeAutoResetEvent_token_per_signal balanced _).mpr ?_⟩
  decide

/-- **A signal is dropped beside a blocked thread.** Two threads are in `try_wait_for`, which `wait_count_`
does not count: the first signal writes, and the second polls its token. -/
theorem nativeAutoResetEvent_signal_dropped :
    ¬ ∀ (Waiter Signaller : Type) [DecidableEq Waiter] [Fintype Waiter] [DecidableEq Signaller]
      [Fintype Signaller] (kind : Waiter → Kind) (state : State (Waiter ⊕ Signaller) Memory Pc),
        Fintype.card Waiter = Fintype.card Signaller → Continues kind state →
          Undropped (Fintype.card Signaller) state := by
  intro undropped
  obtain ⟨state, reached, dropped⟩ := System.exists_reach_of_run
    ((system false (Fin 2 ⊕ Fin 2)).resume (gathered (Fin 2) fun _ => .relative)) (fun _ => Undisturbed)
    [.step (.inr 0) .go, .step (.inr 0) .go, .step (.inr 0) .go, .step (.inr 1) .go, .step (.inr 1) .go]
    (fun state => decide (state.memory.written + count Pc.signals state.thread = 1)) (by decide +kernel)
  have two := undropped _ _ _ _ rfl reached
  unfold Undropped at two
  rw [of_decide_eq_true dropped] at two
  cases two

end NovaSync.NativeAutoResetEventEventfd
