/-
**`spinlock_plain` and `spinlock_backoff`: the flag, its holder, and the exchanges that come too late.**

`locked_` is an atomic flag. `lock` exchanges it once and goes to `lock_slow`, which loads the flag until it is
clear and exchanges it then; `try_lock` loads it once and exchanges it if it is clear. The two classes differ in
what `lock_slow` does between two loads. `acquisitions` and `failures` are history variables: the exchanges that
have found the flag clear, and those that have found it set although the load before them had found it clear.

* `step_effect` — everything a step can do.
* `spinlock_exclusion` — the flag is set exactly while one thread holds the lock; it was free during the call of
  whoever has acquired it, and held during the call of whoever has been refused.
* `spinlock_contention` — an acquisition makes at most one exchange of each other thread fail; where the lock is
  free, all who lock come to hold it, as long as they find it free.
* `spinlockBackoff_agrees` — but for their pauses, the two classes have the same runs.
-/

import NovaSync.Concurrency.Moments
import NovaSync.Detail.Atomic
import NovaSync.Detail.Backoff

set_option linter.unusedSectionVars false

namespace NovaSync.Spinlock

open Concurrency Detail

/-! ### The program -/

/-- The two implementation classes. -/
inductive Variant
  | plain
  | backoff
deriving DecidableEq, Repr

/-- What `lock_slow` does between two loads: `detail::pause()`, or `backoff.run()`. -/
abbrev Pause := Option ExponentialBackoff

/-- The `backoff` that `lock_slow` declares. -/
def Variant.pause : Variant → Pause
  | .plain => none
  | .backoff => some {}

structure Memory where
  locked : Bool := false
  acquisitions : ℕ := 0
  failures : ℕ := 0
deriving DecidableEq, Repr

inductive Op
  | lock
  | tryLock
  | unlock
deriving DecidableEq, Repr

/-- How a thread has left its last call: without the lock, with it, or with `false` from `try_lock`. -/
inductive Report
  | nothing
  | acquired
  | refused
deriving DecidableEq, Repr

/-- The next access of a thread. -/
inductive Pc
  /-- Outside all operations. -/
  | outside (report : Report)
  /-- `lock`: the exchange. -/
  | exchange
  /-- `lock_slow`: the load. -/
  | slowLoad (pause : Pause)
  /-- `lock_slow`: the exchange. -/
  | slowExchange (pause : Pause)
  /-- `try_lock`: the load. -/
  | tryLoad
  /-- `try_lock`: the exchange. -/
  | tryExchange
  /-- `unlock`: the store. -/
  | unlock
deriving DecidableEq, Repr

/-- Who holds the lock unlocks it, and does not lock it again. -/
def call (op : Op) : Pc → Option Pc
  | .outside .acquired =>
      match op with
      | .unlock => some .unlock
      | .lock | .tryLock => none
  | .outside .nothing | .outside .refused =>
      match op with
      | .lock => some .exchange
      | .tryLock => some .tryLoad
      | .unlock => none
  | _ => none

namespace Memory

/-- An exchange that finds the flag clear. -/
def acquire (memory : Memory) : Memory :=
  { memory with locked := true, acquisitions := memory.acquisitions + 1 }

/-- An exchange that finds the flag set after a load has found it clear. -/
def fail (memory : Memory) : Memory := { memory with failures := memory.failures + 1 }

/-- The store of `unlock`. -/
def release (memory : Memory) : Memory := { memory with locked := false }

end Memory

/-- The next access of a thread. -/
def step (variant : Variant) (choice : Choice) (memory : Memory) : Pc → Option (Memory × Pc)
  | .outside _ => none
  | .exchange => ordinary choice <|
      if memory.locked then (memory, .slowLoad variant.pause) else (memory.acquire, .outside .acquired)
  | .slowLoad pause => ordinary choice
      (memory, if memory.locked then .slowLoad (pause.map (·.run)) else .slowExchange pause)
  | .slowExchange pause => ordinary choice <|
      if memory.locked then (memory.fail, .slowLoad pause) else (memory.acquire, .outside .acquired)
  | .tryLoad => ordinary choice (memory, if memory.locked then .outside .refused else .tryExchange)
  | .tryExchange => ordinary choice <|
      if memory.locked then (memory.fail, .outside .refused) else (memory.acquire, .outside .acquired)
  | .unlock => ordinary choice (memory.release, .outside .nothing)

/-- The spinlock as a thread program; nobody sleeps. -/
def program (variant : Variant) : Program Memory Pc Op Choice where
  idle := .outside .nothing
  call := call
  step := step variant
  wake := fun _ => none
  asleep := fun _ => false
  woken := id

theorem program_silent (variant : Variant) : (program variant).Silent := fun _ => rfl

/-- The spinlock used by the threads of `Thread`. -/
abbrev system (variant : Variant) (Thread : Type*) [DecidableEq Thread] [Fintype Thread] :
    System (State Thread Memory Pc) (Action Thread Op Choice) :=
  (program variant).system {}

/-- The flag is clear; it is set. -/
inductive Moment
  | free
  | held
deriving DecidableEq, Repr

def holds {Thread : Type*} (moment : Moment) (state : State Thread Memory Pc) : Bool :=
  match moment with
  | .free => !state.memory.locked
  | .held => state.memory.locked

/-- The spinlock beside the moments of the threads' calls. -/
abbrev watched (variant : Variant) (Thread : Type*) [DecidableEq Thread] [Fintype Thread] :
    System (State Thread Memory Pc × (Thread → Moment → Bool)) (Action Thread Op Choice) :=
  (program variant).watched {} holds

namespace Pc

/-- The thread holds the lock. -/
def owner : Pc → Bool
  | .outside .acquired | .unlock => true
  | _ => false

/-- A load has found the flag clear, and the exchange is next. -/
def exchanges : Pc → Bool
  | .slowExchange _ | .tryExchange => true
  | _ => false

/-- The thread is inside `lock`. -/
def locking : Pc → Bool
  | .exchange | .slowLoad _ | .slowExchange _ => true
  | _ => false

end Pc

/-- What a report tells of the flag. -/
def Report.Tells (report : Report) (moment : Moment) : Prop :=
  match report with
  | .acquired => moment = .free
  | .refused => moment = .held
  | .nothing => False

/-- The thread is outside, with a report of the moment. -/
def Pc.Owes (pc : Pc) (moment : Moment) : Prop := ∃ report : Report, pc = .outside report ∧ report.Tells moment

/-! ### What a step can do -/

/-- **The effects of a step.** A thread moves on; a load finds the flag clear; an exchange acquires or comes too
late; an attempt is refused; the holder unlocks. -/
inductive Effect (memory : Memory) (pc : Pc) : Memory → Pc → Prop
  | moves {after : Pc} : memory.locked = true → pc.owner = false → pc.exchanges = false → after.owner = false →
      after.exchanges = false → (∀ report, after = .outside report → report = .refused) →
      Effect memory pc memory after
  | finds {after : Pc} : memory.locked = false → pc.owner = false → pc.exchanges = false → after.owner = false →
      after.exchanges = true → Effect memory pc memory after
  | acquires : memory.locked = false → pc.owner = false → Effect memory pc memory.acquire (.outside .acquired)
  | fails {after : Pc} : memory.locked = true → pc.exchanges = true → pc.owner = false → after.owner = false →
      after.exchanges = false → (∀ report, after = .outside report → report = .refused) →
      Effect memory pc memory.fail after
  | releases : pc = .unlock → Effect memory pc memory.release (.outside .nothing)

variable {variant : Variant}

theorem step_effect {choice : Choice} {memory after : Memory} {pc moved : Pc}
    (stepped : step variant choice memory pc = some (after, moved)) : Effect memory pc after moved := by
  cases pc with
  | outside report => cases stepped
  | exchange =>
    obtain ⟨-, result⟩ := ordinary_eq_some stepped
    split at result <;> cases result
    · exact .moves ‹_› rfl rfl rfl rfl nofun
    · exact .acquires (eq_false_of_ne_true ‹_›) rfl
  | slowLoad pause =>
    obtain ⟨-, result⟩ := ordinary_eq_some stepped
    cases result
    split
    · exact .moves ‹_› rfl rfl rfl rfl nofun
    · exact .finds (eq_false_of_ne_true ‹_›) rfl rfl rfl rfl
  | slowExchange pause =>
    obtain ⟨-, result⟩ := ordinary_eq_some stepped
    split at result <;> cases result
    · exact .fails ‹_› rfl rfl rfl rfl nofun
    · exact .acquires (eq_false_of_ne_true ‹_›) rfl
  | tryLoad =>
    obtain ⟨-, result⟩ := ordinary_eq_some stepped
    cases result
    split
    · refine .moves ‹_› rfl rfl rfl rfl fun report here => ?_
      cases here
      rfl
    · exact .finds (eq_false_of_ne_true ‹_›) rfl rfl rfl rfl
  | tryExchange =>
    obtain ⟨-, result⟩ := ordinary_eq_some stepped
    split at result <;> cases result
    · refine .fails ‹_› rfl rfl rfl rfl fun report here => ?_
      cases here
      rfl
    · exact .acquires (eq_false_of_ne_true ‹_›) rfl
  | unlock =>
    cases (ordinary_eq_some stepped).2
    exact .releases rfl

/-- A call keeps the ownership, and leads to no exchange that a load has allowed. -/
theorem call_begins {op : Op} {pc moved : Pc} (called : call op pc = some moved) :
    moved.owner = pc.owner ∧ pc.exchanges = false ∧ moved.exchanges = false ∧
      ∀ report, moved ≠ .outside report := by
  cases pc with
  | outside report => cases report <;> cases op <;> cases called <;> exact ⟨rfl, rfl, rfl, nofun⟩
  | exchange | slowLoad | slowExchange | tryLoad | tryExchange | unlock => cases called

/-! ### One holder -/

section Runs

variable {Thread : Type*} [DecidableEq Thread] [Fintype Thread] {state : State Thread Memory Pc}
  {past : Thread → Moment → Bool}

/-- The flag counts the holders. -/
def Exclusive (state : State Thread Memory Pc) : Prop := count Pc.owner state.thread = state.memory.locked.toNat

theorem Exclusive.effect {t : Thread} {memory : Memory} {moved : Pc} (exclusive : Exclusive state)
    (effect : Effect state.memory (state.thread t) memory moved) :
    Exclusive ⟨memory, Function.update state.thread t moved⟩ := by
  have change := count_update Pc.owner state.thread t moved
  unfold Exclusive at *
  cases effect with
  | moves _ before _ after | finds _ before _ after | fails _ _ before after =>
    rw [before, after] at change
    simpa only [Memory.fail, exclusive, Bool.toNat_false, Nat.add_zero] using change
  | acquires free before =>
    rw [before, exclusive, free] at change
    simpa only [Memory.acquire, Pc.owner, Bool.toNat_false, Bool.toNat_true, Nat.add_zero] using change
  | releases here =>
    have most := Bool.toNat_le state.memory.locked
    rw [here] at change
    simp only [Pc.owner, Memory.release, Bool.toNat_true, Bool.toNat_false] at change ⊢
    omega

theorem exclusive_of_reachable (reached : (system variant Thread).Reachable state) : Exclusive state := by
  have start : Exclusive (system variant Thread).start := count_const rfl
  refine reached.invariant start fun state action after _ exclusive _ taken => ?_
  rcases (program_silent variant).next_cases taken with ⟨t, op, moved, -, called, rfl⟩ |
    ⟨t, choice, memory, moved, -, stepped, rfl⟩
  · have same : count Pc.owner (Function.update state.thread t moved) = count Pc.owner state.thread :=
      count_update_same (call_begins called).1
    exact same.trans exclusive
  · exact exclusive.effect (step_effect stepped)

theorem past_of_report (reached : (watched variant Thread).Reachable (state, past)) {t : Thread} {report : Report}
    (returned : state.thread t = .outside report) {moment : Moment} (told : report.Tells moment) :
    past t moment = true := by
  have idle : ∀ moment, ¬ (program variant).idle.Owes moment := by
    rintro moment ⟨report, here, told⟩
    cases here
    exact told
  have calls : ∀ op pc moved moment, (program variant).call op pc = some moved → ¬ moved.Owes moment := by
    rintro op pc moved moment called ⟨report, here, -⟩
    exact (call_begins called).2.2.2 report here
  have steps : ∀ (state : State Thread Memory Pc) t choice memory moved moment,
      (program variant).step choice state.memory (state.thread t) = some (memory, moved) → moved.Owes moment →
      (state.thread t).Owes moment ∨ holds moment state = true ∨
        holds moment ⟨memory, Function.update state.thread t moved⟩ = true := by
    rintro state t choice memory moved moment stepped ⟨report, rfl, told⟩
    refine Or.inr (Or.inl ?_)
    cases step_effect stepped with
    | moves held _ _ _ _ refused | fails held _ _ _ _ refused =>
      rw [refused report rfl] at told
      cases told
      exact held
    | finds _ _ _ _ exchanges => cases exchanges
    | acquires free =>
      cases told
      simp only [holds, free, Bool.not_false]
    | releases => exact told.elim
  exact Program.past_of_owed (program_silent variant) idle calls steps reached ⟨report, returned, told⟩

/-- **Mutual exclusion.** The flag is set exactly while one thread holds the lock. For a thread that has acquired
the lock there was a moment of the call at which it was free, and for one that has been refused one at which it
was held. -/
theorem spinlock_exclusion (reached : (watched variant Thread).Reachable (state, past)) :
    count Pc.owner state.thread = state.memory.locked.toNat ∧
      (∀ t u, (state.thread t).owner = true → (state.thread u).owner = true → t = u) ∧
      (∀ t, state.thread t = .outside .acquired → past t .free = true) ∧
      ∀ t, state.thread t = .outside .refused → past t .held = true := by
  have exclusive : count Pc.owner state.thread = state.memory.locked.toNat := exclusive_of_reachable reached.erase
  refine ⟨exclusive, fun t u here there => ?_, fun t returned => past_of_report reached returned rfl,
    fun t returned => past_of_report reached returned rfl⟩
  exact eq_of_count_le_one (exclusive.le.trans (Bool.toNat_le _)) here there

/-- Thread 1 loads the flag before thread 0 sets it, and exchanges it afterwards. -/
theorem spinlock_exclusion_late :
    ∃ (state : State (Fin 2) Memory Pc) (past : Fin 2 → Moment → Bool),
      (watched .backoff (Fin 2)).Reachable (state, past) ∧ state.thread 0 = .outside .acquired ∧
      state.thread 1 = .outside .refused ∧ count Pc.owner state.thread = 1 ∧ past 0 .free = true ∧
      past 1 .held = true := by
  obtain ⟨⟨state, past⟩, reached, computed⟩ := System.exists_reachable_of_run (watched .backoff (Fin 2))
    [.call 1 .tryLock, .step 1 .go, .call 0 .lock, .step 0 .go, .step 1 .go]
    (fun here => decide (here.1.thread 0 = .outside .acquired ∧ here.1.thread 1 = .outside .refused ∧
      here.1.memory.locked = true)) (by decide +kernel)
  obtain ⟨acquired, refused, locked⟩ := of_decide_eq_true computed
  obtain ⟨one, -, free, held⟩ := spinlock_exclusion reached
  rw [locked] at one
  exact ⟨state, past, reached, acquired, refused, one, free 0 acquired, held 1 refused⟩

/-! ### Exchanges that come too late -/

/-- The threads whose exchange is going to fail. -/
def late (state : State Thread Memory Pc) : ℕ :=
  if state.memory.locked then count Pc.exchanges state.thread else 0

/-- Each acquisition has made at most one exchange of each other thread fail, or is about to. -/
def Contended (state : State Thread Memory Pc) : Prop :=
  state.memory.failures + late state ≤ (Fintype.card Thread - 1) * state.memory.acquisitions

theorem Contended.effect {t : Thread} {memory : Memory} {moved : Pc} (contended : Contended state)
    (effect : Effect state.memory (state.thread t) memory moved) :
    Contended ⟨memory, Function.update state.thread t moved⟩ := by
  have change := count_update Pc.exchanges state.thread t moved
  unfold Contended late at *
  cases effect with
  | moves held _ before _ after =>
    rw [before, after] at change
    simp only [held, if_true] at contended ⊢
    omega
  | finds free =>
    simp only [free, Bool.false_eq_true, if_false] at contended ⊢
    exact contended
  | acquires free =>
    have apart : ∀ pc : Pc, pc.exchanges = true → pc.owner = false := by
      intro pc exchanges
      cases pc with
      | slowExchange | tryExchange => rfl
      | outside | exchange | slowLoad | tryLoad | unlock => cases exchanges
    have others : count Pc.exchanges (Function.update state.thread t (.outside .acquired)) +
        count Pc.owner (Function.update state.thread t (.outside .acquired)) ≤ Fintype.card Thread :=
      count_add_count_le_card fun u => apart _
    have one : 0 < count Pc.owner (Function.update state.thread t (.outside .acquired)) :=
      count_pos (t := t) (by rw [Function.update_self]; rfl)
    simp only [free, Bool.false_eq_true, if_false] at contended
    simp only [Memory.acquire, if_true, Nat.mul_succ]
    omega
  | fails held before _ _ after =>
    rw [before, after] at change
    simp only [held, if_true, Bool.toNat_true, Bool.toNat_false] at contended change
    simp only [Memory.fail, held, if_true]
    omega
  | releases =>
    simp only [Memory.release, Bool.false_eq_true, if_false]
    omega

theorem contended_of_reachable (reached : (system variant Thread).Reachable state) : Contended state := by
  have start : Contended (system variant Thread).start := Nat.zero_le _
  refine reached.invariant start fun state action after _ contended _ taken => ?_
  rcases (program_silent variant).next_cases taken with ⟨t, op, moved, -, called, rfl⟩ |
    ⟨t, choice, memory, moved, -, stepped, rfl⟩
  · have begins := call_begins called
    have same : count Pc.exchanges (Function.update state.thread t moved) = count Pc.exchanges state.thread :=
      count_update_same (begins.2.2.1.trans begins.2.1.symm)
    unfold Contended late at *
    simp only [same]
    exact contended
  · exact contended.effect (step_effect stepped)

/-- **A free lock is taken** by whoever locks, as long as it is free whenever it looks. -/
theorem lock_comes {memory : Memory} {pc : Pc} (inside : pc.locking = true) (free : memory.locked = false) :
    (program variant).Comes .go Memory.locked (· = .outside .acquired) memory pc := by
  have exchanges : ∀ (memory : Memory) (pause : Pause), memory.locked = false →
      (program variant).Comes .go Memory.locked (· = .outside .acquired) memory (.slowExchange pause) := by
    intro memory pause free
    have stepped : (program variant).step .go memory (.slowExchange pause) =
        some (memory.acquire, .outside .acquired) := by
      simp only [program, step, ordinary, free, Bool.false_eq_true, if_false, if_true]
    exact Program.Comes.after stepped fun _ _ => .arrived rfl
  cases pc with
  | outside | tryLoad | tryExchange | unlock => cases inside
  | exchange =>
    have stepped : (program variant).step .go memory .exchange = some (memory.acquire, .outside .acquired) := by
      simp only [program, step, ordinary, free, Bool.false_eq_true, if_false, if_true]
    exact Program.Comes.after stepped fun _ _ => .arrived rfl
  | slowLoad pause =>
    have stepped : (program variant).step .go memory (.slowLoad pause) = some (memory, .slowExchange pause) := by
      simp only [program, step, ordinary, free, Bool.false_eq_true, if_false, if_true]
    exact Program.Comes.after stepped fun later same => exchanges later pause (same.trans free)
  | slowExchange pause => exact exchanges memory pause free

/-- **Contention.** An acquisition makes at most one exchange of each other thread fail, whatever `try_lock` and the
slow paths do meanwhile. Either somebody holds the lock, or whoever locks comes to hold it, as long as it finds the
lock free whenever it looks. -/
theorem spinlock_contention (reached : (system variant Thread).Reachable state) :
    state.memory.failures ≤ (Fintype.card Thread - 1) * state.memory.acquisitions ∧
      ((∃ u, (state.thread u).owner = true) ∨ ∀ t, (state.thread t).locking = true →
        (program variant).Comes .go Memory.locked (· = .outside .acquired) state.memory (state.thread t)) := by
  have contended := contended_of_reachable reached
  unfold Contended at contended
  refine ⟨by omega, ?_⟩
  cases locked : state.memory.locked with
  | true =>
    have exclusive : count Pc.owner state.thread = state.memory.locked.toNat := exclusive_of_reachable reached
    rw [locked] at exclusive
    exact Or.inl (exists_of_count_pos (exclusive.symm ▸ Nat.one_pos))
  | false => exact Or.inr fun t inside => lock_comes inside locked

/-- The second acquisition of thread 0 makes the exchanges of threads 1 and 2 fail; after the unlock thread 1
comes to hold the lock. -/
theorem spinlock_contention_twice :
    ∃ state, (system .plain (Fin 3)).Reachable state ∧ state.memory.acquisitions = 2 ∧ state.memory.failures = 2 ∧
      state.memory.failures ≤ 2 * state.memory.acquisitions ∧
      (program .plain).Comes .go Memory.locked (· = .outside .acquired) state.memory (state.thread 1) := by
  obtain ⟨state, reached, computed⟩ := System.exists_reachable_of_run (system .plain (Fin 3))
    [.call 0 .lock, .step 0 .go, .call 1 .lock, .step 1 .go, .call 0 .unlock, .step 0 .go, .step 1 .go,
      .call 2 .tryLock, .step 2 .go, .call 0 .lock, .step 0 .go, .step 1 .go, .step 2 .go, .call 0 .unlock,
      .step 0 .go]
    (fun state => decide (state.memory.acquisitions = 2 ∧ state.memory.failures = 2 ∧
      (state.thread 1).locking = true ∧ ∀ u, (state.thread u).owner = false)) (by decide +kernel)
  obtain ⟨acquisitions, failures, locking, nobody⟩ := of_decide_eq_true computed
  obtain ⟨few, ⟨u, owner⟩ | comes⟩ := spinlock_contention reached
  · rw [nobody u] at owner
    cases owner
  · exact ⟨state, reached, acquisitions, failures, few, comes 1 locking⟩

/-! ### The pauses do not matter -/

/-- A place without its pauses. -/
def Pc.erase : Pc → Pc
  | .slowLoad _ => .slowLoad none
  | .slowExchange _ => .slowExchange none
  | pc => pc

/-- The pauses of a place are those of a backoff that has doubled at most 13 times. -/
def Pc.Paced : Pc → Prop
  | .slowLoad pause | .slowExchange pause => ∃ doubled ≤ 13, pause = some ⟨2 ^ (doubled + 1)⟩
  | _ => True

theorem run_paced {doubled : ℕ} (few : doubled ≤ 13) : ∃ later ≤ 13,
    (some ⟨2 ^ (doubled + 1)⟩ : Pause).map (·.run) = some ⟨2 ^ (later + 1)⟩ := by
  by_cases room : doubled < 13
  · refine ⟨doubled + 1, room, ?_⟩
    have below : 2 ^ (doubled + 1) < spinLimit :=
      show 2 ^ (doubled + 1) < 2 ^ 14 from Nat.pow_lt_pow_right Nat.one_lt_two (by omega)
    simp only [Option.map_some, ExponentialBackoff.run, if_pos below, ← Nat.pow_succ]
  · obtain rfl : doubled = 13 := by omega
    exact ⟨13, le_rfl, rfl⟩

def erase (state : State Thread Memory Pc) : State Thread Memory Pc :=
  ⟨state.memory, fun t => (state.thread t).erase⟩

theorem call_erase (op : Op) (pc : Pc) : call op pc.erase = (call op pc).map Pc.erase := by
  cases pc with
  | outside report => cases report <;> cases op <;> rfl
  | exchange | slowLoad | slowExchange | tryLoad | tryExchange | unlock => rfl

theorem call_ne_slow {op : Op} {pc : Pc} (pause : Pause) : call op pc ≠ some (.slowLoad pause) := by
  cases pc with
  | outside report => cases report <;> cases op <;> nofun
  | exchange | slowLoad | slowExchange | tryLoad | tryExchange | unlock => nofun

theorem step_erase (choice : Choice) (memory : Memory) (pc : Pc) :
    step .plain choice memory pc.erase = (step .backoff choice memory pc).map (Prod.map id Pc.erase) := by
  cases pc <;> cases choice <;> cases locked : memory.locked <;>
    simp [step, ordinary, Pc.erase, Variant.pause, locked]

theorem erase_update (state : State Thread Memory Pc) (memory : Memory) (t : Thread) (moved : Pc) :
    erase ⟨memory, Function.update state.thread t moved⟩ =
      ⟨memory, Function.update (erase state).thread t moved.erase⟩ := by
  ext u
  · rfl
  · exact Function.apply_update (fun _ => Pc.erase) state.thread t moved u

theorem next_erase (state : State Thread Memory Pc) (action : Action Thread Op Choice) :
    (program .plain).next (erase state) action = ((program .backoff).next state action).map erase := by
  cases action with
  | call t op =>
    simp only [Program.next, program, erase, call_erase, Option.map_map]
    congr 1
    funext moved
    exact (erase_update state state.memory t moved).symm
  | step t choice =>
    simp only [Program.next, program, erase, step_erase, Option.map_map]
    congr 1
    funext moved
    exact (erase_update state moved.1 t moved.2).symm
  | wake t target => cases target <;> rfl

theorem Pc.Paced.step {choice : Choice} {memory after : Memory} {pc moved : Pc} (paced : pc.Paced)
    (stepped : Spinlock.step .backoff choice memory pc = some (after, moved)) : moved.Paced := by
  cases pc with
  | outside report => cases stepped
  | exchange =>
    obtain ⟨-, result⟩ := ordinary_eq_some stepped
    split at result <;> cases result
    · exact ⟨0, Nat.zero_le _, rfl⟩
    · trivial
  | slowLoad pause =>
    obtain ⟨doubled, few, rfl⟩ := paced
    obtain ⟨-, result⟩ := ordinary_eq_some stepped
    cases result
    split
    · exact run_paced few
    · exact ⟨doubled, few, rfl⟩
  | slowExchange pause =>
    obtain ⟨-, result⟩ := ordinary_eq_some stepped
    split at result <;> cases result
    · exact paced
    · trivial
  | tryLoad =>
    obtain ⟨-, result⟩ := ordinary_eq_some stepped
    cases result
    split <;> trivial
  | tryExchange =>
    obtain ⟨-, result⟩ := ordinary_eq_some stepped
    split at result <;> cases result <;> trivial
  | unlock =>
    cases (ordinary_eq_some stepped).2
    trivial

theorem Pc.Paced.call {op : Op} {pc moved : Pc} (called : Spinlock.call op pc = some moved) : moved.Paced := by
  obtain ⟨-, -, outside, -⟩ := call_begins called
  cases moved with
  | slowLoad pause => exact absurd called (call_ne_slow pause)
  | slowExchange pause => cases outside
  | outside | exchange | tryLoad | tryExchange | unlock => trivial

theorem paced_of_reachable (reached : (system .backoff Thread).Reachable state) (t : Thread) :
    (state.thread t).Paced :=
  (program_silent .backoff).everywhere (P := Pc.Paced) trivial (fun _ _ _ _ called => Pc.Paced.call called)
    (fun _ _ _ _ _ paced stepped => paced.step stepped) reached t

/-- **The pauses do not matter**: without them, what `spinlock_backoff` can reach is what `spinlock_plain` can
reach. Its pauses double from 2 up to `spin_limit`. -/
theorem spinlockBackoff_agrees :
    (∀ state : State Thread Memory Pc, (system .plain Thread).Reachable state ↔
      ∃ paced, (system .backoff Thread).Reachable paced ∧ erase paced = state) ∧
    ∀ state : State Thread Memory Pc, (system .backoff Thread).Reachable state → ∀ t, (state.thread t).Paced := by
  refine ⟨fun state => ⟨fun reached => ?_, ?_⟩, fun state reached t => paced_of_reachable reached t⟩
  · have start : ∃ paced, (system .backoff Thread).Reachable paced ∧ erase paced = (system .plain Thread).start :=
      ⟨_, .start, rfl⟩
    refine reached.invariant
      (P := fun state => ∃ paced, (system .backoff Thread).Reachable paced ∧ erase paced = state) start ?_
    rintro state action after _ ⟨paced, before, rfl⟩ _ taken
    obtain ⟨later, moved, same⟩ := Option.map_eq_some_iff.mp ((next_erase paced action).symm.trans taken)
    exact ⟨later, before.step trivial moved, same⟩
  · rintro ⟨paced, reached, rfl⟩
    refine reached.simulate erase (fun _ action => action) rfl fun state action after _ _ taken => ⟨trivial, ?_⟩
    exact (next_erase state action).trans (congrArg (Option.map erase) taken)

end Runs

end NovaSync.Spinlock
