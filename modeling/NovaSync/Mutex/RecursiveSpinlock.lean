/-
**`recursive_spinlock_plain` and `recursive_spinlock_backoff`: the owner, and the count of what it holds.**

`owner_` is an atomic thread id and `recursion_count_` a plain `std::size_t` beside it: it is set after the
compare-exchange that takes `owner_`, and counted up and down by a thread that has found its own id there.
The two classes differ in what `lock_slow` does between two loads. Every access of either field is a step of
its own, the read and the write of `++` and `--` too. `outstanding` is a history variable: the acquisitions
that a thread has made and not yet unlocked.

* `Stands` — what the two fields say about one thread, at each of its places.
* `recursiveSpinlock_counts` — one holder, whose id is in `owner_` and whose acquisitions are in
  `recursion_count_`; `owner_` is cleared at the last unlock only; nobody else is about to touch the count.
  The count has 64 bits, so a thread may have at most `2 ^ 64 - 1` acquisitions outstanding.
* `recursiveSpinlock_wraps` — with one more it reads 0.
-/

import NovaSync.Concurrency.Transition
import NovaSync.Detail.Atomic
import NovaSync.Detail.Backoff
import Mathlib.Data.BitVec
import Mathlib.Logic.Function.Basic

set_option linter.unusedSectionVars false

namespace NovaSync.RecursiveSpinlock

open Concurrency Detail

/-! ### The program -/

/-- The two implementation classes. -/
inductive Variant
  | plain
  | backoff
deriving DecidableEq, Repr

/-- What `lock_slow` does between two loads: `detail::pause()`, or `backoff.run()`. -/
abbrev Pause := Option ExponentialBackoff

/-- The `backoff` that `lock_slow` declares. -/
def Variant.pause : Variant → Pause
  | .plain => none
  | .backoff => some {}

/-- `std::size_t`. -/
abbrev Count := BitVec 64

/-- `owner_`, where the default id is `none`, and `recursion_count_`. -/
structure Memory (Thread : Type*) where
  owner : Option Thread := none
  recursionCount : Count := 0
deriving DecidableEq, Repr

inductive Op
  | lock
  | tryLock
  | unlock
deriving DecidableEq, Repr

/-- The next access of a thread. `blocking` tells `lock` from `try_lock`. -/
inductive Pc
  /-- Outside all operations. -/
  | idle
  /-- `lock` and `try_lock`: the `compare_exchange_strong` of the empty id. -/
  | acquireCas (blocking : Bool)
  /-- `recursion_count_ = 1`. -/
  | setCount
  /-- `++recursion_count_`: the read. -/
  | increment
  /-- `++recursion_count_`: the write of `count + 1`. -/
  | incremented (count : Count)
  /-- `lock_slow`: the load. -/
  | slowLoad (pause : Pause)
  /-- `lock_slow`: the `compare_exchange_weak` of the empty id. -/
  | slowCas (pause : Pause)
  /-- `--recursion_count_`: the read. -/
  | decrement
  /-- `--recursion_count_`: the write of `count - 1`. -/
  | decremented (count : Count)
  /-- `unlock`: the store of the empty id. -/
  | clear
deriving DecidableEq, Repr

structure Local where
  pc : Pc := .idle
  outstanding : ℕ := 0
deriving DecidableEq, Repr

/-- The caller is about to access `recursion_count_`. -/
def Pc.accesses : Pc → Bool
  | .setCount | .increment | .incremented _ | .decrement | .decremented _ => true
  | _ => false

/-- A thread unlocks only what it holds. -/
def call (op : Op) (here : Local) : Option Local :=
  match here.pc, op with
  | .idle, .lock => some { here with pc := .acquireCas true }
  | .idle, .tryLock => some { here with pc := .acquireCas false }
  | .idle, .unlock => if 0 < here.outstanding then some { here with pc := .decrement } else none
  | _, _ => none

variable {Thread : Type*} [DecidableEq Thread]

/-- Where a failed `compare_exchange_strong` leads, by the id that it found. -/
def found (variant : Variant) (blocking : Bool) (tid : Thread) (expected : Option Thread) : Pc :=
  if expected = some tid then .increment else if blocking then .slowLoad variant.pause else .idle

/-- The next access of the thread `tid`. -/
def step (variant : Variant) (tid : Thread) (choice : Choice) (memory : Memory Thread) (here : Local) :
    Option (Memory Thread × Local) :=
  match here.pc with
  | .idle => none
  | .acquireCas blocking =>
      (compareExchangeStrong choice memory.owner none).map fun exchanged =>
        if exchanged then ({ memory with owner := some tid }, { here with pc := .setCount })
        else (memory, { here with pc := found variant blocking tid memory.owner })
  | .setCount =>
      ordinary choice ({ memory with recursionCount := 1 }, ⟨.idle, here.outstanding + 1⟩)
  | .increment => ordinary choice (memory, { here with pc := .incremented memory.recursionCount })
  | .incremented count =>
      ordinary choice ({ memory with recursionCount := count + 1 }, ⟨.idle, here.outstanding + 1⟩)
  | .slowLoad pause =>
      ordinary choice (memory, { here with pc :=
        if memory.owner = none then .slowCas pause else .slowLoad (pause.map (·.run)) })
  | .slowCas pause =>
      (compareExchangeWeak choice memory.owner none).map fun exchanged =>
        if exchanged then ({ memory with owner := some tid }, { here with pc := .setCount })
        else (memory, { here with pc := .slowLoad pause })
  | .decrement => ordinary choice (memory, { here with pc := .decremented memory.recursionCount })
  | .decremented count =>
      ordinary choice ({ memory with recursionCount := count - 1 },
        if count - 1 = 0 then { here with pc := .clear } else ⟨.idle, here.outstanding - 1⟩)
  | .clear => ordinary choice ({ memory with owner := none }, ⟨.idle, here.outstanding - 1⟩)

structure State (Thread : Type*) where
  memory : Memory Thread
  thread : Thread → Local

inductive Action (Thread : Type*)
  | call (thread : Thread) (op : Op)
  | step (thread : Thread) (choice : Choice)
deriving DecidableEq, Repr

def next (variant : Variant) (state : State Thread) : Action Thread → Option (State Thread)
  | .call t op => (call op (state.thread t)).map fun here =>
      ⟨state.memory, Function.update state.thread t here⟩
  | .step t choice => (step variant t choice state.memory (state.thread t)).map fun after =>
      ⟨after.1, Function.update state.thread t after.2⟩

/-- Any number of threads, each with an id of its own, outside all operations. -/
def system (variant : Variant) (Thread : Type*) [DecidableEq Thread] :
    System (State Thread) (Action Thread) where
  start := { memory := {}, thread := fun _ => {} }
  next := next variant

/-! ### The invariant -/

/-- Where a thread may be that has not taken `owner_`. -/
def Pc.away : Pc → Bool
  | .idle | .acquireCas _ | .slowLoad _ | .slowCas _ => true
  | _ => false

theorem Pc.not_away_of_accesses {pc : Pc} (accesses : pc.accesses = true) : pc.away = false := by
  cases pc <;> first | rfl | cases accesses

/-- The owner at each of its places: the count is what it has outstanding. -/
def Owning (count : Count) (here : Local) : Prop :=
  match here.pc with
  | .setCount => here.outstanding = 0
  | .clear => count = 0 ∧ here.outstanding = 1
  | .incremented read | .decremented read =>
      read = count ∧ count.toNat = here.outstanding ∧ 0 < here.outstanding
  | .slowLoad _ | .slowCas _ => False
  | .idle | .acquireCas _ | .increment | .decrement =>
      count.toNat = here.outstanding ∧ 0 < here.outstanding

/-- The others hold nothing, and are on their way to the lock at most. -/
def Outside (here : Local) : Prop := here.outstanding = 0 ∧ here.pc.away = true

/-- **What the two fields say about a thread**; and another acquisition still fits the count. -/
structure Stands (memory : Memory Thread) (t : Thread) (here : Local) : Prop where
  owning : memory.owner = some t → Owning memory.recursionCount here
  outside : memory.owner ≠ some t → Outside here
  fits : (∃ blocking, here.pc = .acquireCas blocking) ∨ here.pc = .increment ∨
    (∃ count, here.pc = .incremented count) → here.outstanding + 1 < 2 ^ 64

def Sound (state : State Thread) : Prop := ∀ t, Stands state.memory t (state.thread t)

/-- A lock or try_lock is called by a thread whose next acquisition fits the count. -/
def Fits (state : State Thread) : Action Thread → Prop
  | .call t .lock | .call t .tryLock => (state.thread t).outstanding + 1 < 2 ^ 64
  | .call _ .unlock | .step _ _ => True

instance (state : State Thread) : DecidablePred (Fits state)
  | .call t .lock | .call t .tryLock =>
      inferInstanceAs (Decidable ((state.thread t).outstanding + 1 < 2 ^ 64))
  | .call _ .unlock | .step _ _ => inferInstanceAs (Decidable True)

variable {variant : Variant} {state after : State Thread}

theorem sound_start : Sound (system variant Thread).start := by
  intro t
  refine ⟨fun owner => ?_, fun _ => ⟨rfl, rfl⟩, fun acquiring => ?_⟩
  · cases owner
  · rcases acquiring with ⟨_, here⟩ | here | ⟨_, here⟩ <;> cases here

/-- The bystanders of a step see the owner change from the mover's hands and back only. -/
theorem Stands.other {memory between : Memory Thread} {t u : Thread} {here : Local}
    (stands : Stands memory u here) (apart : u ≠ t)
    (moved : between = memory ∨
      (memory.owner = none ∨ memory.owner = some t) ∧ (between.owner = none ∨ between.owner = some t)) :
    Stands between u here := by
  rcases moved with rfl | ⟨before, later⟩
  · exact stands
  · have elsewhere : ∀ {owner : Option Thread}, owner = none ∨ owner = some t → owner ≠ some u := by
      rintro owner (rfl | rfl) same
      · cases same
      · exact apart (Option.some.inj same).symm
    exact ⟨fun owner => absurd owner (elsewhere later), fun _ => stands.outside (elsewhere before),
      stands.fits⟩

/-- Only the owner is anywhere near the count. -/
theorem Stands.owned {memory : Memory Thread} {t : Thread} {here : Local} (stands : Stands memory t here)
    (inside : ¬ Outside here) : memory.owner = some t := by
  by_contra elsewhere
  exact inside (stands.outside elsewhere)

/-- A thread at the count is the owner, with its acquisitions counted. -/
theorem Stands.inside {memory : Memory Thread} {t : Thread} {here : Local} (stands : Stands memory t here)
    (near : here.pc.away = false) : memory.owner = some t ∧ Owning memory.recursionCount here := by
  have owner := stands.owned fun outside => absurd (near.symm.trans outside.2) (by decide)
  exact ⟨owner, stands.owning owner⟩

/-- Whoever takes the empty id has nothing outstanding, and is about to set the count. -/
theorem Stands.taken {memory : Memory Thread} {t : Thread} {here : Local} (stands : Stands memory t here)
    (empty : memory.owner = none) :
    Stands { memory with owner := some t } t { here with pc := .setCount } := by
  refine ⟨fun _ => ?_, fun elsewhere => absurd rfl elsewhere, fun acquiring => ?_⟩
  · exact (stands.outside (by rw [empty]; simp)).1
  · rcases acquiring with ⟨_, same⟩ | same | ⟨_, same⟩ <;> cases same

/-- A place where only the owner can be, and which is not about to add to the count. -/
theorem Stands.of_owning {memory : Memory Thread} {t : Thread} {here : Local}
    (owner : memory.owner = some t) (owning : Owning memory.recursionCount here)
    (fits : here.pc = .increment ∨ (∃ count, here.pc = .incremented count) →
      here.outstanding + 1 < 2 ^ 64)
    (begun : ∀ blocking, here.pc ≠ .acquireCas blocking) : Stands memory t here := by
  refine ⟨fun _ => owning, fun elsewhere => absurd owner elsewhere, fun acquiring => ?_⟩
  rcases acquiring with ⟨blocking, same⟩ | later
  · exact absurd same (begun blocking)
  · exact fits later

/-- **The mover stands after its step**, and only it takes and leaves the lock. -/
theorem Stands.step {memory between : Memory Thread} {t : Thread} {here moved : Local} {choice : Choice}
    (stands : Stands memory t here)
    (stepped : step variant t choice memory here = some (between, moved)) :
    Stands between t moved ∧ (between = memory ∨
      (memory.owner = none ∨ memory.owner = some t) ∧
        (between.owner = none ∨ between.owner = some t)) := by
  unfold RecursiveSpinlock.step at stepped
  cases place : here.pc with
  | idle =>
    rw [place] at stepped
    cases stepped
  | acquireCas blocking =>
    rw [place] at stepped
    rcases compareExchangeStrong_cases stepped with ⟨-, empty, same⟩ | ⟨taken, same⟩
    · cases same
      exact ⟨stands.taken empty, Or.inr ⟨Or.inl empty, Or.inr rfl⟩⟩
    · cases same
      refine ⟨?_, Or.inl rfl⟩
      unfold found
      by_cases own : memory.owner = some t
      · have owning := stands.owning own
        have fits := stands.fits (Or.inl ⟨blocking, place⟩)
        rw [if_pos own]
        simp only [Owning, place] at owning
        exact .of_owning own owning (fun _ => fits) (by simp)
      · rw [if_neg own]
        refine ⟨fun owner => absurd owner own, fun _ => ⟨(stands.outside own).1, ?_⟩, fun acquiring => ?_⟩
        · cases blocking <;> rfl
        · cases blocking <;> simp at acquiring
  | setCount =>
    rw [place] at stepped
    obtain ⟨-, same⟩ := ordinary_eq_some stepped
    cases same
    obtain ⟨owner, owning⟩ := stands.inside (by rw [place]; rfl)
    simp only [Owning, place] at owning
    exact ⟨.of_owning owner (by simp [Owning, owning]) (by simp) (by simp),
      Or.inr ⟨Or.inr owner, Or.inr owner⟩⟩
  | increment =>
    rw [place] at stepped
    obtain ⟨-, same⟩ := ordinary_eq_some stepped
    cases same
    obtain ⟨owner, owning⟩ := stands.inside (by rw [place]; rfl)
    have fits := stands.fits (Or.inr (Or.inl place))
    simp only [Owning, place] at owning
    exact ⟨.of_owning owner ⟨rfl, owning⟩ (fun _ => fits) (by simp), Or.inl rfl⟩
  | incremented count =>
    rw [place] at stepped
    obtain ⟨-, same⟩ := ordinary_eq_some stepped
    cases same
    obtain ⟨owner, owning⟩ := stands.inside (by rw [place]; rfl)
    have fits := stands.fits (Or.inr (Or.inr ⟨count, place⟩))
    simp only [Owning, place] at owning
    obtain ⟨read, counted, positive⟩ := owning
    refine ⟨.of_owning owner ⟨?_, Nat.succ_pos _⟩ (by simp) (by simp), Or.inr ⟨Or.inr owner, Or.inr owner⟩⟩
    show (count + 1).toNat = _
    rw [read]
    bv_omega
  | slowLoad pause =>
    rw [place] at stepped
    obtain ⟨-, same⟩ := ordinary_eq_some stepped
    cases same
    have elsewhere : memory.owner ≠ some t := fun owner => by
      have owning := stands.owning owner
      simp only [Owning, place] at owning
    refine ⟨⟨fun owner => absurd owner elsewhere, fun _ => ⟨(stands.outside elsewhere).1, ?_⟩,
      fun acquiring => ?_⟩, Or.inl rfl⟩
    · by_cases empty : memory.owner = none <;> simp [empty, Pc.away]
    · by_cases empty : memory.owner = none <;> simp [empty] at acquiring
  | slowCas pause =>
    rw [place] at stepped
    rcases compareExchangeWeak_cases stepped with ⟨-, empty, same⟩ | ⟨-, same⟩
    · cases same
      exact ⟨stands.taken empty, Or.inr ⟨Or.inl empty, Or.inr rfl⟩⟩
    · cases same
      have elsewhere : memory.owner ≠ some t := fun owner => by
        have owning := stands.owning owner
        simp only [Owning, place] at owning
      exact ⟨⟨fun owner => absurd owner elsewhere, fun _ => ⟨(stands.outside elsewhere).1, rfl⟩,
        by simp⟩, Or.inl rfl⟩
  | decrement =>
    rw [place] at stepped
    obtain ⟨-, same⟩ := ordinary_eq_some stepped
    cases same
    obtain ⟨owner, owning⟩ := stands.inside (by rw [place]; rfl)
    simp only [Owning, place] at owning
    exact ⟨.of_owning owner ⟨rfl, owning⟩ (by simp) (by simp), Or.inl rfl⟩
  | decremented count =>
    rw [place] at stepped
    obtain ⟨-, same⟩ := ordinary_eq_some stepped
    cases same
    obtain ⟨owner, owning⟩ := stands.inside (by rw [place]; rfl)
    simp only [Owning, place] at owning
    obtain ⟨read, counted, positive⟩ := owning
    refine ⟨?_, Or.inr ⟨Or.inr owner, Or.inr owner⟩⟩
    split
    · rename_i last
      refine .of_owning owner ⟨last, ?_⟩ (by simp) (by simp)
      bv_omega
    · rename_i more
      refine .of_owning owner ⟨?_, ?_⟩ (by simp) (by simp)
      · show (count - 1).toNat = _
        bv_omega
      · show 0 < here.outstanding - 1
        bv_omega
  | clear =>
    rw [place] at stepped
    obtain ⟨-, same⟩ := ordinary_eq_some stepped
    cases same
    obtain ⟨owner, owning⟩ := stands.inside (by rw [place]; rfl)
    simp only [Owning, place] at owning
    refine ⟨⟨fun owner => ?_, fun _ => ⟨?_, rfl⟩, by simp⟩, Or.inr ⟨Or.inr owner, Or.inl rfl⟩⟩
    · cases owner
    · show here.outstanding - 1 = 0
      omega

/-- A call stands where its thread stood. -/
theorem Stands.call {memory : Memory Thread} {t : Thread} {here moved : Local} {op : Op}
    (stands : Stands memory t here) (called : call op here = some moved)
    (fits : op ≠ .unlock → here.outstanding + 1 < 2 ^ 64) : Stands memory t moved := by
  unfold RecursiveSpinlock.call at called
  split at called
  · rename_i place
    cases called
    refine ⟨fun owner => ?_, fun elsewhere => ⟨(stands.outside elsewhere).1, rfl⟩,
      fun _ => fits (by decide)⟩
    have owning := stands.owning owner
    simp only [Owning, place] at owning
    exact owning
  · rename_i place
    cases called
    refine ⟨fun owner => ?_, fun elsewhere => ⟨(stands.outside elsewhere).1, rfl⟩,
      fun _ => fits (by decide)⟩
    have owning := stands.owning owner
    simp only [Owning, place] at owning
    exact owning
  · rename_i place
    simp only [Option.ite_none_right_eq_some, Option.some.injEq] at called
    obtain ⟨positive, rfl⟩ := called
    have owner := stands.owned fun outside => by
      have none := outside.1
      omega
    have owning := stands.owning owner
    simp only [Owning, place] at owning
    exact .of_owning owner owning (by simp) (by simp)
  · cases called

/-- **Every action that fits keeps the invariant.** -/
theorem Sound.next (sound : Sound state) {action : Action Thread} (fits : Fits state action)
    (taken : next variant state action = some after) : Sound after := by
  intro u
  cases action with
  | call t op =>
    simp only [RecursiveSpinlock.next, Option.map_eq_some_iff] at taken
    obtain ⟨here, called, rfl⟩ := taken
    show Stands state.memory u (Function.update state.thread t here u)
    by_cases mover : u = t
    · subst mover
      rw [Function.update_self]
      refine (sound u).call called fun acquires => ?_
      cases op with
      | lock => exact fits
      | tryLock => exact fits
      | unlock => exact absurd rfl acquires
    · rw [Function.update_of_ne mover]
      exact sound u
  | step t choice =>
    simp only [RecursiveSpinlock.next, Option.map_eq_some_iff] at taken
    obtain ⟨⟨between, moved⟩, stepped, rfl⟩ := taken
    show Stands between u (Function.update state.thread t moved u)
    obtain ⟨stands, passed⟩ := (sound t).step stepped
    by_cases mover : u = t
    · subst mover
      rw [Function.update_self]
      exact stands
    · rw [Function.update_of_ne mover]
      exact (sound u).other mover passed

theorem sound_of_reach (reached : (system variant Thread).Reach Fits state) : Sound state :=
  reached.invariant sound_start fun _ _ _ _ sound fits taken => sound.next fits taken

/-! ### Who holds the lock, and how often -/

/-- The thread has acquisitions outstanding, or has taken `owner_` for its first one. -/
def State.Holds (state : State Thread) (t : Thread) : Prop :=
  0 < (state.thread t).outstanding ∨ (state.thread t).pc = .setCount

/-- **The holder is the owner.** -/
theorem Sound.holds_iff (sound : Sound state) (t : Thread) :
    state.Holds t ↔ state.memory.owner = some t := by
  constructor
  · intro holds
    refine (sound t).owned fun outside => ?_
    rcases holds with positive | place
    · have none := outside.1
      omega
    · rw [Outside, place] at outside
      cases outside.2
  · intro owner
    have owning := (sound t).owning owner
    unfold State.Holds
    unfold Owning at owning
    cases place : (state.thread t).pc <;> simp only [place] at owning <;> first | omega | simp

/-- `owner_` is cleared by its owner, at the end of the unlock of its only acquisition. -/
theorem Sound.clears (sound : Sound state) {action : Action Thread}
    (taken : RecursiveSpinlock.next variant state action = some after) (owned : state.memory.owner ≠ none)
    (cleared : after.memory.owner = none) :
    ∃ t choice, action = .step t choice ∧ state.memory.owner = some t ∧
      (state.thread t).pc = .clear ∧ (state.thread t).outstanding = 1 ∧
      (after.thread t).outstanding = 0 := by
  cases action with
  | call t op =>
    simp only [RecursiveSpinlock.next, Option.map_eq_some_iff] at taken
    obtain ⟨here, -, rfl⟩ := taken
    exact absurd cleared owned
  | step t choice =>
    simp only [RecursiveSpinlock.next, Option.map_eq_some_iff] at taken
    obtain ⟨⟨between, moved⟩, stepped, rfl⟩ := taken
    change between.owner = none at cleared
    unfold RecursiveSpinlock.step at stepped
    cases place : (state.thread t).pc with
    | idle =>
      rw [place] at stepped
      cases stepped
    | acquireCas blocking =>
      rw [place] at stepped
      rcases compareExchangeStrong_cases stepped with ⟨-, empty, -⟩ | ⟨-, same⟩
      · exact absurd empty owned
      · cases same
        exact absurd cleared owned
    | slowCas pause =>
      rw [place] at stepped
      rcases compareExchangeWeak_cases stepped with ⟨-, empty, -⟩ | ⟨-, same⟩
      · exact absurd empty owned
      · cases same
        exact absurd cleared owned
    | setCount | increment | incremented | slowLoad | decrement | decremented =>
      rw [place] at stepped
      obtain ⟨-, same⟩ := ordinary_eq_some stepped
      cases same
      exact absurd cleared owned
    | clear =>
      rw [place] at stepped
      obtain ⟨-, same⟩ := ordinary_eq_some stepped
      cases same
      obtain ⟨owner, owning⟩ := (sound t).inside (by rw [place]; rfl)
      simp only [Owning, place] at owning
      refine ⟨t, choice, rfl, owner, place, owning.2, ?_⟩
      show (Function.update state.thread t _ t).outstanding = 0
      rw [Function.update_self, owning.2]

/-- **The recursive spinlock counts exactly, and releases at depth zero.** In every run in which no thread
acquires beyond `2 ^ 64 - 1` outstanding acquisitions:

* at most one thread holds the lock, and it is the one whose id is in `owner_`;
* outside the holder's operations `recursion_count_` is the number of its outstanding acquisitions;
* `owner_` becomes empty only in the unlock of its owner's last outstanding acquisition, the first it made;
* only the thread whose id is in `owner_` is about to access `recursion_count_`. -/
theorem recursiveSpinlock_counts (reached : (system variant Thread).Reach Fits state) :
    (∀ t u, state.Holds t → state.Holds u → t = u) ∧
    (∀ t, state.Holds t ↔ state.memory.owner = some t) ∧
    (∀ t, state.Holds t → (state.thread t).pc = .idle →
      state.memory.recursionCount.toNat = (state.thread t).outstanding) ∧
    (∀ action after, next variant state action = some after → state.memory.owner ≠ none →
      after.memory.owner = none → ∃ t choice, action = .step t choice ∧ state.memory.owner = some t ∧
        (state.thread t).pc = .clear ∧ (state.thread t).outstanding = 1 ∧
        (after.thread t).outstanding = 0) ∧
    (∀ t, (state.thread t).pc.accesses = true → state.memory.owner = some t) := by
  have sound := sound_of_reach reached
  refine ⟨fun t u here there => ?_, sound.holds_iff, fun t holds idle => ?_,
    fun action after taken owned cleared => sound.clears taken owned cleared, fun t accesses => ?_⟩
  · have owner := (sound.holds_iff t).mp here
    have other := (sound.holds_iff u).mp there
    exact Option.some.inj (owner.symm.trans other)
  · have owning := (sound t).owning ((sound.holds_iff t).mp holds)
    simp only [Owning, idle] at owning
    exact owning.1
  · exact ((sound t).inside (Pc.not_away_of_accesses accesses)).1

/-- A thread locks twice, another one spins in `lock_slow`, and the first one has read the count to unlock. -/
theorem recursiveSpinlock_counts_nested :
    ∃ state, (system .backoff (Fin 2)).Reach Fits state ∧ (state.thread 0).outstanding = 2 ∧
      (state.thread 0).pc.accesses = true ∧ state.memory.owner = some 0 ∧ ¬ state.Holds 1 := by
  obtain ⟨state, reached, computed⟩ := System.exists_reach_of_run (system .backoff (Fin 2)) Fits
    [.call 0 .lock, .step 0 .go, .step 0 .go, .call 1 .lock, .step 1 .go, .step 1 .go, .call 0 .tryLock,
      .step 0 .go, .step 0 .go, .step 0 .go, .call 0 .unlock, .step 0 .go]
    (fun state => decide ((state.thread 0).outstanding = 2 ∧ (state.thread 0).pc.accesses = true))
    (by decide +kernel)
  obtain ⟨outstanding, accesses⟩ := of_decide_eq_true computed
  obtain ⟨single, -, -, -, guarded⟩ := recursiveSpinlock_counts reached
  refine ⟨state, reached, outstanding, accesses, guarded 0 accesses, fun holds => ?_⟩
  have same := single 0 1 (Or.inl (by omega)) holds
  cases same

/-! ### Beyond the count -/

/-- The owner locks once more. -/
theorem reachable_relock {t : Thread} {memory : Memory Thread} {thread : Thread → Local} {depth : ℕ}
    (reached : (system variant Thread).Reachable ⟨memory, thread⟩) (owner : memory.owner = some t)
    (here : thread t = ⟨.idle, depth⟩) :
    (system variant Thread).Reachable ⟨{ memory with recursionCount := memory.recursionCount + 1 },
      Function.update thread t ⟨.idle, depth + 1⟩⟩ := by
  have called : (system variant Thread).next ⟨memory, thread⟩ (.call t .lock) =
      some ⟨memory, Function.update thread t ⟨.acquireCas true, depth⟩⟩ := by
    simp [system, next, call, here]
  have missed : (system variant Thread).next
      ⟨memory, Function.update thread t ⟨.acquireCas true, depth⟩⟩ (.step t .go) =
      some ⟨memory, Function.update thread t ⟨.increment, depth⟩⟩ := by
    simp [system, next, step, compareExchangeStrong, ordinary, owner, found]
  have loaded : (system variant Thread).next
      ⟨memory, Function.update thread t ⟨.increment, depth⟩⟩ (.step t .go) =
      some ⟨memory, Function.update thread t ⟨.incremented memory.recursionCount, depth⟩⟩ := by
    simp [system, next, step, ordinary]
  have stored : (system variant Thread).next
      ⟨memory, Function.update thread t ⟨.incremented memory.recursionCount, depth⟩⟩ (.step t .go) =
      some ⟨{ memory with recursionCount := memory.recursionCount + 1 },
        Function.update thread t ⟨.idle, depth + 1⟩⟩ := by
    simp [system, next, step, ordinary]
  exact (((reached.step trivial called).step trivial missed).step trivial loaded).step trivial stored

theorem alone_update (thread : Unit → Local) (here : Local) :
    Function.update thread () here = fun _ => here := by
  funext t
  exact Function.update_self t here thread

/-- One thread, after a number of nested calls of `lock`. -/
theorem reachable_nested (depth : ℕ) :
    (system .plain Unit).Reachable
      ⟨⟨some (), BitVec.ofNat 64 (depth + 1)⟩, fun _ => ⟨.idle, depth + 1⟩⟩ := by
  induction depth with
  | zero =>
    have run : (system .plain Unit).run (system .plain Unit).start
        [.call () .lock, .step () .go, .step () .go] =
        some ⟨⟨some (), 1⟩, Function.update (Function.update (Function.update (fun _ => {}) ()
          ⟨.acquireCas true, 0⟩) () ⟨.setCount, 0⟩) () ⟨.idle, 1⟩⟩ := rfl
    have reached := System.reach_of_run .start run
    rw [alone_update] at reached
    exact reached
  | succ depth ih =>
    have reached := reachable_relock (t := ()) ih rfl rfl
    rw [alone_update] at reached
    have counted : BitVec.ofNat 64 (depth + 1) + 1 = BitVec.ofNat 64 (depth + 1 + 1) := by
      apply BitVec.eq_of_toNat_eq
      simp
    rw [← counted]
    exact reached

/-- **`2 ^ 64` acquisitions outstanding**: the lock is held, and the count reads 0. -/
theorem recursiveSpinlock_wraps :
    ∃ state, (system .plain Unit).Reachable state ∧ state.Holds () ∧ (state.thread ()).pc = .idle ∧
      (state.thread ()).outstanding = 2 ^ 64 ∧ state.memory.recursionCount.toNat = 0 := by
  have reached := reachable_nested (2 ^ 64 - 1)
  rw [Nat.sub_add_cancel (by decide)] at reached
  refine ⟨_, reached, Or.inl ?_, rfl, rfl, ?_⟩
  · exact Nat.two_pow_pos 64
  · show (BitVec.ofNat 64 (2 ^ 64)).toNat = 0
    rw [BitVec.toNat_ofNat, Nat.mod_self]

end NovaSync.RecursiveSpinlock
