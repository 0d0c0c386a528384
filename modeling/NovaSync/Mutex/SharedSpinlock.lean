/-
**`shared_spinlock_plain` and `shared_spinlock_backoff` as one thread program.**

`state_` is one 32-bit word with three fields: `write_locked` (bit 31), `write_pending` (bit 30) and
the number of readers. The two classes differ in what their slow paths do between two loads: the plain
one pauses, the other one runs an `exponential_backoff`.

A word that the code compares with carries the tests it has passed: `EmptyWord` was read without
readers and without `write_locked`, `BusyWord` with readers only, `OpenWord` with both flags clear.
`Slow.announced` is a history variable: the writer has been in the loop that waits for the readers to
drain, after setting `write_pending` or finding it set.

* `step_effect` — what a step can do to the word and to the thread's standing, once for all theorems.
-/

import NovaSync.Concurrency.Threads
import NovaSync.Detail.Atomic
import NovaSync.Detail.Backoff
import Mathlib.Data.Nat.Bitwise

namespace NovaSync.SharedSpinlock

open Concurrency Detail

/-! ### The word -/

/-- `std::atomic<uint32_t> state_`. -/
abbrev Word := BitVec 32

def writeLocked : Word := 1 <<< 31

def writePending : Word := 1 <<< 30

def readersMask : Word := ~~~(writeLocked ||| writePending)

/-- A word read without readers and without `write_locked`. -/
abbrev EmptyWord := {word : Word // word &&& readersMask = 0 ∧ word &&& writeLocked = 0}

/-- A word read with readers and with both flags clear. -/
abbrev BusyWord :=
  {word : Word // word &&& writeLocked = 0 ∧ word &&& readersMask ≠ 0 ∧ word &&& writePending = 0}

/-- A word read with both flags clear. -/
abbrev OpenWord := {word : Word // word &&& (writeLocked ||| writePending) = 0}

theorem and_twoPow_eq_zero (word : Word) {i : ℕ} (inside : i < 32) :
    word &&& BitVec.twoPow 32 i = 0 ↔ word.toNat / 2 ^ i % 2 = 0 := by
  rw [← BitVec.toNat_inj, BitVec.toNat_and, BitVec.toNat_twoPow_of_lt inside, Nat.and_two_pow,
    Nat.testBit_eq_decide_div_mod_eq, show (0 : Word).toNat = 0 from rfl]
  by_cases odd : word.toNat / 2 ^ i % 2 = 1
  · simp [odd]
  · simp [odd]
    omega

/-- `write_locked` is clear. -/
theorem unlocked_iff (word : Word) : word &&& writeLocked = 0 ↔ word.toNat < 2 ^ 31 := by
  rw [show writeLocked = BitVec.twoPow 32 31 from rfl, and_twoPow_eq_zero word (by omega)]
  have bound := word.isLt
  omega

/-- `write_pending` is clear. -/
theorem unannounced_iff (word : Word) : word &&& writePending = 0 ↔ word.toNat % 2 ^ 31 < 2 ^ 30 := by
  rw [show writePending = BitVec.twoPow 32 30 from rfl, and_twoPow_eq_zero word (by omega)]
  omega

/-- The readers are counted by the low 30 bits. -/
theorem toNat_readers (word : Word) : (word &&& readersMask).toNat = word.toNat % 2 ^ 30 := by
  rw [BitVec.toNat_and, show readersMask.toNat = 2 ^ 30 - 1 from rfl, Nat.and_two_pow_sub_one_eq_mod]

/-- The flags are what the readers leave of the word. -/
theorem toNat_flags (word : Word) :
    (word &&& (writeLocked ||| writePending)).toNat + word.toNat % 2 ^ 30 = word.toNat := by
  have apart : (word &&& (writeLocked ||| writePending)) &&& (word &&& readersMask) = 0 := by
    rw [readersMask, BitVec.and_assoc, ← BitVec.and_assoc _ word, BitVec.and_comm _ word,
      BitVec.and_assoc]
    simp
  have whole : (word &&& (writeLocked ||| writePending)) + (word &&& readersMask) = word := by
    rw [BitVec.add_eq_or_of_and_eq_zero _ _ apart, ← BitVec.and_or_distrib_left,
      show (writeLocked ||| writePending) ||| readersMask = BitVec.allOnes 32 from rfl,
      BitVec.and_allOnes]
  have low := toNat_readers word
  have small : (word &&& (writeLocked ||| writePending)).toNat ≤ word.toNat := by
    rw [BitVec.toNat_and]
    exact Nat.and_le_left
  generalize word &&& (writeLocked ||| writePending) = flags at *
  generalize word &&& readersMask = readers at *
  bv_omega

theorem unread_iff (word : Word) : word &&& readersMask = 0 ↔ word.toNat % 2 ^ 30 = 0 := by
  rw [← BitVec.toNat_inj, toNat_readers, show (0 : Word).toNat = 0 from rfl]

/-- Both flags are clear. -/
theorem open_iff (word : Word) :
    word &&& (writeLocked ||| writePending) = 0 ↔ word.toNat < 2 ^ 30 := by
  rw [BitVec.and_or_distrib_left]
  refine BitVec.or_eq_zero_iff.trans ((and_congr (unlocked_iff word) (unannounced_iff word)).trans ?_)
  omega

/-- `(expected & ~write_pending) | write_locked` on a word without readers and without
`write_locked`. -/
theorem acquired_eq {word : Word} (empty : word &&& readersMask = 0 ∧ word &&& writeLocked = 0) :
    (word &&& ~~~writePending) ||| writeLocked = writeLocked := by
  rw [unread_iff, unlocked_iff] at empty
  have fields : word = 0 ∨ word = writePending := by
    rw [← BitVec.toNat_inj, ← BitVec.toNat_inj, show (0 : Word).toNat = 0 from rfl,
      show writePending.toNat = 2 ^ 30 from rfl]
    omega
  rcases fields with rfl | rfl <;> rfl

/-- `expected | write_pending` on a word without it. -/
theorem announced_eq {word : Word} (unannounced : word &&& writePending = 0) :
    word ||| writePending = word + writePending :=
  (BitVec.add_eq_or_of_and_eq_zero _ _ unannounced).symm

/-! ### The program -/

/-- The two implementation classes. -/
inductive Variant
  | plain
  | backoff
deriving DecidableEq, Repr

/-- What a slow path does between two loads: `detail::pause()`, or `backoff.run()`. -/
abbrev Pause := Option ExponentialBackoff

/-- The `backoff` that the slow paths declare. -/
def Variant.pause : Variant → Pause
  | .plain => none
  | .backoff => some {}

/-- The local state of `lock_slow`. -/
structure Slow where
  pause : Pause
  announced : Bool := false
deriving DecidableEq, Repr

/-- One pause. -/
def Slow.paused (slow : Slow) : Slow := { slow with pause := slow.pause.map (·.run) }

inductive Op
  | lock
  | tryLock
  | unlock
  | lockShared
  | tryLockShared
  | unlockShared
deriving DecidableEq, Repr

/-- The next atomic operation of a thread. `blocking` tells `lock_shared` from `try_lock_shared`. -/
inductive Pc
  /-- Outside all operations, holding nothing. -/
  | idle
  /-- `lock`: the `compare_exchange_strong` of 0. -/
  | lockCas
  /-- `lock_slow`: the load at the head of the outer loop, which its first inner loop repeats. -/
  | slowLoad (slow : Slow)
  /-- `lock_slow`: the `compare_exchange_weak` to `expected | write_pending`. -/
  | announceCas (slow : Slow) (expected : BusyWord)
  /-- `lock_slow`: the load of the loop that waits for the readers to drain. -/
  | drainLoad (slow : Slow)
  /-- `lock_slow`: the `compare_exchange_weak` to `(expected & ~write_pending) | write_locked`. -/
  | acquireCas (slow : Slow) (expected : EmptyWord)
  /-- `try_lock`: the load. -/
  | tryLoad
  /-- `try_lock`: the `compare_exchange_strong`. -/
  | tryCas (expected : EmptyWord)
  /-- Outside all operations, the writer. -/
  | writer
  /-- `unlock`: the `fetch_and(~write_locked)`. -/
  | unlock
  /-- `lock_shared` and `try_lock_shared`: the load. -/
  | sharedLoad (blocking : Bool)
  /-- `lock_shared` and `try_lock_shared`: the `compare_exchange_strong`. -/
  | sharedCas (blocking : Bool) (expected : OpenWord)
  /-- `lock_shared_slow`: the load. -/
  | sharedSlowLoad (pause : Pause)
  /-- `lock_shared_slow`: the `compare_exchange_weak`. -/
  | sharedSlowCas (pause : Pause) (expected : OpenWord)
  /-- Outside all operations, a reader. -/
  | reader
  /-- `unlock_shared`: the `fetch_sub(1)`. -/
  | unlockShared
deriving DecidableEq, Repr

/-- The test of the loop that waits for the readers to drain. -/
def drain (slow : Slow) (expected : Word) : Pc :=
  if empty : expected &&& readersMask = 0 ∧ expected &&& writeLocked = 0 then
    .acquireCas slow ⟨expected, empty⟩
  else .drainLoad slow.paused

/-- The tests of `lock_slow` after the load at the head of its loop. -/
def examine (slow : Slow) (expected : Word) : Pc :=
  if unlocked : expected &&& writeLocked = 0 then
    if unread : expected &&& readersMask = 0 then .acquireCas slow ⟨expected, unread, unlocked⟩
    else if unannounced : expected &&& writePending = 0 then
      .announceCas slow ⟨expected, unlocked, unread, unannounced⟩
    else drain { slow with announced := true } expected
  else .slowLoad slow.paused

/-- The test of `try_lock`. -/
def tryExamine (expected : Word) : Pc :=
  if empty : expected &&& readersMask = 0 ∧ expected &&& writeLocked = 0 then
    .tryCas ⟨expected, empty⟩
  else .idle

/-- Where `lock_shared` and `try_lock_shared` go when they have not got the lock. -/
def notShared (variant : Variant) (blocking : Bool) : Pc :=
  if blocking then .sharedSlowLoad variant.pause else .idle

/-- The test of `lock_shared` and `try_lock_shared`. -/
def sharedExamine (variant : Variant) (blocking : Bool) (expected : Word) : Pc :=
  if opened : expected &&& (writeLocked ||| writePending) = 0 then
    .sharedCas blocking ⟨expected, opened⟩
  else notShared variant blocking

/-- The test of `lock_shared_slow`. -/
def sharedSlowExamine (pause : Pause) (expected : Word) : Pc :=
  if opened : expected &&& (writeLocked ||| writePending) = 0 then
    .sharedSlowCas pause ⟨expected, opened⟩
  else .sharedSlowLoad (pause.map (·.run))

/-- Calls: each `unlock` by a holder only, who does not lock again. -/
def call : Op → Pc → Option Pc
  | .lock, .idle => some .lockCas
  | .tryLock, .idle => some .tryLoad
  | .unlock, .writer => some .unlock
  | .lockShared, .idle => some (.sharedLoad true)
  | .tryLockShared, .idle => some (.sharedLoad false)
  | .unlockShared, .reader => some .unlockShared
  | _, _ => none

/-- The next atomic operation. -/
def step (variant : Variant) (choice : Choice) (word : Word) : Pc → Option (Word × Pc)
  | .lockCas => (compareExchangeStrong choice word 0).map fun exchanged =>
      if exchanged then (writeLocked, .writer) else (word, .slowLoad { pause := variant.pause })
  | .slowLoad slow => ordinary choice (word, examine slow word)
  | .announceCas slow expected => (compareExchangeWeak choice word expected.1).map fun exchanged =>
      if exchanged then (expected.1 ||| writePending,
        drain { slow with announced := true } (expected.1 ||| writePending))
      else (word, .slowLoad slow)
  | .drainLoad slow => ordinary choice (word, drain slow word)
  | .acquireCas slow expected => (compareExchangeWeak choice word expected.1).map fun exchanged =>
      if exchanged then ((expected.1 &&& ~~~writePending) ||| writeLocked, .writer)
      else (word, .slowLoad slow)
  | .tryLoad => ordinary choice (word, tryExamine word)
  | .tryCas expected => (compareExchangeStrong choice word expected.1).map fun exchanged =>
      if exchanged then ((expected.1 &&& ~~~writePending) ||| writeLocked, .writer)
      else (word, .idle)
  | .unlock => ordinary choice (word &&& ~~~writeLocked, .idle)
  | .sharedLoad blocking => ordinary choice (word, sharedExamine variant blocking word)
  | .sharedCas blocking expected => (compareExchangeStrong choice word expected.1).map fun exchanged =>
      if exchanged then (expected.1 + 1, .reader) else (word, notShared variant blocking)
  | .sharedSlowLoad pause => ordinary choice (word, sharedSlowExamine pause word)
  | .sharedSlowCas pause expected => (compareExchangeWeak choice word expected.1).map fun exchanged =>
      if exchanged then (expected.1 + 1, .reader) else (word, .sharedSlowLoad pause)
  | .unlockShared => ordinary choice (word - 1, .idle)
  | .idle | .writer | .reader => none

namespace Pc

/-- The thread holds the lock as a writer: from its acquiring exchange to the `fetch_and` of its
`unlock`. -/
def writes : Pc → Bool
  | .writer | .unlock => true
  | _ => false

/-- The thread holds the lock as a reader: from its exchange to the `fetch_sub` of its
`unlock_shared`. -/
def reads : Pc → Bool
  | .reader | .unlockShared => true
  | _ => false

/-- The thread is inside `lock_slow` and has not acquired. -/
def waiting : Pc → Bool
  | .slowLoad _ | .announceCas _ _ | .drainLoad _ | .acquireCas _ _ => true
  | _ => false

/-- The thread is inside `lock_slow` and has announced itself. -/
def announced : Pc → Bool
  | .slowLoad slow | .announceCas slow _ | .drainLoad slow | .acquireCas slow _ => slow.announced
  | _ => false

/-- The thread's next exchange makes it a writer, if it finds the word it expects. -/
def acquires (word : Word) : Pc → Bool
  | .lockCas => word = 0
  | .acquireCas _ expected | .tryCas expected => word = expected.1
  | _ => false

/-- The thread's next exchange makes it a reader, if it finds the word it expects. -/
def shares (word : Word) : Pc → Bool
  | .sharedCas _ expected | .sharedSlowCas _ expected => word = expected.1
  | _ => false

end Pc

/-- The shared spinlock as a thread program: nobody sleeps. -/
def program (variant : Variant) : Program Word Pc Op Choice where
  idle := .idle
  call := call
  step := step variant
  wake := fun _ => none
  asleep := fun _ => false
  woken := id

theorem program_silent (variant : Variant) : (program variant).Silent := fun _ => rfl

section System

variable (variant : Variant) (Thread : Type*) [DecidableEq Thread] [Fintype Thread]

/-- The shared spinlock used by the threads of `Thread`; `state_` starts at 0. -/
abbrev system : System (State Thread Word Pc) (Action Thread Op Choice) :=
  (program variant).system 0

end System

/-! ### What a step can do -/

/-- **The thread moves on inside its operation**: it holds what it held, a writer does not leave
`lock_slow` nor take its announcement back, and whoever has announced itself now had before or has
found `write_pending` set. -/
structure Moves (word : Word) (pc after : Pc) : Prop where
  writes : after.writes = pc.writes
  reads : after.reads = pc.reads
  waiting : pc.waiting = true → after.waiting = true
  keeps : pc.announced = true → after.announced = true
  announced : after.announced = true → pc.announced = true ∨ word &&& writePending ≠ 0

/-- **The effects of a step.** A thread moves on, or its step is one of the five that write the
word. -/
inductive Effect (choice : Choice) (word : Word) (pc : Pc) : Word → Pc → Prop
  | moves {after : Pc} : Moves word pc after → Effect choice word pc word after
  | acquire : choice = .go → word &&& readersMask = 0 → word &&& writeLocked = 0 →
      pc.acquires word = true → pc.writes = false → pc.reads = false →
      Effect choice word pc writeLocked .writer
  | announce {after : Pc} : word &&& writeLocked = 0 → word &&& readersMask ≠ 0 →
      word &&& writePending = 0 → pc.writes = false → pc.reads = false → after.writes = false →
      after.reads = false → after.waiting = true → after.announced = true →
      Effect choice word pc (word + writePending) after
  | share : choice = .go → word &&& (writeLocked ||| writePending) = 0 → pc.shares word = true →
      pc.writes = false → pc.reads = false → Effect choice word pc (word + 1) .reader
  | unlock : pc = .unlock → Effect choice word pc (word &&& ~~~writeLocked) .idle
  | unshare : pc = .unlockShared → Effect choice word pc (word - 1) .idle

/-- Where the thread goes it waits, holding nothing. -/
structure Waits (pc : Pc) : Prop where
  writes : pc.writes = false
  reads : pc.reads = false
  waiting : pc.waiting = true

theorem waits_drain (slow : Slow) (expected : Word) : Waits (drain slow expected) := by
  unfold drain
  split <;> exact ⟨rfl, rfl, rfl⟩

theorem waits_examine (slow : Slow) (expected : Word) : Waits (examine slow expected) := by
  unfold examine
  split
  · split
    · exact ⟨rfl, rfl, rfl⟩
    · split
      · exact ⟨rfl, rfl, rfl⟩
      · exact waits_drain _ _
  · exact ⟨rfl, rfl, rfl⟩

theorem announced_drain (slow : Slow) (expected : Word) :
    (drain slow expected).announced = slow.announced := by
  unfold drain
  split <;> rfl

theorem announced_examine {slow : Slow} {expected : Word}
    (announced : (examine slow expected).announced = true) :
    slow.announced = true ∨ expected &&& writePending ≠ 0 := by
  unfold examine at announced
  split at announced
  · split at announced
    · exact Or.inl announced
    · split at announced
      · exact Or.inl announced
      · rename_i pending
        exact Or.inr pending
  · exact Or.inl announced

theorem examine_announced {slow : Slow} (expected : Word) (announced : slow.announced = true) :
    (examine slow expected).announced = true := by
  unfold examine
  split
  · split
    · exact announced
    · split
      · exact announced
      · exact announced_drain _ _
  · exact announced

theorem waiting_of_announced {pc : Pc} (announced : pc.announced = true) : pc.waiting = true := by
  cases pc with
  | slowLoad | announceCas | drainLoad | acquireCas => rfl
  | _ => cases announced

section Loops

variable {word : Word} {pc : Pc}

/-- A move that has nothing to do with `lock_slow`. -/
theorem moves_outside {after : Pc} (writes : after.writes = pc.writes) (reads : after.reads = pc.reads)
    (outside : pc.waiting = false) (unannounced : after.announced = false) : Moves word pc after := by
  refine ⟨writes, reads, fun waiting => ?_, fun announced => ?_, fun announced => ?_⟩
  · rw [outside] at waiting
    cases waiting
  · rw [waiting_of_announced announced] at outside
    cases outside
  · rw [unannounced] at announced
    cases announced

theorem moves_tryExamine (expected : Word) : Moves word .tryLoad (tryExamine expected) := by
  unfold tryExamine
  split <;> exact moves_outside rfl rfl rfl rfl

theorem moves_notShared (variant : Variant) (blocking : Bool) (writes : pc.writes = false)
    (reads : pc.reads = false) (outside : pc.waiting = false) :
    Moves word pc (notShared variant blocking) := by
  unfold notShared
  split <;> exact moves_outside writes.symm reads.symm outside rfl

theorem moves_sharedExamine (variant : Variant) (blocking : Bool) (expected : Word) :
    Moves word (.sharedLoad blocking) (sharedExamine variant blocking expected) := by
  unfold sharedExamine
  split
  · exact moves_outside rfl rfl rfl rfl
  · exact moves_notShared variant blocking rfl rfl rfl

theorem moves_sharedSlowExamine (pause : Pause) (expected : Word) :
    Moves word (.sharedSlowLoad pause) (sharedSlowExamine pause expected) := by
  unfold sharedSlowExamine
  split <;> exact moves_outside rfl rfl rfl rfl

end Loops

/-- **Every step has one of the effects.** -/
theorem step_effect {variant : Variant} {choice : Choice} {word after : Word} {pc moved : Pc}
    (stepped : step variant choice word pc = some (after, moved)) : Effect choice word pc after moved := by
  cases pc with
  | idle | writer | reader => cases stepped
  | lockCas =>
    rcases compareExchangeStrong_cases stepped with ⟨went, same, result⟩ | ⟨-, result⟩
    · cases result
      rw [same]
      exact .acquire went rfl rfl rfl rfl rfl
    · cases result
      exact .moves (moves_outside rfl rfl rfl rfl)
  | slowLoad slow =>
    cases (ordinary_eq_some stepped).2
    have waits := waits_examine slow word
    exact .moves ⟨waits.writes, waits.reads, fun _ => waits.waiting, examine_announced word,
      announced_examine⟩
  | announceCas slow expected =>
    rcases compareExchangeWeak_cases stepped with ⟨-, same, result⟩ | ⟨-, result⟩
    · cases result
      rw [same, announced_eq expected.2.2.2]
      have waits := waits_drain { slow with announced := true } (expected.1 + writePending)
      exact .announce expected.2.1 expected.2.2.1 expected.2.2.2 rfl rfl waits.writes waits.reads
        waits.waiting (announced_drain _ _)
    · cases result
      exact .moves ⟨rfl, rfl, fun _ => rfl, id, Or.inl⟩
  | drainLoad slow =>
    cases (ordinary_eq_some stepped).2
    have waits := waits_drain slow word
    refine .moves ⟨waits.writes, waits.reads, fun _ => waits.waiting, ?_, ?_⟩
    · rw [announced_drain]
      exact id
    · rw [announced_drain]
      exact Or.inl
  | acquireCas slow expected =>
    rcases compareExchangeWeak_cases stepped with ⟨went, same, result⟩ | ⟨-, result⟩
    · cases result
      rw [same, acquired_eq expected.2]
      exact .acquire went expected.2.1 expected.2.2 (decide_eq_true rfl) rfl rfl
    · cases result
      exact .moves ⟨rfl, rfl, fun _ => rfl, id, Or.inl⟩
  | tryLoad =>
    cases (ordinary_eq_some stepped).2
    exact .moves (moves_tryExamine word)
  | tryCas expected =>
    rcases compareExchangeStrong_cases stepped with ⟨went, same, result⟩ | ⟨-, result⟩
    · cases result
      rw [same, acquired_eq expected.2]
      exact .acquire went expected.2.1 expected.2.2 (decide_eq_true rfl) rfl rfl
    · cases result
      exact .moves (moves_outside rfl rfl rfl rfl)
  | unlock =>
    cases (ordinary_eq_some stepped).2
    exact .unlock rfl
  | sharedLoad blocking =>
    cases (ordinary_eq_some stepped).2
    exact .moves (moves_sharedExamine variant blocking word)
  | sharedCas blocking expected =>
    rcases compareExchangeStrong_cases stepped with ⟨went, same, result⟩ | ⟨-, result⟩
    · cases result
      rw [same]
      exact .share went expected.2 (decide_eq_true rfl) rfl rfl
    · cases result
      exact .moves (moves_notShared variant blocking rfl rfl rfl)
  | sharedSlowLoad pause =>
    cases (ordinary_eq_some stepped).2
    exact .moves (moves_sharedSlowExamine pause word)
  | sharedSlowCas pause expected =>
    rcases compareExchangeWeak_cases stepped with ⟨went, same, result⟩ | ⟨-, result⟩
    · cases result
      rw [same]
      exact .share went expected.2 (decide_eq_true rfl) rfl rfl
    · cases result
      exact .moves (moves_outside rfl rfl rfl rfl)
  | unlockShared =>
    cases (ordinary_eq_some stepped).2
    exact .unshare rfl

end NovaSync.SharedSpinlock
