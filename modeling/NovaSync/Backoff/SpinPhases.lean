/-
**The spin phases of `lock_slow` and `acquire`.**

The functor that `run_with_exponential_backoff_until` calls works on a captured snapshot: while the
snapshot shows a free lock, or a token, it tries to exchange it, and a failing exchange takes a new one;
while the snapshot shows none, the functor backs off, and never looks at the shared word.

What a thread sees of a schedule is the shared word at each of its functor calls, so a spin phase runs
along a sequence of words.

* `SpinPhase.calls` — a spin phase of such a functor, for any word and any test of it.
* `SpinPhase.succeeds_iff` — it succeeds at a call that sees the word of the call before again, if every
  snapshot up to then was free.
* `spinPhases_see_release` — the spin phases of `parking_mutex`, of `fast_eventfd_mutex` and of
  `parking_semaphore` are of this kind; `parkingMutex_spin_misses_release` is a release that a spin phase
  does not see.
-/

import NovaSync.Mutex.ParkingMutex
import NovaSync.Mutex.FastAsyncMutex
import NovaSync.Semaphore.ParkingSemaphore

set_option linter.unusedSectionVars false

namespace NovaSync.Backoff

open Concurrency Detail

/-! ### The functor -/

/-- Where a spin phase stands: before the next call of its functor, or returned. -/
inductive SpinPhase (Word : Type*)
  | spin (snapshot : Word) (state : ExponentialBackoff)
  | returned (success : Bool)
deriving DecidableEq, Repr

namespace SpinPhase

variable {Word : Type*} [DecidableEq Word]

/-- What the loop makes of a call that leaves this snapshot. -/
def after (snapshot : Word) : SpinLoop → SpinPhase Word
  | .returned success => .returned success
  | .again state => .spin snapshot state

variable (free : Word → Bool)

/-- A call of the functor, where no exchange fails spuriously. -/
def call (word : Word) : SpinPhase Word → SpinPhase Word
  | .spin snapshot state =>
      if free snapshot then
        if word = snapshot then after snapshot (afterCall state .success)
        else after word (afterCall state .retryWithoutBackoff)
      else after snapshot (afterCall state .retry)
  | .returned success => .returned success

/-- The spin phase after some calls, from the snapshot at its entry. -/
def calls (words : ℕ → Word) (entry : Word) : ℕ → SpinPhase Word
  | 0 => .spin entry {}
  | n + 1 => (calls words entry n).call free (words n)

/-- The spin phase returns success. -/
def Succeeds (words : ℕ → Word) (entry : Word) : Prop :=
  ∃ n, calls free words entry n = .returned true

/-- There is a call `n`. -/
def Spinning (words : ℕ → Word) (entry : Word) (n : ℕ) : Prop :=
  ∃ snapshot state, calls free words entry n = .spin snapshot state

/-- The word seen last before call `n`. -/
def seen (words : ℕ → Word) (entry : Word) : ℕ → Word
  | 0 => entry
  | n + 1 => words n

variable {free} {words : ℕ → Word} {entry : Word}

/-- While every snapshot is free and every exchange fails, each call takes the word as its snapshot, and
does not back off. -/
theorem calls_eq_spin {n : ℕ}
    (fails : ∀ i < n, free (seen words entry i) = true ∧ words i ≠ seen words entry i) :
    calls free words entry n = .spin (seen words entry n) {} := by
  induction n with
  | zero => rfl
  | succ n ih =>
    obtain ⟨open_, changed⟩ := fails n (Nat.lt_succ_self n)
    have before := ih fun i earlier => fails i (Nat.lt_succ_of_lt earlier)
    have test : afterCall {} .retryWithoutBackoff = .again {} := by decide
    rw [calls, before]
    simp only [call, if_pos open_, if_neg changed, test]
    rfl

/-- **A snapshot that is not free stays**, so the spin phase never succeeds. -/
theorem calls_of_held {n : ℕ} {snapshot : Word} {state : ExponentialBackoff}
    (here : calls free words entry n = .spin snapshot state) (held : free snapshot = false) (k : ℕ) :
    (∃ later, calls free words entry (n + k) = .spin snapshot later) ∨
      calls free words entry (n + k) = .returned false := by
  induction k with
  | zero => exact Or.inl ⟨state, here⟩
  | succ k ih =>
    have step : calls free words entry (n + (k + 1)) =
        (calls free words entry (n + k)).call free (words (n + k)) := rfl
    rw [step]
    rcases ih with ⟨later, spins⟩ | failed
    · rw [spins]
      simp only [call, held, Bool.false_eq_true, if_false, afterCall, spinTest]
      split
      · exact Or.inl ⟨_, rfl⟩
      · exact Or.inr rfl
    · rw [failed]
      exact Or.inr rfl

theorem calls_of_returned {n : ℕ} {success : Bool}
    (here : calls free words entry n = .returned success) (k : ℕ) :
    calls free words entry (n + k) = .returned success := by
  induction k with
  | zero => exact here
  | succ k ih =>
    show (calls free words entry (n + k)).call free (words (n + k)) = _
    rw [ih]
    rfl

/-- The exchange of a free snapshot that is still the word. -/
theorem calls_success {i : ℕ} (same : words i = seen words entry i)
    (first : ∀ j < i, words j ≠ seen words entry j)
    (opens : ∀ j ≤ i, free (seen words entry j) = true) :
    calls free words entry (i + 1) = .returned true := by
  have here := calls_eq_spin fun j earlier => ⟨opens j earlier.le, first j earlier⟩
  rw [calls, here, same]
  simp only [call, if_pos (opens i le_rfl), if_true]
  rfl

/-- **When a spin phase succeeds**: at a call that sees the word of the call before, or of the entry,
again, with every snapshot up to then free. -/
theorem succeeds_iff : Succeeds free words entry ↔
    ∃ i, words i = seen words entry i ∧ ∀ j ≤ i, free (seen words entry j) = true := by
  constructor
  · rintro ⟨n, success⟩
    by_contra never
    push Not at never
    -- the snapshots are all free and no exchange succeeds, or the first that is not free stays
    by_cases opens : ∀ j, free (seen words entry j) = true
    · have spins := calls_eq_spin (n := n) fun i _ => ⟨opens i, fun same => by
        obtain ⟨j, -, held⟩ := never i same
        exact held (opens j)⟩
      rw [spins] at success
      cases success
    · push Not at opens
      have first := Nat.find_spec opens
      have earlier := fun j (less : j < Nat.find opens) => not_not.mp (Nat.find_min opens less)
      generalize Nat.find opens = k at first earlier
      have fails : ∀ i < k, free (seen words entry i) = true ∧ words i ≠ seen words entry i := by
        intro i less
        refine ⟨earlier i less, fun same => ?_⟩
        obtain ⟨j, before, held⟩ := never i same
        exact held (earlier j (by omega))
      by_cases reached : n < k
      · rw [calls_eq_spin fun i less => fails i (less.trans reached)] at success
        cases success
      · have stays := calls_of_held (calls_eq_spin fails) (Bool.eq_false_of_not_eq_true first) (n - k)
        rw [Nat.add_sub_cancel' (not_lt.mp reached), success] at stays
        rcases stays with ⟨later, spins⟩ | failed
        · cases spins
        · cases failed
  · rintro ⟨i, same, opens⟩
    have some : ∃ i, words i = seen words entry i := ⟨i, same⟩
    have least := Nat.find_min' some same
    exact ⟨_, calls_success (Nat.find_spec some) (fun j less => Nat.find_min some less) fun j before =>
      opens j (before.trans least)⟩

/-- **A spin phase that goes on while the word is free**: it succeeds if and only if it has seen nothing
else before, and the word does not change between all calls for ever. -/
theorem succeeds_iff_of_released {m : ℕ} (spinning : Spinning free words entry m)
    (released : ∀ i, m ≤ i → Spinning free words entry i → free (words i) = true) :
    Succeeds free words entry ↔ free entry = true ∧ (∀ i < m, free (words i) = true) ∧
      ∃ i, words i = seen words entry i := by
  constructor
  · intro succeeds
    obtain ⟨i, same, opens⟩ := succeeds_iff.mp succeeds
    refine ⟨opens 0 (Nat.zero_le i), fun k before => ?_, i, same⟩
    have some : ∃ i, words i = seen words entry i := ⟨i, same⟩
    have least := Nat.find_min' some same
    have late : m ≤ Nat.find some := by
      by_contra early
      have success := calls_success (Nat.find_spec some) (fun j less => Nat.find_min some less)
        fun j before => opens j (before.trans least)
      have ended := calls_of_returned success (m - (Nat.find some + 1))
      rw [Nat.add_sub_cancel' (by omega)] at ended
      obtain ⟨snapshot, state, spins⟩ := spinning
      rw [spins] at ended
      cases ended
    exact opens (k + 1) (by omega)
  · rintro ⟨first, before, some⟩
    refine succeeds_iff.mpr ⟨Nat.find some, Nat.find_spec some, fun j => ?_⟩
    induction j using Nat.strong_induction_on with
    | _ j ih =>
      intro reached
      cases j with
      | zero => exact first
      | succ j =>
        by_cases early : j < m
        · exact before j early
        · refine released j (not_lt.mp early) ⟨_, _, calls_eq_spin fun i less => ?_⟩
          exact ⟨ih i (by omega) (by omega), Nat.find_min some (by omega)⟩

theorem Spinning.earlier {n i : ℕ} (spinning : Spinning free words entry n) (before : i ≤ n) :
    Spinning free words entry i := by
  cases here : calls free words entry i with
  | spin snapshot state => exact ⟨snapshot, state, here⟩
  | returned success =>
    have ended := calls_of_returned here (n - i)
    rw [Nat.add_sub_cancel' before] at ended
    obtain ⟨snapshot, state, spins⟩ := spinning
    rw [spins] at ended
    cases ended

/-- The call that succeeds. -/
theorem Succeeds.last (succeeds : Succeeds free words entry) :
    ∃ n, Spinning free words entry n ∧ calls free words entry (n + 1) = .returned true := by
  have success := Nat.find_spec succeeds
  have first := fun n (before : n < Nat.find succeeds) => Nat.find_min succeeds before
  generalize Nat.find succeeds = n at success first
  cases n with
  | zero => cases success
  | succ n =>
    refine ⟨n, ?_, success⟩
    cases here : calls free words entry n with
    | spin snapshot state => exact ⟨snapshot, state, here⟩
    | returned result =>
      have ended := calls_of_returned here 1
      rw [success] at ended
      cases ended
      exact absurd here (first n (Nat.lt_succ_self n))

end SpinPhase

/-! ### Programs with a spin phase -/

section Program

variable {Memory Local Op Word : Type*} [DecidableEq Word]

/-- **The functor of a program's spin phase**: `word` is the shared word, and `place` is where a thread
is. -/
structure Embeds (program : Program Memory Local Op Choice) (free : Word → Bool) (word : Memory → Word)
    (place : SpinPhase Word → Local) : Prop where
  injective : Function.Injective place
  step : ∀ snapshot state memory, (program.step .go memory (place (.spin snapshot state))).map Prod.snd =
    some (place (SpinPhase.call free (word memory) (.spin snapshot state)))

/-- A thread that has entered the spin phase with a snapshot is at call `n`. -/
def Spins (program : Program Memory Local Op Choice) (place : SpinPhase Word → Local)
    (memories : ℕ → Memory) (entry : Word) (n : ℕ) : Prop :=
  ∀ i ≤ n, ∃ snapshot state,
    program.along .go memories (place (.spin entry {})) i = some (place (.spin snapshot state))

/-- The thread's spin phase returns success. -/
def Acquires (program : Program Memory Local Op Choice) (place : SpinPhase Word → Local)
    (memories : ℕ → Memory) (entry : Word) : Prop :=
  ∃ n, Spins program place memories entry n ∧
    program.along .go memories (place (.spin entry {})) (n + 1) = some (place (.returned true))

variable {program : Program Memory Local Op Choice} {free : Word → Bool} {word : Memory → Word}
  {place : SpinPhase Word → Local} {memories : ℕ → Memory} {entry : Word} {n : ℕ}

/-- The program follows the functor as long as the spin phase goes on. -/
theorem Embeds.along (embeds : Embeds program free word place)
    (spinning : ∀ i < n, SpinPhase.Spinning free (fun i => word (memories i)) entry i) :
    program.along .go memories (place (.spin entry {})) n =
      some (place (SpinPhase.calls free (fun i => word (memories i)) entry n)) := by
  induction n with
  | zero => rfl
  | succ n ih =>
    obtain ⟨snapshot, state, spins⟩ := spinning n (Nat.lt_succ_self n)
    rw [Program.along, ih fun i before => spinning i (Nat.lt_succ_of_lt before), SpinPhase.calls, spins]
    exact embeds.step snapshot state (memories n)

theorem Embeds.spins_iff (embeds : Embeds program free word place) :
    Spins program place memories entry n ↔
      SpinPhase.Spinning free (fun i => word (memories i)) entry n := by
  constructor
  · intro spins
    induction n with
    | zero => exact ⟨entry, {}, rfl⟩
    | succ n ih =>
      have before := ih fun i earlier => spins i (Nat.le_succ_of_le earlier)
      obtain ⟨snapshot, state, here⟩ := spins (n + 1) le_rfl
      rw [embeds.along fun i earlier => before.earlier (Nat.le_of_lt_succ earlier)] at here
      exact ⟨snapshot, state, embeds.injective (Option.some.inj here)⟩
  · intro spinning i before
    obtain ⟨snapshot, state, here⟩ := spinning.earlier before
    refine ⟨snapshot, state, ?_⟩
    rw [embeds.along fun j earlier => spinning.earlier (earlier.le.trans before), here]

theorem Embeds.acquires_iff (embeds : Embeds program free word place) :
    Acquires program place memories entry ↔
      SpinPhase.Succeeds free (fun i => word (memories i)) entry := by
  constructor
  · rintro ⟨n, spins, success⟩
    have spinning := embeds.spins_iff.mp spins
    rw [embeds.along fun i earlier => spinning.earlier (Nat.le_of_lt_succ earlier)] at success
    exact ⟨n + 1, embeds.injective (Option.some.inj success)⟩
  · intro succeeds
    obtain ⟨n, spinning, success⟩ := succeeds.last
    refine ⟨n, embeds.spins_iff.mpr spinning, ?_⟩
    rw [embeds.along fun i earlier => spinning.earlier (Nat.le_of_lt_succ earlier), success]

/-- **A release that a spin phase sees.** From call `m` on the word is free: the thread acquires if and
only if its snapshot at the entry was free, the word was free at every call before, and it does not change
between all calls for ever. -/
theorem Embeds.acquires_iff_of_released (embeds : Embeds program free word place) {m : ℕ}
    (spins : Spins program place memories entry m)
    (released : ∀ i, m ≤ i → Spins program place memories entry i → free (word (memories i)) = true) :
    Acquires program place memories entry ↔
      free entry = true ∧ (∀ i < m, free (word (memories i)) = true) ∧
        ∃ i, word (memories i) = SpinPhase.seen (fun i => word (memories i)) entry i := by
  rw [embeds.acquires_iff]
  refine SpinPhase.succeeds_iff_of_released (embeds.spins_iff.mp spins) fun i later spinning => ?_
  exact released i later (embeds.spins_iff.mpr spinning)

end Program

/-! ### The spin phases -/

/-- The spin phase of `lock_slow` of `parking_mutex` with backoff. -/
def parkingMutexPlace : SpinPhase ParkingMutex.Word → ParkingMutex.Pc
  | .spin expected state => .spin expected state
  | .returned true => .owner
  | .returned false => .register false

/-- The spin phase of `lock_slow` of `fast_eventfd_mutex`. -/
def eventfdMutexPlace : SpinPhase ParkingMutex.Word → FastAsyncMutex.Pc PollPoint
  | .spin s state => .spin .lock s state
  | .returned true => .owner false
  | .returned false => .register .lock

/-- The spin phase of `acquire` of `parking_semaphore` with backoff. -/
def parkingSemaphorePlace : SpinPhase ℤ → ParkingSemaphore.Pc
  | .spin c state => .spin c state
  | .returned true => .idle
  | .returned false => .fetchSub false

/-- The lock bit is clear. -/
def unlocked (word : BitVec 32) : Bool := word &&& 1 = 0

/-- There is a token. -/
def hasToken (c : ℤ) : Bool := 0 < c

/-- A functor as the three programs write it: the test of the snapshot, and the exchange. -/
theorem functor_step {Memory Local Word : Type*} [DecidableEq Word] (test : Word → Prop)
    [DecidablePred test] {place : SpinPhase Word → Local} {next : Word → SpinLoop → Local}
    (nexts : ∀ snapshot loop, next snapshot loop = place (.after snapshot loop)) (word snapshot : Word)
    (state : ExponentialBackoff) (memory taken : Memory) :
    (if test snapshot then
        (compareExchangeWeak .go word snapshot).map fun exchanged =>
          if exchanged then (taken, next snapshot (afterCall state .success))
          else (memory, next word (afterCall state .retryWithoutBackoff))
      else ordinary .go (memory, next snapshot (afterCall state .retry))).map Prod.snd =
    some (place (SpinPhase.call (fun snapshot => decide (test snapshot)) word (.spin snapshot state))) := by
  by_cases free : test snapshot
  · by_cases same : word = snapshot
    · simp [SpinPhase.call, compareExchangeWeak, ordinary, nexts, free, same]
    · simp [SpinPhase.call, compareExchangeWeak, ordinary, nexts, free, same]
  · simp [SpinPhase.call, ordinary, nexts, free]

theorem parkingMutex_embeds (variant : ParkingMutex.Variant) :
    Embeds (ParkingMutex.program variant) unlocked id parkingMutexPlace where
  injective := by
    rintro (_ | _ | _) (_ | _ | _) same <;> cases same <;> rfl
  step expected state word :=
    functor_step (fun word => word &&& 1 = 0)
      (fun _ loop => by rcases loop with (_ | _) | _ <;> rfl) word expected state word (expected ||| 1)

theorem eventfdMutex_embeds :
    Embeds (FastAsyncMutex.program FastAsyncMutex.eventfd) unlocked FastAsyncMutex.Memory.word
      eventfdMutexPlace where
  injective := by
    rintro (_ | _ | _) (_ | _ | _) same <;> cases same <;> rfl
  step s state memory := by
    have atomic : FastAsyncMutex.step FastAsyncMutex.eventfd .go memory (.spin .lock s state) =
        FastAsyncMutex.atomicStep FastAsyncMutex.eventfd .go memory (.spin .lock s state) := Option.or_none
    have nexts : ∀ snapshot loop, FastAsyncMutex.spinNext .lock snapshot loop =
        eventfdMutexPlace (.after snapshot loop) := by
      intro _ loop
      rcases loop with (_ | _) | _ <;> rfl
    show (FastAsyncMutex.step FastAsyncMutex.eventfd .go memory (.spin .lock s state)).map Prod.snd = _
    rw [atomic]
    exact functor_step (fun word => word &&& 1 = 0) nexts memory.word s state memory _

theorem parkingSemaphore_embeds (config : ParkingSemaphore.Config) :
    Embeds (ParkingSemaphore.program config) hasToken ParkingSemaphore.Memory.count
      parkingSemaphorePlace where
  injective := by
    rintro (_ | _ | _) (_ | _ | _) same <;> cases same <;> rfl
  step c state memory :=
    functor_step (fun c : ℤ => 0 < c)
      (fun _ loop => by rcases loop with (_ | _) | _ <;> rfl) memory.count c state memory memory.exchange

/-- **When a spin phase sees a release.** The lock is free (there is a token) from call `m` on: the thread
acquires if and only if the snapshot at the entry and the word at every call before `m` were free too, and
the word does not change between all calls for ever. -/
def SeesRelease {Memory Local Op Word : Type*} (program : Program Memory Local Op Choice)
    (free : Word → Bool) (word : Memory → Word) (place : SpinPhase Word → Local) : Prop :=
  ∀ (memories : ℕ → Memory) (entry : Word) (m : ℕ), Spins program place memories entry m →
    (∀ i, m ≤ i → Spins program place memories entry i → free (word (memories i)) = true) →
    (Acquires program place memories entry ↔
      free entry = true ∧ (∀ i < m, free (word (memories i)) = true) ∧
        ∃ i, word (memories i) = SpinPhase.seen (fun i => word (memories i)) entry i)

/-- **The spin phases of `parking_mutex`, `fast_eventfd_mutex` and `parking_semaphore`.** -/
theorem spinPhases_see_release (variant : ParkingMutex.Variant) (config : ParkingSemaphore.Config) :
    SeesRelease (ParkingMutex.program variant) unlocked id parkingMutexPlace ∧
      SeesRelease (FastAsyncMutex.program FastAsyncMutex.eventfd) unlocked FastAsyncMutex.Memory.word
        eventfdMutexPlace ∧
      SeesRelease (ParkingSemaphore.program config) hasToken ParkingSemaphore.Memory.count
        parkingSemaphorePlace := by
  refine ⟨?_, ?_, ?_⟩
  · intro memories entry m spins released
    exact (parkingMutex_embeds variant).acquires_iff_of_released spins released
  · intro memories entry m spins released
    exact eventfdMutex_embeds.acquires_iff_of_released spins released
  · intro memories entry m spins released
    exact (parkingSemaphore_embeds config).acquires_iff_of_released spins released

/-- A spin phase entered with the word of a free mutex, with which two waiters register during the first two
calls of the functor: the third one acquires it. -/
theorem spinPhases_see_release_free :
    ∃ words : ℕ → ParkingMutex.Word, words 0 ≠ 0 ∧ words 1 ≠ words 0 ∧
      Spins (ParkingMutex.program .backoff) parkingMutexPlace words 0 2 ∧
      Acquires (ParkingMutex.program .backoff) parkingMutexPlace words 0 := by
  have spins : Spins (ParkingMutex.program .backoff) parkingMutexPlace
      (fun i => if i = 0 then 2 else 4) 0 2 := by
    intro i upTo
    obtain rfl | rfl | rfl : i = 0 ∨ i = 1 ∨ i = 2 := by omega
    · exact ⟨0, {}, rfl⟩
    · exact ⟨2, {}, rfl⟩
    · exact ⟨4, {}, rfl⟩
  have released : ∀ i, 2 ≤ i → unlocked (if i = 0 then 2 else 4) = true := by
    intro i later
    rw [if_neg (by omega)]
    rfl
  have sees := (spinPhases_see_release .backoff ⟨false, true⟩).1 _ 0 2 spins fun i later _ => released i later
  refine ⟨_, by decide, by decide, spins, sees.mpr ⟨rfl, fun i earlier => ?_, 2, rfl⟩⟩
  obtain rfl | rfl : i = 0 ∨ i = 1 := by omega
  · rfl
  · rfl

/-- **A spin phase that misses a release.** `lock_slow` is entered with the word of a held mutex, which is
unlocked before the first call of the functor and stays so. -/
theorem parkingMutex_spin_misses_release :
    ¬ ∀ (variant : ParkingMutex.Variant) (memories : ℕ → ParkingMutex.Word) (entry : ParkingMutex.Word)
      (m : ℕ), ParkingMutex.lockSlow variant entry = parkingMutexPlace (.spin entry {}) →
        Spins (ParkingMutex.program variant) parkingMutexPlace memories entry m →
        (∀ i, m ≤ i → Spins (ParkingMutex.program variant) parkingMutexPlace memories entry i →
          unlocked (memories i) = true) →
        Acquires (ParkingMutex.program variant) parkingMutexPlace memories entry := by
  intro sees
  have spins : Spins (ParkingMutex.program .backoff) parkingMutexPlace (fun _ => 0) 1 0 := by
    intro i first
    rw [Nat.le_zero.mp first]
    exact ⟨1, {}, rfl⟩
  have acquires := sees .backoff (fun _ => 0) 1 0 rfl spins fun _ _ _ => rfl
  have succeeds := (parkingMutex_embeds .backoff).acquires_iff.mp acquires
  obtain ⟨i, -, opens⟩ := SpinPhase.succeeds_iff.mp succeeds
  exact absurd (opens 0 (Nat.zero_le i)) (by decide)

end NovaSync.Backoff
