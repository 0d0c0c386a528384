/-
**Atomic operations as steps.**

Every access to a shared word is one step of the thread that makes it. What the program does not
decide about a step (a weak compare-exchange failing on an equal word, how a kernel wait ends) is the
environment's `Choice`.

The unsigned words of the mutexes are bit vectors; the `int32_t` words of the semaphores and events
are integers kept in range by `int32`, so that a run without overflow is one that never needs it
(`int32_eq_self`).
-/

import Mathlib.Algebra.Ring.Int.Defs
import Mathlib.Algebra.Ring.Nat
import Mathlib.Tactic.Common

namespace NovaSync.Detail

/-- How the environment resolves a thread's next step. -/
inductive Choice
  /-- The step takes its ordinary course. -/
  | go
  /-- A weak compare-exchange fails on an equal word, or a sleeper returns without a wake. -/
  | spurious
  /-- The kernel wait returns `EINTR`. -/
  | interrupted
  /-- The kernel wait returns `ETIMEDOUT`. -/
  | expired
  /-- The kernel wait returns any other error. -/
  | failed
deriving DecidableEq, Repr

/-- A load, a store or a read-modify-write: nothing is left to the environment. -/
def ordinary {Result : Type*} (choice : Choice) (result : Result) : Option Result :=
  if choice = .go then some result else none

section CompareExchange

variable {Word : Type*} [DecidableEq Word]

/-- `compare_exchange_strong`: whether the word is exchanged. On failure `expected` becomes `word`. -/
def compareExchangeStrong (choice : Choice) (word expected : Word) : Option Bool :=
  ordinary choice (decide (word = expected))

/-- `compare_exchange_weak`: as the strong one, or a spurious failure. -/
def compareExchangeWeak (choice : Choice) (word expected : Word) : Option Bool :=
  if choice = .spurious then some false else ordinary choice (decide (word = expected))

theorem ordinary_eq_some {Result : Type*} {choice : Choice} {value result : Result}
    (performed : ordinary choice value = some result) : choice = .go ∧ result = value := by
  unfold ordinary at performed
  split at performed
  · rename_i went
    cases performed
    exact ⟨went, rfl⟩
  · cases performed

variable {Result : Type*} {choice : Choice} {word expected : Word} {yes no result : Result}

/-- **The outcomes of a strong compare-exchange**: the word was the expected one, or it was not. -/
theorem compareExchangeStrong_cases
    (performed : (compareExchangeStrong choice word expected).map
      (fun exchanged => if exchanged then yes else no) = some result) :
    choice = .go ∧ word = expected ∧ result = yes ∨ word ≠ expected ∧ result = no := by
  obtain ⟨exchanged, outcome, rfl⟩ := Option.map_eq_some_iff.mp performed
  obtain ⟨went, rfl⟩ := ordinary_eq_some outcome
  by_cases same : word = expected
  · exact Or.inl ⟨went, same, by simp [same]⟩
  · exact Or.inr ⟨same, by simp [same]⟩

/-- **The outcomes of a weak compare-exchange**: an exchange of the expected word, or a failure, which
on the expected word is spurious. -/
theorem compareExchangeWeak_cases
    (performed : (compareExchangeWeak choice word expected).map
      (fun exchanged => if exchanged then yes else no) = some result) :
    choice = .go ∧ word = expected ∧ result = yes ∨
      (choice = .go → word ≠ expected) ∧ result = no := by
  obtain ⟨exchanged, outcome, rfl⟩ := Option.map_eq_some_iff.mp performed
  unfold compareExchangeWeak at outcome
  split at outcome
  · rename_i failed
    cases outcome
    exact Or.inr ⟨fun went => absurd (went.symm.trans failed) nofun, rfl⟩
  · obtain ⟨went, rfl⟩ := ordinary_eq_some outcome
    by_cases same : word = expected
    · exact Or.inl ⟨went, same, by simp [same]⟩
    · exact Or.inr ⟨fun _ => same, by simp [same]⟩

end CompareExchange

/-! ### `int32_t` -/

/-- Conversion to `int32_t`, which is also what `fetch_add` and `fetch_sub` do to their result. -/
def int32 (value : ℤ) : ℤ := Int.bmod value (2 ^ 32)

/-- The values of `int32_t`. -/
def InInt32 (value : ℤ) : Prop := -2 ^ 31 ≤ value ∧ value < 2 ^ 31

instance (value : ℤ) : Decidable (InInt32 value) := inferInstanceAs (Decidable (_ ∧ _))

theorem int32_eq_self {value : ℤ} (inside : InInt32 value) : int32 value = value := by
  obtain ⟨low, high⟩ := inside
  exact Int.bmod_eq_of_le (by simpa using low) (by simpa using high)

theorem inInt32_int32 (value : ℤ) : InInt32 (int32 value) := by
  simp only [int32, Int.bmod, InInt32]
  omega

/-- Converting a summand first does not change a wrapped sum. -/
theorem int32_add_int32 (value summand : ℤ) :
    int32 (value + int32 summand) = int32 (value + summand) :=
  Int.add_bmod_bmod

end NovaSync.Detail
