/-
**What a counting semaphore with registered waiters does to its tokens.**

The abstract semaphore has no threads and no words: a counter, the tokens released and handed out, the
registered waiters, and the waiters that have put a token back and are about to take it again. A move
changes the five numbers (`Ledger.apply`) where it is possible (`Ledger.Enabled`).

* `Ledger.Balanced` — nothing is lost: the counter, the waiters and the acquisitions add up to the
  tokens there ever were. Every move keeps it.
* `Ledger.Covered` — every acquisition, and every one that a retaking waiter is about to make, is
  covered by a token. The moves that keep it are those of `Ledger.Spares`.
* `Ledger.Settled` — a negative counter means that no token is left. The moves that keep it are those
  of `Ledger.Serves`.
-/

import NovaSync.Concurrency.Transition
import Mathlib.Data.Int.Notation

namespace NovaSync.Semaphore

open Concurrency

/-- The numbers of a semaphore. -/
@[ext] structure Ledger where
  count : ℤ
  released : ℕ
  acquired : ℕ
  waiting : ℕ
  retaking : ℕ

/-- `take` is the acquisition of a free token. A waiter `register`s by subtracting a token that is not
there, and is `grant`ed it once it is there. One that gives up adds its token again: it `withdraw`s, or
where the token was there after all it `restore`s it, to `retake` it at once. -/
inductive Move
  | stay
  | release (n : ℕ)
  | take
  | register
  | grant
  | withdraw
  | restore
  | retake

namespace Ledger

/-- The move is possible. -/
def Enabled (ledger : Ledger) : Move → Prop
  | .stay | .release _ => True
  | .take => 0 < ledger.count
  | .register => ledger.count ≤ 0
  | .grant | .restore => 0 ≤ ledger.count ∧ 0 < ledger.waiting
  | .withdraw => ledger.count < 0 ∧ 0 < ledger.waiting
  | .retake => 0 < ledger.retaking

instance (ledger : Ledger) : DecidablePred ledger.Enabled
  | .stay | .release _ => inferInstanceAs (Decidable True)
  | .take => inferInstanceAs (Decidable (0 < ledger.count))
  | .register => inferInstanceAs (Decidable (ledger.count ≤ 0))
  | .grant | .restore => inferInstanceAs (Decidable (0 ≤ ledger.count ∧ 0 < ledger.waiting))
  | .withdraw => inferInstanceAs (Decidable (ledger.count < 0 ∧ 0 < ledger.waiting))
  | .retake => inferInstanceAs (Decidable (0 < ledger.retaking))

/-- The numbers after a move. -/
def apply (ledger : Ledger) : Move → Ledger
  | .stay => ledger
  | .release n => { ledger with count := ledger.count + n, released := ledger.released + n }
  | .take => { ledger with count := ledger.count - 1, acquired := ledger.acquired + 1 }
  | .register => { ledger with count := ledger.count - 1, waiting := ledger.waiting + 1 }
  | .grant => { ledger with acquired := ledger.acquired + 1, waiting := ledger.waiting - 1 }
  | .withdraw => { ledger with count := ledger.count + 1, waiting := ledger.waiting - 1 }
  | .restore => { ledger with
      count := ledger.count + 1, waiting := ledger.waiting - 1, retaking := ledger.retaking + 1 }
  | .retake => { ledger with
      count := ledger.count - 1, acquired := ledger.acquired + 1, retaking := ledger.retaking - 1 }

/-- The abstract semaphore, with `initial` tokens. -/
def system (initial : ℕ) : System Ledger Move where
  start := ⟨initial, 0, 0, 0, 0⟩
  next ledger move := if ledger.Enabled move then some (ledger.apply move) else none

theorem next_cases {initial : ℕ} {ledger after : Ledger} {move : Move}
    (taken : (system initial).next ledger move = some after) :
    ledger.Enabled move ∧ after = ledger.apply move := by
  simp only [system] at taken
  split at taken
  · rename_i enabled
    cases taken
    exact ⟨enabled, rfl⟩
  · cases taken

variable {initial : ℕ} {ledger : Ledger} {move : Move}

/-- **The tokens add up.** -/
def Balanced (initial : ℕ) (ledger : Ledger) : Prop :=
  ledger.count + ledger.waiting + ledger.acquired = initial + ledger.released

theorem Balanced.apply (balanced : ledger.Balanced initial) (enabled : ledger.Enabled move) :
    (ledger.apply move).Balanced initial := by
  unfold Balanced at *
  cases move <;> simp only [Enabled, Ledger.apply] at * <;> omega

theorem balanced_of_reach {guard : Ledger → Move → Prop}
    (reached : (system initial).Reach guard ledger) : ledger.Balanced initial := by
  refine reached.invariant (by simp [Balanced, system]) fun ledger move after _ balanced _ taken => ?_
  obtain ⟨enabled, rfl⟩ := next_cases taken
  exact balanced.apply enabled

/-! ### Covered acquisitions -/

/-- The move does not take a token that a retaking waiter has put back. -/
def Spares (ledger : Ledger) : Move → Prop
  | .take => ledger.retaking < ledger.count
  | _ => True

instance (ledger : Ledger) : DecidablePred ledger.Spares
  | .take => inferInstanceAs (Decidable (ledger.retaking < ledger.count))
  | .stay | .release _ | .register | .grant | .withdraw | .restore | .retake =>
      inferInstanceAs (Decidable True)

/-- **Every acquisition made or about to be retaken is covered by a token**, and the tokens put back
are there. -/
def Covered (ledger : Ledger) : Prop :=
  0 ≤ ledger.count + ledger.waiting ∧ (0 < ledger.retaking → ledger.retaking ≤ ledger.count)

/-- The moves that spare the tokens put back are exactly those that keep the ledger covered. -/
theorem Covered.apply_iff (covered : ledger.Covered) (enabled : ledger.Enabled move) :
    (ledger.apply move).Covered ↔ ledger.Spares move := by
  unfold Covered at *
  cases move <;> simp only [Enabled, Spares, Ledger.apply, iff_true] at * <;> omega

theorem covered_of_reach (reached : (system initial).Reach Spares ledger) : ledger.Covered := by
  refine reached.invariant (by simp [Covered, system]) fun ledger move after _ covered spares taken => ?_
  obtain ⟨enabled, rfl⟩ := next_cases taken
  exact (covered.apply_iff enabled).mpr spares

/-- **A semaphore that spares the tokens put back hands out no more than it has.** -/
theorem acquired_le_of_reach (reached : (system initial).Reach Spares ledger) :
    ledger.acquired ≤ initial + ledger.released := by
  have balanced := balanced_of_reach reached
  have covered := (covered_of_reach reached).1
  unfold Balanced at balanced
  omega

/-! ### Settled counters -/

/-- The move leaves no token behind a negative counter: a release that finds waiters brings enough for
all of them or nothing, nobody registers on an empty counter before the waiters it belongs to have
left, and a token is retaken where it still is, or from the only waiter. -/
def Serves (ledger : Ledger) : Move → Prop
  | .release n => ledger.count < 0 → n = 0 ∨ 0 ≤ ledger.count + n
  | .register => ledger.count = 0 → ledger.waiting = 0
  | .retake => 0 < ledger.count ∨ ledger.count = 0 ∧ ledger.waiting = 1
  | _ => True

instance (ledger : Ledger) : DecidablePred ledger.Serves
  | .release n => inferInstanceAs (Decidable (ledger.count < 0 → n = 0 ∨ 0 ≤ ledger.count + n))
  | .register => inferInstanceAs (Decidable (ledger.count = 0 → ledger.waiting = 0))
  | .retake =>
      inferInstanceAs (Decidable (0 < ledger.count ∨ ledger.count = 0 ∧ ledger.waiting = 1))
  | .stay | .take | .grant | .withdraw | .restore => inferInstanceAs (Decidable True)

/-- **A negative counter owes one token to each waiter, and no token is left.** -/
def Settled (ledger : Ledger) : Prop := ledger.count < 0 → ledger.count + ledger.waiting = 0

/-- The moves that serve the waiters are exactly those that keep the ledger settled. -/
theorem Settled.apply_iff (settled : ledger.Settled) (enabled : ledger.Enabled move) :
    (ledger.apply move).Settled ↔ ledger.Serves move := by
  unfold Settled at *
  cases move <;> simp only [Enabled, Serves, Ledger.apply, iff_true] at * <;> omega

theorem settled_of_reach (reached : (system initial).Reach Serves ledger) : ledger.Settled := by
  refine reached.invariant (fun owing => ?_) fun ledger move after _ settled serves taken => ?_
  · exact absurd owing (by simp [system])
  · obtain ⟨enabled, rfl⟩ := next_cases taken
    exact (settled.apply_iff enabled).mpr serves

/-- Behind a negative counter every token has been handed out. -/
theorem acquired_eq_of_reach (reached : (system initial).Reach Serves ledger)
    (owing : ledger.count < 0) : ledger.acquired = initial + ledger.released := by
  have balanced := balanced_of_reach reached
  have settled := settled_of_reach reached owing
  unfold Balanced at balanced
  omega

end Ledger

end NovaSync.Semaphore
