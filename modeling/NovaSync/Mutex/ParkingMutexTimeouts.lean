/-
**`parking_mutex_timed::try_lock_until`: how it gives up, and how it succeeds.**

A waiter whose `atomic_wait_until` has timed out runs its acquisition once more inside the loop that withdraws
its registration: it takes a lock that it finds free, and leaves with a compare-exchange of a held word only.

* `trying_step` — where a step inside `try_lock_until` can lead: on, to the lock, or out by the
  compare-exchange to `expected - 2`.
* `tryLockUntil_gives_up_cleanly` — the way out is taken while somebody else owns the mutex, and takes back
  one registration, the caller's; the way to the lock makes the caller the one owner.
-/

import NovaSync.Mutex.ParkingMutexSafety

set_option linter.unusedSectionVars false

namespace NovaSync.ParkingMutex

open Concurrency Detail Futex

variable {variant : Variant} {Thread : Type*} [DecidableEq Thread] [Fintype Thread]

/-! ### Inside `try_lock_until` -/

/-- The thread is in `try_lock_until`. -/
def Pc.trying : Pc → Bool
  | .tryCas timed | .register timed | .reload timed | .acquireCas timed _ | .wait timed _ _ => timed
  | .withdrawLoad | .withdrawAcquireCas _ | .withdrawCas _ => true
  | _ => false

theorem trying_park (expected : Word) : (park true expected).trying = true := by
  unfold park
  split <;> rfl

theorem trying_withdraw (expected : Word) : (withdraw expected).trying = true := by
  unfold withdraw
  split <;> rfl

/-- **Where a step of `try_lock_until` leads.** -/
theorem trying_step {choice : Choice} {word after : Word} {pc moved : Pc} (trying : pc.trying = true)
    (stepped : step variant choice word pc = some (after, moved)) :
    moved.trying = true ∨ moved = .owner ∨
      ∃ expected : HeldWord, pc = .withdrawCas expected ∧ word = expected.1 ∧ after = word - 2 ∧
        moved = .idle := by
  cases pc with
  | idle | lockCas | spin | owner | unlock | notify => cases trying
  | tryCas timed =>
    obtain rfl : timed = true := trying
    rcases compareExchangeStrong_cases stepped with ⟨-, -, result⟩ | ⟨-, result⟩
    · cases result
      exact Or.inr (Or.inl rfl)
    · cases result
      exact Or.inl rfl
  | register timed =>
    obtain rfl : timed = true := trying
    cases (ordinary_eq_some stepped).2
    exact Or.inl rfl
  | reload timed =>
    obtain rfl : timed = true := trying
    cases (ordinary_eq_some stepped).2
    exact Or.inl (trying_park word)
  | acquireCas timed expected =>
    obtain rfl : timed = true := trying
    rcases compareExchangeWeak_cases stepped with ⟨-, -, result⟩ | ⟨-, result⟩
    · cases result
      exact Or.inr (Or.inl rfl)
    · cases result
      exact Or.inl (trying_park word)
  | wait timed expected point =>
    obtain rfl : timed = true := trying
    obtain ⟨outcome, -, result⟩ := Option.map_eq_some_iff.mp stepped
    cases outcome with
    | inl next =>
      cases result
      exact Or.inl rfl
    | inr changed =>
      cases result
      cases changed <;> exact Or.inl rfl
  | withdrawLoad =>
    cases (ordinary_eq_some stepped).2
    exact Or.inl (trying_withdraw word)
  | withdrawAcquireCas expected =>
    rcases compareExchangeWeak_cases stepped with ⟨-, -, result⟩ | ⟨-, result⟩
    · cases result
      exact Or.inr (Or.inl rfl)
    · cases result
      exact Or.inl (trying_withdraw word)
  | withdrawCas expected =>
    rcases compareExchangeWeak_cases stepped with ⟨-, same, result⟩ | ⟨-, result⟩
    · cases result
      exact Or.inr (Or.inr ⟨expected, rfl, same, by rw [same], rfl⟩)
    · cases result
      exact Or.inl (trying_withdraw word)

theorem not_holds_of_trying {pc : Pc} (trying : pc.trying = true) : pc.holds = false := by
  cases pc <;> first | rfl | cases trying

/-! ### The two results -/

/-- The lock bit of a word. -/
theorem sub_two_and_one (word : Word) : (word - 2) &&& 1 = word &&& 1 := by
  rw [← BitVec.toNat_inj, BitVec.toNat_and, BitVec.toNat_and]
  simp only [show (1 : Word).toNat = 1 from rfl, Nat.and_one_is_mod]
  bv_omega

/-- **Giving up.** The word is held, by somebody else, and it loses the caller's registration. -/
theorem Represented.gives_up {state : State Thread Word Pc} (represented : Represented state)
    {t : Thread} {expected : HeldWord} (here : state.thread t = .withdrawCas expected)
    (same : state.memory = expected.1) :
    state.memory &&& 1 ≠ 0 ∧ (∃! u, (state.thread u).holds = true) ∧
      (state.thread t).holds = false ∧
      waiters ⟨state.memory - 2, Function.update state.thread t .idle⟩ + 1 = waiters state := by
  have held : state.memory &&& 1 ≠ 0 := by
    rw [same]
    exact expected.2
  have owned := represented.held_iff.mp held
  have positive : 0 < count Pc.holds state.thread := by
    rw [← owners, owned]
    decide
  obtain ⟨u, holds⟩ := exists_of_count_pos positive
  refine ⟨held, ⟨u, holds, fun v holds' => eq_of_count_le_one represented.single holds' holds⟩, ?_,
    count_update_leave ?_ rfl⟩ <;> rw [here] <;> rfl

/-- **Succeeding.** The word was free, and the caller is the one who holds it. -/
theorem Represented.succeeds {state after : State Thread Word Pc} (represented : Represented state)
    (later : Represented after) {t : Thread} {choice : Choice} (trying : (state.thread t).trying = true)
    (taken : (system variant Thread).next state (.step t choice) = some after)
    (owner : after.thread t = .owner) :
    state.memory &&& 1 = 0 ∧ (∀ u, (state.thread u).holds = false) ∧ after.memory &&& 1 ≠ 0 ∧
      ∀ u, (after.thread u).holds = true ↔ u = t := by
  have holds : (after.thread t).holds = true := by
    rw [owner]
    rfl
  have owned : owners after = 1 := by
    have positive : 0 < owners after := count_pos holds
    have single := later.single
    omega
  obtain ⟨⟨word, moved⟩, stepped, rfl⟩ := Option.map_eq_some_iff.mp taken
  have grown : owners ⟨word, Function.update state.thread t moved⟩ = owners state + 1 := by
    simp only [Function.update_self] at owner
    exact count_update_enter (not_holds_of_trying trying) (by rw [owner]; rfl)
  have unowned : owners state = 0 := by
    have total := grown.symm.trans owned
    omega
  refine ⟨?_, fun u => ?_, later.held_iff.mpr owned, fun u => ⟨fun holds' => ?_, ?_⟩⟩
  · by_contra held
    have taken := represented.held_iff.mp held
    omega
  · by_contra holds'
    have positive : 0 < owners state := count_pos (Bool.eq_true_of_not_eq_false holds')
    omega
  · exact eq_of_count_le_one later.single holds' holds
  · rintro rfl
    exact holds

/-- **`try_lock_until` gives up only while somebody else holds the lock, and cleanly.** A step of a thread
inside it, whatever its wait has returned, leads

* out, with `false`: then it is a compare-exchange of a word whose lock bit is set, which one other thread
  holds, to that word minus 2. The lock bit stays as it is, the registered waiters are one less, and nobody
  else has moved; the word counts the waiters before and after.
* to the lock, with `true`: then the word was free, nobody held it, and the caller is its only owner.
* or on inside it. -/
theorem tryLockUntil_gives_up_cleanly {state after : State Thread Word Pc}
    (reached : (system variant Thread).Reachable state) {t : Thread} {choice : Choice}
    (trying : (state.thread t).trying = true)
    (taken : (system variant Thread).next state (.step t choice) = some after) :
    (after.thread t = .idle →
      (∃ expected : HeldWord, state.thread t = .withdrawCas expected ∧ state.memory = expected.1) ∧
      (state.memory &&& 1 ≠ 0 ∧ (∃! u, (state.thread u).holds = true) ∧
        (state.thread t).holds = false) ∧
      after.memory = state.memory - 2 ∧ after.memory &&& 1 = state.memory &&& 1 ∧
      waiters after + 1 = waiters state ∧ (∀ u, u ≠ t → after.thread u = state.thread u)) ∧
    (after.thread t = .owner →
      state.memory &&& 1 = 0 ∧ (∀ u, (state.thread u).holds = false) ∧ after.memory &&& 1 ≠ 0 ∧
        ∀ u, (after.thread u).holds = true ↔ u = t) ∧
    (after.thread t = .idle ∨ after.thread t = .owner ∨ (after.thread t).trying = true) ∧
    state.memory.toNat = (2 * waiters state + owners state) % 2 ^ 32 ∧
    after.memory.toNat = (2 * waiters after + owners after) % 2 ^ 32 := by
  have represented := represented_of_reachable reached
  have later := represented_of_reachable (reached.step trivial taken)
  refine ⟨fun left => ?_, represented.succeeds later trying taken, ?_, represented.word, later.word⟩
  · obtain ⟨⟨word, moved⟩, stepped, rfl⟩ := Option.map_eq_some_iff.mp taken
    simp only [Function.update_self] at left
    rcases trying_step trying stepped with onward | won | ⟨expected, here, same, withdrawn, rfl⟩
    · rw [left] at onward
      cases onward
    · rw [left] at won
      cases won
    · obtain rfl : word = state.memory - 2 := withdrawn
      obtain ⟨held, single, other, fewer⟩ := represented.gives_up here same
      exact ⟨⟨expected, here, same⟩, ⟨held, single, other⟩, rfl, sub_two_and_one _, fewer,
        fun u apart => Function.update_of_ne apart _ _⟩
  · obtain ⟨⟨word, moved⟩, stepped, rfl⟩ := Option.map_eq_some_iff.mp taken
    simp only [Function.update_self]
    rcases trying_step trying stepped with onward | won | ⟨-, -, -, -, rfl⟩
    · exact Or.inr (Or.inr onward)
    · exact Or.inr (Or.inl won)
    · exact Or.inl rfl

/-- Thread 0 holds the lock, thread 2 waits for it, and the wait of thread 1 has timed out. -/
theorem tryLockUntil_gives_up_cleanly_expired :
    ∃ state after : State (Fin 3) Word Pc, (system .timed (Fin 3)).Reachable state ∧
      (system .timed (Fin 3)).next state (.step 1 .go) = some after ∧ after.thread 1 = .idle ∧
      state.memory = 5 ∧ after.memory = 3 ∧ waiters after + 1 = waiters state := by
  obtain ⟨state, reached, computed⟩ := System.exists_reachable_of_run (system .timed (Fin 3))
    [.call 0 .lock, .step 0 .go, .call 1 .tryLockUntil, .step 1 .go, .step 1 .go, .step 1 .go, .step 1 .go,
      .step 1 .go, .step 1 .expired, .step 1 .go, .call 2 .lock, .step 2 .go, .step 2 .go, .step 1 .go]
    (fun state => decide (state.memory = 5 ∧ (state.thread 1).trying = true) &&
      ((system .timed (Fin 3)).next state (.step 1 .go)).any
        fun after : State (Fin 3) Word Pc => decide (after.thread 1 = .idle))
    (by decide +kernel)
  obtain ⟨here, leaves⟩ := Bool.and_eq_true_iff.mp computed
  obtain ⟨word, trying⟩ := of_decide_eq_true here
  obtain ⟨after, taken, left⟩ := (Option.any_eq_true _ _).mp leaves
  have idle := of_decide_eq_true left
  obtain ⟨-, -, withdrawn, -, fewer, -⟩ := (tryLockUntil_gives_up_cleanly reached trying taken).1 idle
  refine ⟨state, after, reached, taken, idle, word, ?_, fewer⟩
  rw [withdrawn, word]
  rfl

end NovaSync.ParkingMutex
