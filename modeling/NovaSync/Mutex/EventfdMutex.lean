/-
**`eventfd_mutex_impl`.**

The mutex is one token in an eventfd: whoever reads it owns the mutex, and `unlock` writes it back. Only an owner
calls `unlock`, and it calls nothing else.

* `Sole` — the counter and the owners, those about to write included, are one. Every step keeps it, so the counter
  never exceeds one and no `unlock` is dropped.
* `eventfdMutex_exclusion` — no two owners, and no attempt fails unless somebody else owns the mutex.
* `eventfdMutex_no_lost_wakeup` — a free mutex is there for every waiter, timed or not, and a waiter that cannot go
  on waits for an owner.
-/

import NovaSync.Detail.EventfdTokens

set_option linter.unusedSectionVars false

namespace NovaSync.EventfdMutex

open Concurrency Detail EventfdTokens

/-! ### The program -/

inductive Op
  | lock
  | tryLock
  | tryLockFor (positive : Bool)
  | tryLockUntil (clock : Clock)
  | unlock
deriving DecidableEq, Repr

def call : Op → Pc → Option Pc
  | .lock, .outside false => some (.read (.waits .forever))
  | .tryLock, .outside false => some (.read .fail)
  | .tryLockFor positive, .outside false => some (readFor positive)
  | .tryLockUntil clock, .outside false => some (readUntil clock)
  | .unlock, .outside true => some (.write 1)
  | _, _ => none

/-- The mutex used by the threads of `Thread`, constructed unlocked. -/
abbrev system (Thread : Type*) [DecidableEq Thread] [Fintype Thread] :
    System (State Thread Memory Pc) (Action Thread Op Choice) :=
  (program call).system { counter := 1 }

variable {Thread : Type*} [DecidableEq Thread] [Fintype Thread] {state : State Thread Memory Pc}

/-- The threads that own the mutex. -/
def owners (state : State Thread Memory Pc) : ℕ := count Pc.owner state.thread

/-! ### The token -/

/-- **There is one token**, in the counter or with its owner, and it is what an owner writes. -/
structure Sole (state : State Thread Memory Pc) : Prop where
  token : state.memory.counter + owners state = 1
  written : ∀ t n, state.thread t = .write n → n = 1
  kept : state.memory.dropped = 0

/-- A call changes neither who owns the mutex nor what is written. -/
theorem call_standing {op : Op} {pc moved : Pc} (called : call op pc = some moved) :
    moved.owner = pc.owner ∧ ∀ n, moved = .write n → n = 1 := by
  cases pc with
  | outside acquired =>
    cases acquired with
    | false =>
      cases op with
      | lock | tryLock | tryLockFor =>
        cases called
        exact ⟨rfl, nofun⟩
      | tryLockUntil clock =>
        cases called
        cases clock <;> exact ⟨rfl, nofun⟩
      | unlock => cases called
    | true =>
      cases op with
      | unlock =>
        cases called
        refine ⟨rfl, fun n written => ?_⟩
        cases written
        rfl
      | lock | tryLock | tryLockFor | tryLockUntil => cases called
  | read | waiting | rest | write => cases op <;> cases called

theorem owner_of_acquiring {pc : Pc} (inside : pc.acquiring = true) : pc.owner = false ∧ ∀ n, pc ≠ .write n := by
  cases pc with
  | outside | write => cases inside
  | read | waiting | rest => exact ⟨rfl, nofun⟩

/-- A thread that moves to where nothing is written leaves the writes of the others. -/
theorem written_update {t : Thread} {moved : Pc} (written : ∀ t n, state.thread t = .write n → n = 1)
    (here : ∀ n, moved = .write n → n = 1) (u : Thread) (n : ℕ)
    (there : Function.update state.thread t moved u = .write n) : n = 1 := by
  by_cases same : u = t
  · rw [same, Function.update_self] at there
    exact here n there
  · rw [Function.update_of_ne same] at there
    exact written u n there

theorem Sole.effect {t : Thread} {memory : Memory} {moved : Pc} (sole : Sole state)
    (effect : Effect state.memory (state.thread t) memory moved) :
    Sole ⟨memory, Function.update state.thread t moved⟩ := by
  have change := count_update Pc.owner state.thread t moved
  have token := sole.token
  unfold owners at token
  cases effect with
  | moves inside inside' =>
    rw [(owner_of_acquiring inside).1, (owner_of_acquiring inside').1] at change
    refine ⟨?_, written_update sole.written fun n here => ?_, sole.kept⟩
    · simp only [owners]
      omega
    · exact absurd here ((owner_of_acquiring inside').2 n)
  | acquires otherwise here positive =>
    rw [here] at change
    simp only [Pc.owner, Bool.toNat_false, Bool.toNat_true] at change
    refine ⟨?_, written_update sole.written (fun _ written => by cases written), sole.kept⟩
    simp only [owners, Memory.read, Eventfd.read]
    omega
  | fails here empty =>
    rw [here] at change
    simp only [Pc.owner, Bool.toNat_false] at change
    refine ⟨?_, written_update sole.written (fun _ written => by cases written), sole.kept⟩
    simp only [owners]
    omega
  | writes n here fits =>
    have one : n = 1 := sole.written t n here
    rw [here] at change
    simp only [Pc.owner, Bool.toNat_false, Bool.toNat_true] at change
    refine ⟨?_, written_update sole.written (fun _ written => by cases written), sole.kept⟩
    simp only [owners]
    omega
  | drops n here full =>
    have one : n = 1 := sole.written t n here
    unfold counterMax at full
    omega

theorem sole_of_reachable (reached : (system Thread).Reachable state) : Sole state := by
  have start : Sole (system Thread).start := by
    refine ⟨?_, nofun, rfl⟩
    have nobody : owners (system Thread).start = 0 := count_const rfl
    rw [nobody]
    rfl
  refine reached.invariant start fun state action after _ sole _ taken => ?_
  rcases (program_silent call).next_cases taken with ⟨t, op, moved, -, called, rfl⟩ |
    ⟨t, choice, memory, moved, -, stepped, rfl⟩
  · obtain ⟨owner, written⟩ := call_standing called
    have same : owners ⟨state.memory, Function.update state.thread t moved⟩ = owners state := count_update_same owner
    exact ⟨by rw [same]; exact sole.token, written_update sole.written written, sole.kept⟩
  · exact sole.effect (step_effect stepped)

/-! ### Exclusion -/

/-- **Mutual exclusion.** No two threads own the mutex; an operation that fails does so at a moment at which
somebody else owns it; and no `unlock` is lost. -/
theorem eventfdMutex_exclusion (reached : (system Thread).Reachable state) :
    (∀ t u, (state.thread t).owner = true → (state.thread u).owner = true → t = u) ∧
      (∀ t choice after, (system Thread).next state (.step t choice) = some after →
        (state.thread t).acquiring = true → after.thread t = .outside false →
        ∃ u, u ≠ t ∧ (state.thread u).owner = true) ∧
      state.memory.dropped = 0 := by
  have sole := sole_of_reachable reached
  have token := sole.token
  refine ⟨fun t u => eq_of_count_le_one (by unfold owners at token; omega), ?_, sole.kept⟩
  intro t choice after taken inside failed
  obtain ⟨⟨memory, moved⟩, stepped, rfl⟩ := Option.map_eq_some_iff.mp taken
  simp only [Function.update_self] at failed
  subst failed
  have empty : state.memory.counter = 0 := by
    generalize place : Pc.outside false = moved at stepped
    cases step_effect stepped with
    | moves _ inside' =>
      rw [← place] at inside'
      cases inside'
    | acquires => cases place
    | fails _ empty => exact empty
    | writes n here | drops n here =>
      rw [here] at inside
      cases inside
  have owned : 0 < count Pc.owner state.thread := by
    unfold owners at token
    omega
  obtain ⟨u, owner⟩ := exists_of_count_pos owned
  refine ⟨u, ?_, owner⟩
  rintro rfl
  rw [(owner_of_acquiring inside).1] at owner
  cases owner

/-- Thread 0 owns the mutex, and the deadline of thread 1 passes. -/
theorem eventfdMutex_exclusion_timeout :
    ∃ state after, (system (Fin 2)).Reachable state ∧ (state.thread 0).owner = true ∧
      (system (Fin 2)).next state (.step 1 .go) = some after ∧ after.thread 1 = .outside false ∧
      ∃ u, u ≠ 1 ∧ (state.thread u).owner = true := by
  obtain ⟨state, reached, computed⟩ := System.exists_reachable_of_run (system (Fin 2))
    [.call 0 .lock, .step 0 .go, .call 1 (.tryLockUntil .steady), .step 1 .go, .step 1 .go, .step 1 .interrupted,
      .step 1 .expired]
    (fun state => decide ((state.thread 0).owner = true ∧ (state.thread 1).acquiring = true ∧
      state.memory.counter = 0 ∧ state.thread 1 = .read .fail)) (by decide +kernel)
  obtain ⟨owner, waiting, empty, here⟩ := of_decide_eq_true computed
  have taken : (system (Fin 2)).next state (.step 1 .go) = some
      ⟨state.memory, Function.update state.thread 1 (.outside false)⟩ := by
    refine Program.next_step_eq ?_
    rw [here]
    simp only [program, step, ordinary, empty, Nat.lt_irrefl, if_false, if_true, Otherwise.next]
  have failed : Function.update state.thread 1 (.outside false) 1 = .outside false := Function.update_self ..
  exact ⟨state, _, reached, owner, taken, failed, (eventfdMutex_exclusion reached).2.1 1 .go _ taken waiting failed⟩

/-! ### Nobody is left waiting -/

/-- **No lost wakeup.** When nobody owns the mutex, every operation that is still waiting comes to own it by its
own steps, as long as the others leave it free whenever it looks; and where nobody can go on, a waiter waits for
an owner that is outside the mutex's operations. -/
theorem eventfdMutex_no_lost_wakeup (reached : (system Thread).Reachable state) {t : Thread}
    (waiting : (state.thread t).acquiring = true) :
    ((∀ u, (state.thread u).owner = false) → (program call).Comes .go (fun memory => decide (0 < memory.counter))
      (· = .outside true) state.memory (state.thread t)) ∧
    ((∀ u, step .go state.memory (state.thread u) = none) → ∃ u, state.thread u = .outside true) := by
  have token := (sole_of_reachable reached).token
  unfold owners at token
  constructor
  · intro free
    have nobody : count Pc.owner state.thread = 0 := by
      by_contra owned
      obtain ⟨u, owner⟩ := exists_of_count_pos (Nat.pos_of_ne_zero owned)
      rw [free u] at owner
      cases owner
    exact acquisition_comes waiting (by omega)
  · intro quiet
    have empty : state.memory.counter = 0 := counter_eq_zero_of_quiet waiting (quiet t)
    have owned : 0 < count Pc.owner state.thread := by omega
    obtain ⟨u, owner⟩ := exists_of_count_pos owned
    refine ⟨u, ?_⟩
    have still := quiet u
    cases here : state.thread u with
    | outside acquired =>
      rw [here] at owner
      cases owner
      rfl
    | write n =>
      rw [here] at still
      cases still
    | read | waiting | rest =>
      rw [here] at owner
      cases owner

/-- Thread 1 waits for thread 0, and locks once it has unlocked. -/
theorem eventfdMutex_no_lost_wakeup_handover :
    ∃ state, (system (Fin 2)).Reachable state ∧ (state.thread 1).acquiring = true ∧ state.memory.acquired = 1 ∧
      (program call).Comes .go (fun memory => decide (0 < memory.counter)) (· = .outside true) state.memory
        (state.thread 1) := by
  obtain ⟨state, reached, computed⟩ := System.exists_reachable_of_run (system (Fin 2))
    [.call 0 .tryLock, .step 0 .go, .call 1 .lock, .step 1 .go, .step 1 .failed, .call 0 .unlock, .step 1 .go,
      .step 0 .go]
    (fun state => decide ((state.thread 1).acquiring = true ∧ state.memory.acquired = 1 ∧
      ∀ u, (state.thread u).owner = false)) (by decide +kernel)
  obtain ⟨waiting, acquired, free⟩ := of_decide_eq_true computed
  exact ⟨state, reached, waiting, acquired, (eventfdMutex_no_lost_wakeup reached waiting).1 free⟩

end NovaSync.EventfdMutex
