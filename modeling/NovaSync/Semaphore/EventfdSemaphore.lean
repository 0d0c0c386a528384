/-
**`eventfd_semaphore`.**

The tokens are the counter of the eventfd, so a run of the semaphore is a run of the abstract one in which nobody
registers: a successful read is the acquisition of a free token, a write that fits is a release.

* `reach_ledger` — the refinement.
* `eventfdSemaphore_accounts` — every token is in the counter or has been handed out.
* `eventfdSemaphore_drops` — `release` loses its tokens exactly when the counter has no room for them.
* `eventfdSemaphore_no_stranded_waiter` — a token in the counter is there for every waiter, and a waiter that cannot
  go on means that all tokens have been handed out.
-/

import NovaSync.Detail.EventfdTokens
import NovaSync.Semaphore.TokenLedger

set_option linter.unusedSectionVars false

namespace NovaSync.EventfdSemaphore

open Concurrency Detail EventfdTokens Semaphore

/-! ### The program -/

inductive Op
  | release (n : ℕ)
  | acquire
  | tryAcquire
  | tryAcquireFor (positive : Bool)
  | tryAcquireUntil (clock : Clock)
deriving DecidableEq, Repr

def call : Op → Pc → Option Pc
  | .release n, .outside _ => some (.write n)
  | .acquire, .outside _ => some (.read (.waits .forever))
  | .tryAcquire, .outside _ => some (.read .fail)
  | .tryAcquireFor positive, .outside _ => some (readFor positive)
  | .tryAcquireUntil clock, .outside _ => some (readUntil clock)
  | _, _ => none

/-- `unsigned( initial )`. -/
def unsigned (initial : ℤ) : ℕ := (initial % 2 ^ 32).toNat

/-- The semaphore used by the threads of `Thread`, constructed with `initial`. -/
abbrev system (initial : ℤ) (Thread : Type*) [DecidableEq Thread] [Fintype Thread] :
    System (State Thread Memory Pc) (Action Thread Op Choice) :=
  (program call).system { counter := unsigned initial }

variable {initial : ℤ} {Thread : Type*} [DecidableEq Thread] [Fintype Thread] {state : State Thread Memory Pc}

theorem unsigned_le (initial : ℤ) : unsigned initial ≤ counterMax := by
  unfold unsigned counterMax
  omega

/-! ### The abstract semaphore -/

/-- The numbers of a memory. Nobody registers. -/
def ledger (memory : Memory) : Ledger where
  count := memory.counter
  released := memory.released
  acquired := memory.acquired
  waiting := 0
  retaking := 0

/-- The move of a thread's next step. -/
def move (memory : Memory) : Pc → Move
  | .read _ => if 0 < memory.counter then .take else .stay
  | .write n => if memory.counter + n ≤ counterMax then .release n else .stay
  | .outside _ | .waiting _ _ | .rest => .stay

def moveOf (state : State Thread Memory Pc) : Action Thread Op Choice → Move
  | .step t _ => move state.memory (state.thread t)
  | .call _ _ | .wake _ _ => .stay

/-- **A step is a move**, and takes no token that is not there. -/
theorem effect_ledger {memory after : Memory} {pc moved : Pc} (effect : Effect memory pc after moved) :
    (ledger memory).Enabled (move memory pc) ∧ (ledger memory).Spares (move memory pc) ∧
      ledger after = (ledger memory).apply (move memory pc) := by
  cases effect with
  | moves inside _ empty =>
    have stays : move memory pc = .stay := by
      cases pc with
      | read otherwise => exact if_neg (by rw [empty otherwise rfl]; exact Nat.lt_irrefl 0)
      | write => cases inside
      | outside | waiting | rest => rfl
    rw [stays]
    exact ⟨trivial, trivial, rfl⟩
  | acquires otherwise here positive =>
    have takes : move memory pc = .take := by
      rw [here]
      exact if_pos positive
    have available : 0 < (ledger memory).count := Int.natCast_pos.mpr positive
    rw [takes]
    refine ⟨available, available, Ledger.ext ?_ rfl rfl rfl rfl⟩
    simp only [ledger, Memory.read, Eventfd.read, Ledger.apply]
    omega
  | fails here empty =>
    have stays : move memory pc = .stay := by
      rw [here]
      exact if_neg (by rw [empty]; exact Nat.lt_irrefl 0)
    rw [stays]
    exact ⟨trivial, trivial, rfl⟩
  | writes n here fits =>
    have releases : move memory pc = .release n := by
      rw [here]
      exact if_pos fits
    rw [releases]
    refine ⟨trivial, trivial, Ledger.ext ?_ rfl rfl rfl rfl⟩
    simp only [ledger, Ledger.apply, Nat.cast_add]
  | drops n here full =>
    have stays : move memory pc = .stay := by
      rw [here]
      exact if_neg (Nat.not_le.mpr full)
    rw [stays]
    exact ⟨trivial, trivial, rfl⟩

/-- **The semaphore refines the abstract one.** -/
theorem reach_ledger (reached : (system initial Thread).Reachable state) :
    (Ledger.system (unsigned initial)).Reach Ledger.Spares (ledger state.memory) := by
  have start : ledger (system initial Thread).start.memory = (Ledger.system (unsigned initial)).start := rfl
  refine reached.simulate (fun state => ledger state.memory) moveOf start fun state action after _ _ taken => ?_
  rcases (program_silent call).next_cases taken with ⟨t, op, moved, rfl, -, rfl⟩ |
    ⟨t, choice, memory, moved, rfl, stepped, rfl⟩
  · have enabled : (ledger state.memory).Enabled .stay := trivial
    refine ⟨trivial, ?_⟩
    simp only [Ledger.system, moveOf, if_pos enabled, Ledger.apply]
  · obtain ⟨enabled, spares, result⟩ := effect_ledger (step_effect stepped)
    refine ⟨spares, ?_⟩
    rw [result]
    exact if_pos enabled

/-- **Every token is in the counter or has been handed out.** In every run the semaphore is the abstract one with
`unsigned( initial )` tokens; the counter and the acquisitions add up to these and the tokens released, and the
counter is one that an eventfd can have. -/
theorem eventfdSemaphore_accounts (reached : (system initial Thread).Reachable state) :
    (Ledger.system (unsigned initial)).Reach Ledger.Spares (ledger state.memory) ∧
      state.memory.counter + state.memory.acquired = unsigned initial + state.memory.released ∧
      state.memory.counter ≤ counterMax := by
  obtain ⟨tokens, room⟩ := accounted_of_reachable (unsigned_le initial) reached
  exact ⟨reach_ledger reached, tokens, room⟩

/-- Constructed with `2 ^ 32 + 1`, the semaphore has one token. -/
theorem eventfdSemaphore_accounts_truncated :
    ∃ state, (system (2 ^ 32 + 1) (Fin 1)).Reachable state ∧ state.thread 0 = .outside false ∧
      (Ledger.system 1).Reach Ledger.Spares (ledger state.memory) ∧
      state.memory.counter + state.memory.acquired = 1 + state.memory.released ∧
      state.memory.counter ≤ counterMax ∧ state.memory.acquired = 1 := by
  obtain ⟨state, reached, computed⟩ := System.exists_reachable_of_run (system (2 ^ 32 + 1) (Fin 1))
    [.call 0 .tryAcquire, .step 0 .go, .call 0 (.tryAcquireFor true), .step 0 .go, .step 0 .expired, .step 0 .go]
    (fun state => decide (state.thread 0 = .outside false ∧ state.memory.acquired = 1)) (by decide +kernel)
  obtain ⟨failed, acquired⟩ := of_decide_eq_true computed
  obtain ⟨refines, tokens, room⟩ := eventfdSemaphore_accounts reached
  exact ⟨state, reached, failed, refines, tokens, room, acquired⟩

/-! ### Dropped tokens -/

/-- The counter has room for what a release is about to write. -/
def Fits (state : State Thread Memory Pc) : Action Thread Op Choice → Prop
  | .step t _ => ∀ n, state.thread t = .write n → state.memory.counter + n ≤ counterMax
  | .call _ _ | .wake _ _ => True

/-- **When `release` loses tokens.** As long as the counter has room for every release, none of its tokens is
dropped; where it has not, the release returns with its tokens lost. -/
theorem eventfdSemaphore_drops :
    (system initial Thread).Sharp (fun _ => True) Fits fun state => state.memory.dropped = 0 := by
  have fails : ∀ state : State Thread Memory Pc, 0 < state.memory.dropped → ∃ later,
      ((system initial Thread).resume state).Reach (fun _ _ => True) later ∧ ¬ later.memory.dropped = 0 :=
    fun state lost => ⟨state, .start, Nat.ne_of_gt lost⟩
  have start : (system initial Thread).start.memory.dropped = 0 := rfl
  refine System.Sharp.of_invariant start ?_ (fun _ none => none) ?_ fails
  · intro state action after none _ fits taken
    rcases (program_silent call).next_cases taken with ⟨t, op, moved, -, -, rfl⟩ |
      ⟨t, choice, memory, moved, rfl, stepped, rfl⟩
    · exact none
    · cases step_effect stepped with
      | moves | acquires | fails | writes => exact none
      | drops n here full => exact absurd (fits n here) (Nat.not_le.mpr full)
  · intro state action after reached _ breach taken
    rcases (program_silent call).next_cases taken with ⟨t, op, moved, rfl, -, rfl⟩ |
      ⟨t, choice, memory, moved, rfl, stepped, rfl⟩
    · exact absurd trivial breach
    · have room : state.memory.counter ≤ counterMax := (accounted_of_reachable (unsigned_le initial) reached).room
      simp only [Fits, not_forall] at breach
      obtain ⟨n, here, full⟩ := breach
      rw [here] at stepped
      cases (ordinary_eq_some stepped).2
      simp only [Memory.write, if_neg full]
      omega

/-! ### Nobody is left waiting -/

/-- **A token is there for whoever waits.** While the counter is positive whenever it looks, an acquisition comes to
its end by its own steps; and where nobody can go on, a waiter means that all tokens have been handed out. -/
theorem eventfdSemaphore_no_stranded_waiter (reached : (system initial Thread).Reachable state) {t : Thread}
    (waiting : (state.thread t).acquiring = true) :
    (0 < state.memory.counter → (program call).Comes .go (fun memory => decide (0 < memory.counter))
      (· = .outside true) state.memory (state.thread t)) ∧
    ((∀ u, step .go state.memory (state.thread u) = none) →
      state.memory.acquired = unsigned initial + state.memory.released) := by
  refine ⟨acquisition_comes waiting, fun quiet => ?_⟩
  have tokens := (accounted_of_reachable (unsigned_le initial) reached).tokens
  have empty : state.memory.counter = 0 := counter_eq_zero_of_quiet waiting (quiet t)
  omega

/-- Thread 1 has taken the token of thread 2; thread 0 waits for another. -/
theorem eventfdSemaphore_no_stranded_waiter_taken :
    ∃ state, (system 0 (Fin 3)).Reachable state ∧ (state.thread 0).acquiring = true ∧
      (∀ u, step .go state.memory (state.thread u) = none) ∧ state.memory.acquired = 1 ∧
      state.memory.acquired = unsigned 0 + state.memory.released := by
  obtain ⟨state, reached, computed⟩ := System.exists_reachable_of_run (system 0 (Fin 3))
    [.call 0 .acquire, .step 0 .go, .call 1 (.tryAcquireUntil .system), .step 1 .go, .step 1 .go,
      .call 2 (.release 1), .step 2 .go, .step 0 .go, .step 1 .go, .step 1 .go, .step 0 .go]
    (fun state => decide ((state.thread 0).acquiring = true ∧
      (∀ u, step .go state.memory (state.thread u) = none) ∧ state.memory.acquired = 1)) (by decide +kernel)
  obtain ⟨waiting, quiet, acquired⟩ := of_decide_eq_true computed
  exact ⟨state, reached, waiting, quiet, acquired,
    (eventfdSemaphore_no_stranded_waiter reached waiting).2 quiet⟩

end NovaSync.EventfdSemaphore
