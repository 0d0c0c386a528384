/-
**What `parking_auto_reset_event` does with a signal.**

* `autoResetEvent_no_swallowed_signal` — in a quiescent state with a sleeper every signal has released a
  waiter, in the untimed runs in which no waiter registers at a level that another still holds
  (`Spaced`). Each waiter then has a level of its own (`Distinct`), and a sleeper whose level `state_`
  has passed has a wake coming (`Attended`).
* `autoResetEvent_signal_swallowed` — two waiters at one level share a signal, and both sleep on.
* `autoResetEvent_one_token` — `state_` is at most 1 in the runs whose withdrawals find no stored token.
* `autoResetEvent_second_token` — a withdrawal that finds one makes it two.
-/

import NovaSync.Event.ParkingAutoResetEventTokens

set_option linter.unusedSectionVars false

namespace NovaSync.ParkingAutoResetEvent

open Concurrency Detail Futex

variable {config : Config} {initiallySet : Bool} {Thread : Type*} [DecidableEq Thread]
  [Fintype Thread]

/-! ### No swallowed signal -/

/-- The level below `state_` is nobody's slot. -/
def FreeLevel (state : State Thread Memory Pc) : Prop :=
  ∀ u, (state.thread u).slot? ≠ some (state.memory.state - 1)

instance (state : State Thread Memory Pc) : Decidable (FreeLevel state) :=
  inferInstanceAs (Decidable (∀ u, (state.thread u).slot? ≠ some (state.memory.state - 1)))

/-- An untimed action that does not overflow, and registers a waiter only at a level that nobody
holds. -/
def Spaced (state : State Thread Memory Pc) (action : Action Thread Op Choice) : Prop :=
  Plain state action ∧ OnStep (fun state t => (state.thread t).subtracts = true →
    state.memory.state ≤ 0 → FreeLevel state) state action

instance (state : State Thread Memory Pc) : DecidablePred (Spaced state) :=
  fun _ => inferInstanceAs (Decidable (_ ∧ _))

/-- **Every blocked waiter has a level of its own, below zero.** -/
structure Distinct (state : State Thread Memory Pc) : Prop where
  negative : ∀ t slot, (state.thread t).slot? = some slot → slot < 0
  unique : ∀ t u slot, (state.thread t).slot? = some slot → (state.thread u).slot? = some slot → t = u

/-- A thread that keeps its slot or gives it up leaves the levels distinct. -/
theorem Distinct.keep {state : State Thread Memory Pc} (distinct : Distinct state) {t : Thread}
    {memory : Memory} {moved : Pc}
    (kept : ∀ slot, moved.slot? = some slot → (state.thread t).slot? = some slot) :
    Distinct ⟨memory, Function.update state.thread t moved⟩ := by
  have before : ∀ u slot, (Function.update state.thread t moved u).slot? = some slot →
      (state.thread u).slot? = some slot := by
    intro u slot held
    rcases update_cases Pc.slot? held with ⟨rfl, own⟩ | ⟨-, before⟩
    · exact kept slot own
    · exact before
  exact ⟨fun u slot held => distinct.negative u slot (before u slot held),
    fun u v slot first second => distinct.unique u v slot (before u slot first) (before v slot second)⟩

/-- A thread that takes a level that nobody holds leaves the levels distinct. -/
theorem Distinct.enter {state : State Thread Memory Pc} (distinct : Distinct state) {t : Thread}
    {memory : Memory} {moved : Pc} (level : ℤ) (taken : moved.slot? = some level)
    (low : level < 0) (free : ∀ u, (state.thread u).slot? ≠ some level) :
    Distinct ⟨memory, Function.update state.thread t moved⟩ := by
  have own : ∀ slot, moved.slot? = some slot → slot = level := fun slot held =>
    Option.some_injective _ (held.symm.trans taken)
  refine ⟨fun u slot held => ?_, fun u v slot first second => ?_⟩
  · rcases update_cases Pc.slot? held with ⟨-, here⟩ | ⟨-, before⟩
    · exact own slot here ▸ low
    · exact distinct.negative u slot before
  · rcases update_cases Pc.slot? first with ⟨rfl, here⟩ | ⟨-, before⟩ <;>
      rcases update_cases Pc.slot? second with ⟨rfl, there⟩ | ⟨-, after⟩
    · rfl
    · exact absurd (own slot here ▸ after) (free v)
    · exact absurd (own slot there ▸ before) (free u)
    · exact distinct.unique u v slot before after

theorem Distinct.effect {state : State Thread Memory Pc} (distinct : Distinct state) {t : Thread}
    {choice : Choice} {memory : Memory} {moved : Pc} (spaced : Spaced state (.step t choice))
    (effect : Effect state.memory (state.thread t) memory moved) :
    Distinct ⟨memory, Function.update state.thread t moved⟩ := by
  obtain ⟨⟨fits, -⟩, free⟩ := spaced
  simp only [NoOverflow, OnStep] at fits free
  cases effect with
  | moves inside => exact distinct.keep fun slot held => inside.slot.symm.trans held
  | sleeps slot _ _ before _ after =>
    exact distinct.keep fun own held => before.trans (after.symm.trans held)
  | signal s =>
    refine distinct.keep fun slot held => ?_
    split at held <;> cases held
  | register timed unset here =>
    rw [here] at fits free
    simp only [nextState] at fits
    refine distinct.enter (state.memory.state - 1) ?_ (by omega) (free rfl unset)
    rw [int32_eq_self fits]
    rfl
  | expires | take | subtract | leave | withdraw =>
    refine distinct.keep fun slot held => ?_
    cases held

theorem distinct_of_reach {state : State Thread Memory Pc}
    (reached : (system config initiallySet Thread).Reach Spaced state) : Distinct state := by
  refine event_invariant reached rfl ⟨nofun, nofun⟩ (fun state thread distinct _ slot => ?_)
    (fun state t choice memory moved _ distinct spaced stepped =>
      distinct.effect spaced (step_effect stepped))
  exact ⟨fun t own held => distinct.negative t own ((slot t).symm.trans held),
    fun t u own first second =>
      distinct.unique t u own ((slot t).symm.trans first) ((slot u).symm.trans second)⟩

/-- **A sleeper whose level `state_` has passed has a wake coming.** -/
def Attended (state : State Thread Memory Pc) : Prop :=
  ∀ t slot, (state.thread t).asleep = true → (state.thread t).slot? = some slot →
    slot < state.memory.state → ∃ u, state.thread u = .notify

/-- The wakes stay good when a thread moves on awake and `state_` passes no further level. -/
theorem Attended.move {state : State Thread Memory Pc} (attended : Attended state) {t : Thread}
    {memory : Memory} {moved : Pc} (source : state.thread t ≠ .notify) (awake : moved.asleep = false)
    (passed : ∀ u slot, (state.thread u).slot? = some slot → slot < memory.state →
      slot < state.memory.state) :
    Attended ⟨memory, Function.update state.thread t moved⟩ := by
  intro u slot sleeping held above
  dsimp only at sleeping held above ⊢
  obtain ⟨other, before⟩ := ne_of_update Pc.asleep awake sleeping
  rw [Function.update_of_ne other] at held
  exact exists_update moved source (attended u slot before held (passed u slot held above))

theorem Attended.effect {state : State Thread Memory Pc} (attended : Attended state)
    (negative : ∀ u slot, (state.thread u).slot? = some slot → slot < 0) {t : Thread}
    {memory : Memory} {moved : Pc} (source : state.thread t ≠ .notify)
    (fits : InInt32 (nextState state.memory (state.thread t)))
    (outside : (state.thread t).timed = false)
    (effect : Effect state.memory (state.thread t) memory moved) :
    Attended ⟨memory, Function.update state.thread t moved⟩ := by
  cases effect with
  | moves inside => exact attended.move source inside.awake fun _ _ _ => id
  | sleeps own below registered before _ after =>
    intro u slot sleeping held above
    dsimp only at sleeping held above ⊢
    by_cases here : u = t
    · subst here
      rw [Function.update_self, after] at held
      cases held
      omega
    · rw [Function.update_of_ne here] at sleeping held
      exact exists_update _ source (attended u slot sleeping held above)
  | signal s here same =>
    by_cases waiting : s.1 < 0
    · rw [if_pos waiting]
      exact fun _ _ _ _ _ => ⟨t, Function.update_self ..⟩
    · rw [if_neg waiting]
      refine attended.move source rfl fun u slot held _ => ?_
      have := negative u slot held
      omega
  | take caller s here same =>
    refine attended.move source rfl fun u slot _ above => ?_
    simp only [Memory.take] at above
    omega
  | subtract timed set here =>
    rw [here] at fits
    simp only [nextState] at fits
    refine attended.move source rfl fun u slot _ above => ?_
    simp only [Memory.complete, Memory.fetchSub, int32_eq_self fits] at above
    omega
  | register timed unset here =>
    rw [here] at fits
    simp only [nextState] at fits
    refine attended.move source rfl fun u slot _ above => ?_
    simp only [Memory.fetchSub, int32_eq_self fits] at above
    omega
  | leave => exact attended.move source rfl fun _ _ _ => id
  | expires own here | withdraw own here =>
    rw [here] at outside
    cases outside

theorem awake_woken (pc : Pc) : pc.woken.asleep = false := by
  cases pc with
  | wait timed slot cur point => cases point <;> rfl
  | _ => rfl

theorem attended_of_reach {state : State Thread Memory Pc}
    (reached : (system config initiallySet Thread).Reach Spaced state) : Attended state := by
  refine reached.invariant nofun fun state action after before attended spaced taken => ?_
  have negative := (distinct_of_reach before).negative
  rcases Program.next_cases taken with ⟨t, op, moved, -, called, rfl⟩ |
    ⟨t, choice, memory, moved, rfl, stepped, rfl⟩ |
    ⟨t, target, kind, moved, others, -, issued, -, rfl, how⟩
  · obtain ⟨idle, inside⟩ := call_moves called
    exact attended.move (by rw [idle]; nofun) inside.awake fun _ _ _ => id
  · have source : state.thread t ≠ .notify := by
      intro here
      rw [here] at stepped
      cases stepped
    have outside := untimed_of_reach (fun _ _ allowed => allowed.1.2) before t
    exact attended.effect negative source spaced.1.1 outside (step_effect stepped)
  · obtain ⟨here, rfl, rfl⟩ := wake_notify issued
    rcases how with ⟨-, rfl⟩ | ⟨impossible, -⟩ | ⟨impossible, -⟩
    · intro u slot sleeping
      dsimp only at sleeping
      have slept := (ne_of_update Pc.asleep rfl sleeping).2
      have awake : ((program config).wakeEvery state.thread u).asleep = false :=
        (program config).asleep_wakeEvery awake_woken state.thread u
      rw [awake] at slept
      cases slept
    · cases impossible
    · cases impossible

/-- Every thread is outside all operations or asleep, so that no wake is pending either. -/
def Quiescent (state : State Thread Memory Pc) : Prop :=
  ∀ t, state.thread t = .idle ∨ (state.thread t).asleep = true

instance (state : State Thread Memory Pc) : Decidable (Quiescent state) :=
  inferInstanceAs (Decidable (∀ t, state.thread t = .idle ∨ (state.thread t).asleep = true))

theorem slot_of_asleep {pc : Pc} (sleeping : pc.asleep = true) : ∃ slot, pc.slot? = some slot := by
  cases pc with
  | wait timed slot cur point => exact ⟨slot, rfl⟩
  | _ => cases sleeping

/-- In a quiescent state every sleeper is still blocked, at a level from `state_` up to zero. -/
theorem blocked_of_quiescent {state : State Thread Memory Pc} (attended : Attended state)
    (distinct : Distinct state) (quiescent : Quiescent state) {t : Thread}
    (sleeping : (state.thread t).asleep = true) :
    ∃ level, (state.memory.state ≤ level ∧ level < 0) ∧ (state.thread t).slot? = some level := by
  obtain ⟨slot, held⟩ := slot_of_asleep sleeping
  refine ⟨slot, ⟨Int.not_lt.mp fun passed => ?_, distinct.negative t slot held⟩, held⟩
  obtain ⟨u, notify⟩ := attended t slot sleeping held passed
  rcases quiescent u with idle | asleep
  · rw [notify] at idle
    cases idle
  · rw [notify] at asleep
    cases asleep

/-- **No signal is swallowed**: in every untimed run whose waiters register at levels that nobody holds,
a quiescent state with a sleeper has completed as many waits as there were tokens. -/
theorem autoResetEvent_no_swallowed_signal {state : State Thread Memory Pc}
    (reached : (system config initiallySet Thread).Reach Spaced state)
    (quiescent : Quiescent state) (sleeper : ∃ t, (state.thread t).asleep = true) :
    state.memory.completed = (if initiallySet then 1 else 0) + state.memory.signals := by
  have accounted := accounted_of_reach (fun _ _ spaced => spaced.1.1) reached
  have enough := (levelled_of_reach (fun _ _ spaced => spaced.1) reached).nonneg
  have distinct := distinct_of_reach reached
  have blocked := fun t => blocked_of_quiescent (t := t) (attended_of_reach reached) distinct quiescent
  have few : waiters state ≤ (Finset.Ico state.memory.state 0).card := by
    refine count_le_card_labels Pc.slot? (fun t registered => ?_) distinct.unique
    rcases quiescent t with idle | sleeping
    · rw [idle] at registered
      cases registered
    · obtain ⟨level, inside, held⟩ := blocked t sleeping
      exact ⟨level, Finset.mem_Ico.mpr inside, held⟩
  have below : state.memory.state < 0 := by
    obtain ⟨t, sleeping⟩ := sleeper
    obtain ⟨level, ⟨low, high⟩, -⟩ := blocked t sleeping
    omega
  have initial : (if initiallySet then 1 else 0) = initiallySet.toNat := by
    cases initiallySet <;> rfl
  rw [Int.card_Ico] at few
  unfold Accounted at accounted
  omega

/-- Two waiters at levels -1 and -2, one signal: the one at -2 leaves and the other sleeps on. -/
theorem autoResetEvent_no_swallowed_signal_two_waiters :
    ∃ state, (system ⟨false⟩ false (Fin 3)).Reach Spaced state ∧ (state.thread 0).asleep = true ∧
      state.memory.completed = (if false then 1 else 0) + 1 := by
  obtain ⟨state, reached, checked⟩ := System.exists_reach_of_run
    (system ⟨false⟩ false (Fin 3)) Spaced
    (List.flatten [[.call 0 .wait], List.replicate 17 (.step 0 .go), [.call 1 .wait],
      List.replicate 17 (.step 1 .go), [.call 2 .signal, .step 2 .go, .step 2 .go, .wake 2 none,
        .step 1 .go, .step 1 .go, .step 0 .go, .step 0 .go]])
    (fun state => decide (Quiescent state ∧ (state.thread 0).asleep = true ∧
      state.memory.signals = 1)) (by decide +kernel)
  obtain ⟨quiescent, sleeping, signals⟩ := of_decide_eq_true checked
  have delivered := autoResetEvent_no_swallowed_signal reached quiescent ⟨0, sleeping⟩
  rw [signals] at delivered
  exact ⟨state, reached, sleeping, delivered⟩

/-- **A swallowed signal.** Thread 0 sleeps at level -1; thread 2 signals, and before its wake thread 1
registers at level -1 too. Both read -1, which is not above their slot, and sleep on. -/
theorem autoResetEvent_signal_swallowed :
    ∃ state, (system ⟨false⟩ false (Fin 3)).Reach Plain state ∧ Quiescent state ∧
      (state.thread 0).asleep = true ∧
      ¬ state.memory.completed = (if false then 1 else 0) + state.memory.signals := by
  obtain ⟨state, reached, checked⟩ := System.exists_reach_of_run
    (system ⟨false⟩ false (Fin 3)) Plain
    (List.flatten [[.call 0 .wait], List.replicate 17 (.step 0 .go),
      [.call 2 .signal, .step 2 .go, .step 2 .go, .call 1 .wait, .step 1 .go, .wake 2 none,
        .step 0 .go, .step 0 .go], List.replicate 16 (.step 1 .go)])
    (fun state => decide (Quiescent state ∧ (state.thread 0).asleep = true ∧
      ¬ state.memory.completed = (if false then 1 else 0) + state.memory.signals))
    (by decide +kernel)
  exact ⟨state, reached, of_decide_eq_true checked⟩

/-! ### At most one token -/

/-- The withdrawals of the run find no stored token, and no subtraction wraps. -/
def Capped : State Thread Memory Pc → Action Thread Op Choice → Prop :=
  OnStep fun state t => ((state.thread t).withdraws = true → state.memory.state ≤ 0) ∧
    ((state.thread t).subtracts = true → state.memory.state ≠ -2 ^ 31)

instance (state : State Thread Memory Pc) : DecidablePred (Capped state) :=
  inferInstanceAs (DecidablePred (OnStep _ state))

/-- The same, and the withdrawals find waiters that still wait. -/
def Below : State Thread Memory Pc → Action Thread Op Choice → Prop :=
  OnStep fun state t => ((state.thread t).withdraws = true → state.memory.state < 0) ∧
    ((state.thread t).subtracts = true → state.memory.state ≠ -2 ^ 31)

instance (state : State Thread Memory Pc) : DecidablePred (Below state) :=
  inferInstanceAs (DecidablePred (OnStep _ state))

/-- A step that is neither a withdrawal nor a subtraction keeps the cap. -/
theorem capped_of_effect {memory after : Memory} {pc moved : Pc} (capped : memory.state ≤ 1)
    (stays : pc.withdraws = false) (keeps : pc.subtracts = false)
    (effect : Effect memory pc after moved) : after.state ≤ 1 := by
  cases effect with
  | moves | sleeps | expires | leave => exact capped
  | signal s here same =>
    have low := s.2
    simp only [Memory.signal]
    omega
  | take caller s here same =>
    simp only [Memory.take]
    omega
  | subtract timed set here | register timed unset here =>
    rw [here] at keeps
    cases keeps
  | withdraw slot here =>
    rw [here] at stays
    cases stays

/-- **When a step keeps the cap.** -/
theorem step_capped_iff {choice : Choice} {memory after : Memory} {pc moved : Pc}
    (ranged : InInt32 memory.state) (capped : memory.state ≤ 1)
    (stepped : step choice memory pc = some (after, moved)) :
    after.state ≤ 1 ↔ (pc.withdraws = true → memory.state ≤ 0) ∧
      (pc.subtracts = true → memory.state ≠ -2 ^ 31) := by
  by_cases stays : pc.withdraws = true
  · obtain ⟨slot, rfl⟩ : ∃ slot, pc = .withdraw slot := by
      cases pc with
      | withdraw slot => exact ⟨slot, rfl⟩
      | _ => cases stays
    cases (ordinary_eq_some stepped).2
    have written : int32 (memory.state + 1) = memory.state + 1 :=
      int32_eq_self (by unfold InInt32 at *; omega)
    simp only [Memory.withdraw, written, Pc.withdraws, Pc.subtracts, forall_const,
      Bool.false_eq_true, IsEmpty.forall_iff, and_true]
    omega
  · by_cases keeps : pc.subtracts = true
    · obtain ⟨timed, rfl⟩ : ∃ timed, pc = .fetchSub timed := by
        cases pc with
        | fetchSub timed => exact ⟨timed, rfl⟩
        | _ => cases keeps
      have written : after.state = int32 (memory.state - 1) := by
        obtain ⟨-, result⟩ := ordinary_eq_some stepped
        split at result <;> cases result <;> rfl
      rw [written]
      simp only [int32, Int.bmod, Pc.withdraws, Pc.subtracts, forall_const, Bool.false_eq_true,
        IsEmpty.forall_iff, true_and]
      unfold InInt32 at ranged
      omega
    · have kept := capped_of_effect capped (Bool.eq_false_of_not_eq_true stays)
        (Bool.eq_false_of_not_eq_true keeps) (step_effect stepped)
      exact ⟨fun _ => ⟨fun yes => absurd yes stays, fun yes => absurd yes keeps⟩, fun _ => kept⟩

theorem capped_of_reach {state : State Thread Memory Pc}
    (reached : (system config initiallySet Thread).Reach Capped state) : state.memory.state ≤ 1 := by
  refine event_invariant (P := fun state => state.memory.state ≤ 1) reached rfl ?_
    (fun _ _ capped _ _ => capped) (fun state t choice memory moved earlier capped met stepped => ?_)
  · have bound := Bool.toNat_le initiallySet
    simp only [Program.system]
    omega
  · exact (step_capped_iff (ranged_of_reach earlier) capped stepped).mpr met

/-- Without signals, the tokens stored and those taken by `try_wait` do not grow beyond the stored ones
of the start. -/
def Spent (origin : Memory) (state : State Thread Memory Pc) : Prop :=
  InInt32 state.memory.state ∧ origin.signals ≤ state.memory.signals ∧
    (state.memory.signals = origin.signals →
      state.memory.taken + max state.memory.state 0 ≤ origin.taken + max origin.state 0)

theorem Spent.effect {origin : Memory} {state : State Thread Memory Pc} (spent : Spent origin state)
    {t : Thread} {memory : Memory} {moved : Pc}
    (below : (state.thread t).withdraws = true → state.memory.state < 0)
    (unwrapped : (state.thread t).subtracts = true → state.memory.state ≠ -2 ^ 31)
    (effect : Effect state.memory (state.thread t) memory moved) :
    Spent origin ⟨memory, Function.update state.thread t moved⟩ := by
  obtain ⟨ranged, later, bound⟩ := spent
  refine ⟨inInt32_of_effect ranged effect, ?_⟩
  unfold InInt32 at ranged
  cases effect with
  | moves | sleeps | expires | leave => exact ⟨later, bound⟩
  | signal s =>
    refine ⟨Nat.le_succ_of_le later, fun silent => ?_⟩
    simp only [Memory.signal] at silent
    omega
  | take caller s here same =>
    refine ⟨later, fun silent => ?_⟩
    have set := s.2
    have before := bound silent
    simp only [Memory.take]
    omega
  | subtract timed set here | register timed unset here =>
    refine ⟨later, fun silent => ?_⟩
    have before := bound silent
    rw [here] at unwrapped
    have written : int32 (state.memory.state - 1) = state.memory.state - 1 :=
      int32_eq_self (by have := unwrapped rfl; unfold InInt32; omega)
    simp only [Memory.complete, Memory.fetchSub, written]
    omega
  | withdraw slot here =>
    refine ⟨later, fun silent => ?_⟩
    have before := bound silent
    have low := below (by rw [here]; rfl)
    have written : int32 (state.memory.state + 1) = state.memory.state + 1 :=
      int32_eq_self (by unfold InInt32; omega)
    simp only [Memory.withdraw, written]
    omega

theorem spent_of_reach {origin state : State Thread Memory Pc}
    (ranged : InInt32 origin.memory.state)
    (reached : ((system config initiallySet Thread).resume origin).Reach Below state) :
    Spent origin.memory state := by
  refine event_invariant reached rfl ?_ (fun _ _ spent _ _ => spent)
    (fun state t choice memory moved _ spent met stepped => ?_)
  · exact ⟨ranged, le_rfl, fun _ => le_rfl⟩
  · exact spent.effect met.1 met.2 (step_effect stepped)

/-- **The event stores at most one token**, in every run in which no withdrawal finds a stored token and
no subtraction wraps; a step leaves the cap exactly when it is one of these. Going on from such a state
without a signal, and with withdrawals only while somebody still waits, `try_wait` succeeds at most
once. -/
theorem autoResetEvent_one_token {state : State Thread Memory Pc}
    (reached : (system config initiallySet Thread).Reach Capped state) :
    state.memory.state ≤ 1 ∧
    (∀ action after, (system config initiallySet Thread).next state action = some after →
      (after.memory.state ≤ 1 ↔ Capped state action)) ∧
    ∀ after, ((system config initiallySet Thread).resume state).Reach Below after →
      after.memory.signals = state.memory.signals →
      after.memory.taken ≤ state.memory.taken + 1 := by
  have capped := capped_of_reach reached
  have ranged := ranged_of_reach reached
  refine ⟨capped, fun action after taken => ?_, fun after later silent => ?_⟩
  · rcases Program.next_cases taken with ⟨t, op, moved, rfl, -, rfl⟩ |
      ⟨t, choice, memory, moved, rfl, stepped, rfl⟩ |
      ⟨t, target, kind, moved, others, rfl, -, -, rfl, -⟩
    · exact iff_of_true capped trivial
    · exact step_capped_iff ranged capped stepped
    · exact iff_of_true capped trivial
  · have bound := (spent_of_reach ranged later).2.2 silent
    omega

/-- A waiter times out and withdraws, and then the event is signalled: of two calls of `try_wait` by either
thread, one succeeds. -/
theorem autoResetEvent_one_token_timeout :
    ∃ state after, (system ⟨false⟩ false (Fin 2)).Reach Capped state ∧ state.memory.signals = 1 ∧
      state.memory.state ≤ 1 ∧ ((system ⟨false⟩ false (Fin 2)).resume state).Reach Below after ∧
      after.memory.state = 0 ∧ after.memory.taken ≤ state.memory.taken + 1 := by
  obtain ⟨state, reached, checked⟩ := System.exists_reach_of_run
    (system ⟨false⟩ false (Fin 2)) Capped
    [.call 0 .tryWaitUntil, .step 0 .go, .step 0 .go, .step 0 .go, .step 0 .go, .step 0 .go,
      .step 0 .expired, .step 0 .go, .step 0 .go, .step 0 .go, .call 1 .signal, .step 1 .go, .step 1 .go]
    (fun state => decide (state.memory.signals = 1) &&
      ((((system ⟨false⟩ false (Fin 2)).resume state).restrict Below).run state
        [.call 0 .tryWait, .call 1 .tryWait, .step 0 .go, .step 1 .go, .step 0 .go, .step 1 .go]).any
        fun after : State (Fin 2) Memory Pc =>
          decide (after.memory.signals = state.memory.signals ∧ after.memory.state = 0))
    (by decide +kernel)
  obtain ⟨signalled, computed⟩ := (Bool.and_eq_true _ _).mp checked
  obtain ⟨after, later, unset⟩ := System.exists_reach_of_run
    ((system ⟨false⟩ false (Fin 2)).resume state) Below _ _ computed
  obtain ⟨silent, unset⟩ := of_decide_eq_true unset
  obtain ⟨capped, -, once⟩ := autoResetEvent_one_token reached
  exact ⟨state, after, reached, of_decide_eq_true signalled, capped, later, unset,
    once after later silent⟩

/-- **A second token.** Thread 0 times out and reads -1, at its slot; thread 1 signals twice, which
brings `state_` to 1, and the `fetch_add(1)` of thread 0 makes it 2: two `try_wait` succeed. -/
theorem autoResetEvent_second_token :
    ∃ state, (system ⟨false⟩ false (Fin 2)).Reach NoOverflow state ∧ ¬ state.memory.state ≤ 1 ∧
      ∃ after, ((system ⟨false⟩ false (Fin 2)).resume state).Reach NoOverflow after ∧
        after.memory.signals = state.memory.signals ∧
        ¬ after.memory.taken ≤ state.memory.taken + 1 := by
  obtain ⟨state, reached, checked⟩ := System.exists_reach_of_run
    (system ⟨false⟩ false (Fin 2)) NoOverflow
    [.call 0 .tryWaitUntil, .step 0 .go, .step 0 .go, .step 0 .go, .step 0 .go, .step 0 .go,
      .step 0 .expired, .step 0 .go, .step 0 .go, .call 1 .signal, .step 1 .go, .step 1 .go,
      .wake 1 none, .call 1 .signal, .step 1 .go, .step 1 .go, .step 0 .go]
    (fun state => decide (¬ state.memory.state ≤ 1) &&
      ((((system ⟨false⟩ false (Fin 2)).resume state).restrict NoOverflow).run state
        [.call 0 .tryWait, .step 0 .go, .step 0 .go, .call 0 .tryWait, .step 0 .go, .step 0 .go]).any
        fun after => decide (after.memory.signals = state.memory.signals ∧
          ¬ after.memory.taken ≤ state.memory.taken + 1))
    (by decide +kernel)
  obtain ⟨exceeded, computed⟩ := (Bool.and_eq_true _ _).mp checked
  obtain ⟨after, later, twice⟩ := System.exists_reach_of_run
    ((system ⟨false⟩ false (Fin 2)).resume state) NoOverflow _ _ computed
  exact ⟨state, reached, of_decide_eq_true exceeded, after, later, of_decide_eq_true twice⟩

end NovaSync.ParkingAutoResetEvent
