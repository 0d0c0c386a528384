/-
**The tokens of `parking_auto_reset_event`.**

* `event_invariant` — the invariant rule of the event: calls and wakes change no standing, so a property
  of standings and memory is to be kept by the steps alone.
* `autoResetEvent_completions_paid` — without timed waits, completed waits never outnumber the signals:
  every level between `state_` and zero is the slot of some waiter (`Levelled`).
* `autoResetEvent_withdrawal_invisible` — a withdrawal releases nobody exactly when no other blocked
  waiter has the level that its `fetch_add(1)` finds (`Invisible`); in the runs whose withdrawals are so,
  nothing completes before the first signal.
* `autoResetEvent_withdrawal_releases` — two waiters and one timeout: the other waiter is released.
-/

import NovaSync.Event.ParkingAutoResetEvent
import Mathlib.Order.Interval.Finset.Basic
import Mathlib.Data.Int.Interval

set_option linter.unusedSectionVars false

namespace NovaSync.ParkingAutoResetEvent

open Concurrency Detail Futex

variable {config : Config} {initiallySet : Bool} {Thread : Type*} [DecidableEq Thread]
  [Fintype Thread]

/-! ### Invariants of the event -/

/-- The value that the next step of a thread aims at. -/
def nextState (memory : Memory) : Pc → ℤ
  | .fetchSub _ => memory.state - 1
  | .withdraw _ => memory.state + 1
  | _ => memory.state

/-- The action does not overflow `state_`. -/
def NoOverflow : State Thread Memory Pc → Action Thread Op Choice → Prop :=
  OnStep fun state t => InInt32 (nextState state.memory (state.thread t))

instance (state : State Thread Memory Pc) : DecidablePred (NoOverflow state) :=
  inferInstanceAs (DecidablePred (OnStep _ state))

/-- A call moves an idle thread on. -/
theorem call_moves {op : Op} {pc moved : Pc} (called : call config op pc = some moved) :
    pc = .idle ∧ Moves pc moved := by
  cases pc with
  | idle =>
    refine ⟨rfl, ?_⟩
    cases op with
    | wait =>
      cases called
      split <;> exact ⟨rfl, rfl, nofun, rfl⟩
    | _ =>
      cases called
      exact ⟨rfl, rfl, nofun, rfl⟩
  | _ => cases op <;> cases called

theorem wake_notify {pc moved : Pc} {kind : WakeCount}
    (issued : (program config).wake pc = some (kind, moved)) :
    pc = .notify ∧ kind = .all ∧ moved = .idle := by
  cases pc with
  | notify =>
    cases issued
    exact ⟨rfl, rfl, rfl⟩
  | _ => cases issued

theorem registered_woken (pc : Pc) : pc.woken.registered = pc.registered := by
  cases pc <;> rfl

theorem slot_woken (pc : Pc) : pc.woken.slot? = pc.slot? := by
  cases pc <;> rfl

/-- **The invariant rule of the event**, from any start. A property of the memory and of the threads'
standing is to be kept by the steps of the threads; calls and wakes change no standing. -/
theorem event_invariant {machine : System (State Thread Memory Pc) (Action Thread Op Choice)}
    {guard : State Thread Memory Pc → Action Thread Op Choice → Prop}
    {P : State Thread Memory Pc → Prop} {state : State Thread Memory Pc}
    (reached : machine.Reach guard state) (follows : machine.next = (program config).next)
    (start : P machine.start)
    (frame : ∀ state (thread : Thread → Pc), P state →
      (∀ u, (thread u).registered = (state.thread u).registered) →
      (∀ u, (thread u).slot? = (state.thread u).slot?) → P ⟨state.memory, thread⟩)
    (step : ∀ state t choice memory moved, machine.Reach guard state → P state →
      guard state (.step t choice) → step choice state.memory (state.thread t) = some (memory, moved) →
      P ⟨memory, Function.update state.thread t moved⟩) : P state := by
  refine reached.invariant start fun state action after earlier before met taken => ?_
  rw [follows] at taken
  rcases Program.next_cases taken with ⟨t, op, moved, -, called, rfl⟩ |
    ⟨t, choice, memory, moved, rfl, stepped, rfl⟩ |
    ⟨t, target, kind, moved, others, -, issued, woken, rfl, -⟩
  · have inside := (call_moves called).2
    exact frame state _ before (apply_update inside.registered) (apply_update inside.slot)
  · exact step state t choice memory moved earlier before met stepped
  · obtain ⟨here, -, rfl⟩ := wake_notify issued
    exact frame state _ before
      (woken.apply_update_eq (fun pc _ => registered_woken pc) (by rw [here]; rfl))
      (woken.apply_update_eq (fun pc _ => slot_woken pc) (by rw [here]; rfl))

/-- The threads that have subtracted a token that was not there. -/
def waiters (state : State Thread Memory Pc) : ℕ := count Pc.registered state.thread

/-- **The tokens add up**: `state_`, the waiters and the completed waits against the initial token and
the signals. -/
def Accounted (initiallySet : Bool) (state : State Thread Memory Pc) : Prop :=
  state.memory.state + waiters state + state.memory.completed =
    initiallySet.toNat + state.memory.signals

theorem Accounted.effect {state : State Thread Memory Pc} (accounted : Accounted initiallySet state)
    {t : Thread} {memory : Memory} {moved : Pc}
    (fits : InInt32 (nextState state.memory (state.thread t)))
    (effect : Effect state.memory (state.thread t) memory moved) :
    Accounted initiallySet ⟨memory, Function.update state.thread t moved⟩ := by
  have waiting := count_update Pc.registered state.thread t moved
  unfold Accounted waiters at *
  cases effect with
  | moves inside =>
    rw [inside.registered] at waiting
    simp only
    omega
  | sleeps slot _ before _ after =>
    rw [before, after] at waiting
    simp only
    omega
  | expires slot here =>
    rw [here] at waiting
    simp only [Pc.registered] at waiting ⊢
    omega
  | signal s here same =>
    have standing : (if s.1 < 0 then Pc.notify else Pc.idle).registered = false := by
      split <;> rfl
    rw [here, standing] at waiting
    simp only [Pc.registered, Memory.signal] at waiting ⊢
    omega
  | take caller s here =>
    rw [here] at waiting
    simp only [Pc.registered, Memory.take] at waiting ⊢
    omega
  | subtract timed set here =>
    rw [here] at waiting fits
    simp only [nextState] at fits
    simp only [Pc.registered, Memory.complete, Memory.fetchSub, int32_eq_self fits] at waiting ⊢
    omega
  | register timed unset here =>
    rw [here] at waiting fits
    simp only [nextState] at fits
    simp only [Pc.registered, Memory.fetchSub, int32_eq_self fits, Bool.toNat_false,
      Bool.toNat_true] at waiting ⊢
    omega
  | leave slot registered =>
    rw [registered] at waiting
    simp only [Pc.registered, Memory.complete, Bool.toNat_false, Bool.toNat_true] at waiting ⊢
    omega
  | withdraw slot here =>
    rw [here] at waiting fits
    simp only [nextState] at fits
    simp only [Pc.registered, Memory.withdraw, int32_eq_self fits, Bool.toNat_false,
      Bool.toNat_true] at waiting ⊢
    omega

theorem accounted_of_reach {guard : State Thread Memory Pc → Action Thread Op Choice → Prop}
    (fits : ∀ state action, guard state action → NoOverflow state action)
    {state : State Thread Memory Pc}
    (reached : (system config initiallySet Thread).Reach guard state) :
    Accounted initiallySet state := by
  refine event_invariant reached rfl ?_ (fun state thread accounted registered _ => ?_)
    (fun state t choice memory moved _ accounted met stepped => ?_)
  · have waiting : waiters (system config initiallySet Thread).start = 0 := count_const rfl
    unfold Accounted
    rw [waiting]
    simp [Program.system]
  · have waiting : waiters ⟨state.memory, thread⟩ = waiters state := count_congr registered
    unfold Accounted at *
    rw [waiting]
    exact accounted
  · exact accounted.effect (fits _ _ met) (step_effect stepped)

/-! ### Completed waits are paid for -/

/-- The action does not call `try_wait_until`. -/
def Untimed : Action Thread Op Choice → Prop
  | .call _ op => op ≠ .tryWaitUntil
  | .step _ _ | .wake _ _ => True

instance : @DecidablePred (Action Thread Op Choice) Untimed
  | .call _ op => inferInstanceAs (Decidable (op ≠ .tryWaitUntil))
  | .step _ _ | .wake _ _ => inferInstanceAs (Decidable True)

/-- An untimed action that does not overflow. -/
def Plain (state : State Thread Memory Pc) (action : Action Thread Op Choice) : Prop :=
  NoOverflow state action ∧ Untimed action

instance (state : State Thread Memory Pc) : DecidablePred (Plain state) :=
  fun _ => inferInstanceAs (Decidable (_ ∧ _))

theorem timed_woken (pc : Pc) : pc.woken.timed = pc.timed := by
  cases pc <;> rfl

theorem call_timed {op : Op} {pc moved : Pc} (called : call config op pc = some moved)
    (other : op ≠ .tryWaitUntil) : moved.timed = false := by
  cases pc with
  | idle =>
    cases op with
    | wait =>
      cases called
      split <;> rfl
    | tryWaitUntil => exact absurd rfl other
    | _ =>
      cases called
      rfl
  | _ => cases op <;> cases called

/-- In an untimed run no thread is ever inside `try_wait_until`. -/
theorem untimed_of_reach {guard : State Thread Memory Pc → Action Thread Op Choice → Prop}
    (untimed : ∀ state action, guard state action → Untimed action) {state : State Thread Memory Pc}
    (reached : (system config initiallySet Thread).Reach guard state) :
    ∀ t, (state.thread t).timed = false := by
  refine reached.invariant (P := fun state => ∀ t, (state.thread t).timed = false) (fun _ => rfl)
    fun state action after _ outside met taken u => ?_
  rcases Program.next_cases taken with ⟨t, op, moved, rfl, called, rfl⟩ |
    ⟨t, choice, memory, moved, -, stepped, rfl⟩ |
    ⟨t, target, kind, moved, others, -, issued, woken, rfl, -⟩
  · have still := call_timed called (untimed _ _ met)
    exact (apply_update (still.trans (outside t).symm) u).trans (outside u)
  · have still := step_timed stepped (outside t)
    exact (apply_update (still.trans (outside t).symm) u).trans (outside u)
  · obtain ⟨here, -, rfl⟩ := wake_notify issued
    exact (woken.apply_update_eq (fun pc _ => timed_woken pc) (by rw [here]; rfl) u).trans (outside u)

/-- **Every level between `state_` and zero is the slot of a blocked waiter.** -/
def Levelled (state : State Thread Memory Pc) : Prop :=
  ∀ level, state.memory.state ≤ level → level < 0 → ∃ t, (state.thread t).slot? = some level

/-- The levels stay held when one thread moves without giving up a slot that is one of them. -/
theorem Levelled.move {state : State Thread Memory Pc} (levelled : Levelled state) {t : Thread}
    {memory : Memory} {moved : Pc} (rises : state.memory.state ≤ memory.state)
    (keeps : ∀ slot, (state.thread t).slot? = some slot → memory.state ≤ slot →
      moved.slot? = some slot) :
    Levelled ⟨memory, Function.update state.thread t moved⟩ := by
  intro level above negative
  dsimp only at above ⊢
  obtain ⟨u, held⟩ := levelled level (le_trans rises above) negative
  by_cases here : u = t
  · subst here
    exact ⟨u, by rw [Function.update_self]; exact keeps level held above⟩
  · exact ⟨u, by rw [Function.update_of_ne here]; exact held⟩

theorem Levelled.effect {state : State Thread Memory Pc} (levelled : Levelled state) {t : Thread}
    {memory : Memory} {moved : Pc} (fits : InInt32 (nextState state.memory (state.thread t)))
    (outside : (state.thread t).timed = false)
    (effect : Effect state.memory (state.thread t) memory moved) :
    Levelled ⟨memory, Function.update state.thread t moved⟩ := by
  cases effect with
  | moves inside => exact levelled.move le_rfl fun slot held _ => inside.slot.trans held
  | sleeps slot _ _ before _ after =>
    exact levelled.move le_rfl fun own held _ => after.trans (before.symm.trans held)
  | expires slot here | withdraw slot here =>
    rw [here] at outside
    cases outside
  | signal s here =>
    refine levelled.move (by simp [Memory.signal]) fun slot held _ => ?_
    rw [here] at held
    cases held
  | take caller s here same =>
    intro level above negative
    have set := s.2
    simp only [Memory.take] at above
    omega
  | subtract timed set here =>
    intro level above negative
    rw [here] at fits
    simp only [nextState] at fits
    simp only [Memory.complete, Memory.fetchSub, int32_eq_self fits] at above
    omega
  | register timed unset here =>
    intro level above negative
    have free : (state.thread t).slot? = none := by
      rw [here]
      rfl
    rw [here] at fits
    simp only [nextState] at fits
    simp only [Memory.fetchSub, int32_eq_self fits] at above
    by_cases lowest : level = state.memory.state - 1
    · refine ⟨t, ?_⟩
      dsimp only
      rw [Function.update_self, int32_eq_self fits, lowest]
      rfl
    · obtain ⟨u, held⟩ := levelled level (by omega) negative
      have other : u ≠ t := by
        rintro rfl
        rw [free] at held
        cases held
      refine ⟨u, ?_⟩
      dsimp only
      rw [Function.update_of_ne other]
      exact held
  | leave slot _ held above =>
    refine levelled.move le_rfl fun own same below => ?_
    rw [held] at same
    cases same
    simp only [Memory.complete] at below
    omega

theorem levelled_of_reach {guard : State Thread Memory Pc → Action Thread Op Choice → Prop}
    (plain : ∀ state action, guard state action → Plain state action)
    {state : State Thread Memory Pc}
    (reached : (system config initiallySet Thread).Reach guard state) : Levelled state := by
  refine event_invariant reached rfl ?_ (fun state thread levelled _ slot => ?_)
    (fun state t choice memory moved earlier levelled met stepped => ?_)
  · intro level above negative
    simp only [Program.system] at above
    omega
  · intro level above negative
    obtain ⟨t, held⟩ := levelled level above negative
    exact ⟨t, (slot t).trans held⟩
  · have outside := untimed_of_reach (fun _ _ allowed => (plain _ _ allowed).2) earlier t
    exact levelled.effect (plain _ _ met).1 outside (step_effect stepped)

theorem registered_of_slot {pc : Pc} {slot : ℤ} (held : pc.slot? = some slot) :
    pc.registered = true := by
  cases pc <;> first | rfl | cases held

/-- A negative `state_` has at least as many waiters as levels below zero. -/
theorem Levelled.nonneg {state : State Thread Memory Pc} (levelled : Levelled state) :
    0 ≤ state.memory.state + waiters state := by
  have bound : (Finset.Ico state.memory.state 0).card ≤ waiters state := by
    refine card_labels_le_count Pc.slot? fun level inside => ?_
    obtain ⟨low, high⟩ := Finset.mem_Ico.mp inside
    obtain ⟨t, held⟩ := levelled level low high
    exact ⟨t, registered_of_slot held, held⟩
  rw [Int.card_Ico] at bound
  omega

/-- The step releases a blocked waiter: `state_` passes its slot. -/
def Frees (state after : State Thread Memory Pc) (u : Thread) : Prop :=
  ∃ slot, (state.thread u).slot? = some slot ∧ state.memory.state ≤ slot ∧
    slot < after.memory.state

/-- The `fetch_add(1)` of thread `t` finds no other blocked waiter at the level it adds to (or it
overflows). -/
def Invisible (state : State Thread Memory Pc) (t : Thread) : Prop :=
  ∀ u, u ≠ t → (state.thread u).slot? = some state.memory.state →
    ¬ InInt32 (state.memory.state + 1)

theorem inInt32_of_effect {memory after : Memory} {pc moved : Pc} (ranged : InInt32 memory.state)
    (effect : Effect memory pc after moved) : InInt32 after.state := by
  unfold InInt32 at ranged
  cases effect with
  | moves | sleeps | expires | leave => exact ranged
  | signal s here same =>
    have low := s.2
    simp only [Memory.signal, InInt32]
    omega
  | take caller s here same =>
    have set := s.2
    simp only [Memory.take, InInt32]
    omega
  | subtract | register | withdraw => exact inInt32_int32 _

/-- `state_` is an `int32_t`. -/
theorem ranged_of_reach {guard : State Thread Memory Pc → Action Thread Op Choice → Prop}
    {state : State Thread Memory Pc}
    (reached : (system config initiallySet Thread).Reach guard state) :
    InInt32 state.memory.state := by
  refine event_invariant (P := fun state => InInt32 state.memory.state) reached rfl ?_
    (fun _ _ ranged _ _ => ranged)
    (fun _ _ _ _ _ _ ranged _ stepped => inInt32_of_effect ranged (step_effect stepped))
  have bound := Bool.toNat_le initiallySet
  simp only [Program.system, InInt32]
  omega

/-- **When a withdrawal is invisible**: exactly when no other blocked waiter has its level. -/
theorem withdraw_invisible_iff {state after : State Thread Memory Pc} {t : Thread} {slot : ℤ}
    (ranged : InInt32 state.memory.state) (here : state.thread t = .withdraw slot)
    (taken : (system config initiallySet Thread).next state (.step t .go) = some after) :
    (∀ u, u ≠ t → ¬ Frees state after u) ↔ Invisible state t := by
  have written : after.memory.state = int32 (state.memory.state + 1) := by
    obtain ⟨⟨memory, moved⟩, stepped, rfl⟩ := Option.map_eq_some_iff.mp taken
    rw [here] at stepped
    cases stepped
    rfl
  constructor
  · intro unseen u other held fits
    refine unseen u other ⟨state.memory.state, held, le_rfl, ?_⟩
    rw [written, int32_eq_self fits]
    omega
  · rintro invisible u other ⟨own, held, blocked, passed⟩
    rw [written] at passed
    by_cases fits : InInt32 (state.memory.state + 1)
    · rw [int32_eq_self fits] at passed
      have level : own = state.memory.state := by omega
      exact invisible u other (level ▸ held) fits
    · simp only [int32, Int.bmod] at passed
      unfold InInt32 at ranged fits
      omega

/-- The action does not overflow, and a withdrawal is invisible. -/
def Unseen (state : State Thread Memory Pc) (action : Action Thread Op Choice) : Prop :=
  NoOverflow state action ∧
    OnStep (fun state t => (state.thread t).withdraws = true → Invisible state t) state action

instance (state : State Thread Memory Pc) (t : Thread) : Decidable (Invisible state t) :=
  inferInstanceAs (Decidable (∀ u, u ≠ t → (state.thread u).slot? = some state.memory.state →
    ¬ InInt32 (state.memory.state + 1)))

instance (state : State Thread Memory Pc) : DecidablePred (Unseen state) :=
  fun _ => inferInstanceAs (Decidable (_ ∧ _))

/-- **No signal, no success**: no wait has completed, and every blocked waiter is at or above
`state_`. -/
def Unsignalled (state : State Thread Memory Pc) : Prop :=
  state.memory.signals = 0 → state.memory.completed = 0 ∧
    ∀ t slot, (state.thread t).slot? = some slot → state.memory.state ≤ slot

/-- `state_` and the slots after one thread has moved to a place with the slot `moved`. -/
theorem blocked_update {thread : Thread → Pc} {level : ℤ} {t : Thread} {moved : Pc}
    (here : ∀ slot, moved.slot? = some slot → level ≤ slot)
    (others : ∀ u, u ≠ t → ∀ slot, (thread u).slot? = some slot → level ≤ slot) :
    ∀ u slot, (Function.update thread t moved u).slot? = some slot → level ≤ slot :=
  (Function.forall_update_iff thread fun _ pc => ∀ slot, pc.slot? = some slot → level ≤ slot).mpr
    ⟨here, others⟩

theorem Unsignalled.effect {state : State Thread Memory Pc} (unsignalled : Unsignalled state)
    (accounted : Accounted false state) {t : Thread} {choice : Choice} {memory : Memory} {moved : Pc}
    (met : Unseen state (.step t choice))
    (effect : Effect state.memory (state.thread t) memory moved) :
    Unsignalled ⟨memory, Function.update state.thread t moved⟩ := by
  obtain ⟨fits, invisible⟩ := met
  simp only [NoOverflow, OnStep] at fits invisible
  unfold Accounted at accounted
  rw [Bool.toNat_false] at accounted
  intro silent
  cases effect with
  | moves inside =>
    obtain ⟨completed, blocked⟩ := unsignalled silent
    refine ⟨completed, fun u slot held => blocked u slot ?_⟩
    rw [← held]
    exact (apply_update inside.slot u).symm
  | sleeps own _ _ before _ after =>
    obtain ⟨completed, blocked⟩ := unsignalled silent
    refine ⟨completed, fun u slot held => blocked u slot ?_⟩
    rw [← held]
    exact (apply_update (after.trans before.symm) u).symm
  | expires own here =>
    obtain ⟨completed, blocked⟩ := unsignalled silent
    exact ⟨completed, blocked_update nofun fun u _ => blocked u⟩
  | signal s => cases silent
  | take caller s here same =>
    obtain ⟨completed, -⟩ := unsignalled silent
    have set := s.2
    have unset : state.memory.signals = 0 := silent
    omega
  | subtract timed set here =>
    obtain ⟨completed, -⟩ := unsignalled silent
    have unset : state.memory.signals = 0 := silent
    omega
  | register timed unset here =>
    obtain ⟨completed, blocked⟩ := unsignalled silent
    rw [here] at fits
    simp only [nextState] at fits
    refine ⟨completed, ?_⟩
    simp only [Memory.fetchSub, int32_eq_self fits]
    refine blocked_update ?_ fun u _ slot held => ?_
    · intro slot held
      cases held
      rfl
    · have := blocked u slot held
      omega
  | leave slot _ held above =>
    have := (unsignalled silent).2 t slot held
    omega
  | withdraw slot here =>
    obtain ⟨completed, blocked⟩ := unsignalled silent
    have unseen := invisible (by rw [here]; rfl)
    rw [here] at fits
    simp only [nextState] at fits
    refine ⟨completed, ?_⟩
    simp only [Memory.withdraw, int32_eq_self fits]
    refine blocked_update nofun fun u other own held => ?_
    have low := blocked u own held
    have differs : own ≠ state.memory.state := by
      rintro rfl
      exact unseen u other held fits
    omega

theorem unsignalled_of_reach {state : State Thread Memory Pc}
    (reached : (system config false Thread).Reach Unseen state) : Unsignalled state := by
  refine event_invariant reached rfl ?_ (fun state thread unsignalled _ slot => ?_)
    (fun state t choice memory moved earlier unsignalled met stepped => ?_)
  · exact fun _ => ⟨rfl, nofun⟩
  · intro silent
    obtain ⟨completed, blocked⟩ := unsignalled silent
    exact ⟨completed, fun t own held => blocked t own ((slot t).symm.trans held)⟩
  · have accounted := accounted_of_reach (fun _ _ unseen => unseen.1) earlier
    exact unsignalled.effect accounted met (step_effect stepped)

/-- **A timed-out waiter is invisible to the others** exactly when its `fetch_add(1)` finds no other
blocked waiter at the level it adds to; and in a run of such withdrawals, from an unset event, no wait
completes before the first signal. -/
theorem autoResetEvent_withdrawal_invisible :
    (∀ state, (system config initiallySet Thread).Reachable state → ∀ t slot after,
      state.thread t = .withdraw slot →
      (system config initiallySet Thread).next state (.step t .go) = some after →
      ((∀ u, u ≠ t → ¬ Frees state after u) ↔ Invisible state t)) ∧
    ∀ state, (system config false Thread).Reach Unseen state → state.memory.signals = 0 →
      state.memory.completed = 0 :=
  ⟨fun _ reached _ _ _ here taken => withdraw_invisible_iff (ranged_of_reach reached) here taken,
    fun _ reached silent => (unsignalled_of_reach reached silent).1⟩

/-- Thread 1 is registered at level -1 when thread 0 times out at level -2: the withdrawal brings `state_`
back to -1, and thread 1 stays blocked. -/
theorem autoResetEvent_withdrawal_invisible_single :
    ∃ state after, (system ⟨false⟩ false (Fin 2)).Reach Unseen state ∧
      state.thread 0 = .withdraw (-2) ∧ (state.thread 1).slot? = some (-1) ∧
      (system ⟨false⟩ false (Fin 2)).next state (.step 0 .go) = some after ∧ ¬ Frees state after 1 ∧
      after.memory.completed = 0 := by
  obtain ⟨state, reached, checked⟩ := System.exists_reach_of_run
    (system ⟨false⟩ false (Fin 2)) Unseen
    [.call 1 .wait, .step 1 .go, .step 1 .go, .step 1 .go, .call 0 .tryWaitUntil, .step 0 .go,
      .step 0 .go, .step 0 .go, .step 0 .go, .step 0 .go, .step 0 .expired, .step 0 .go, .step 0 .go]
    (fun state => decide (state.thread 0 = .withdraw (-2) ∧ (state.thread 1).slot? = some (-1) ∧
      Invisible state 0 ∧ Unseen state (.step 0 .go) ∧ state.memory.signals = 0)) (by decide +kernel)
  obtain ⟨here, registered, invisible, met, silent⟩ := of_decide_eq_true checked
  have stepped : step .go state.memory (state.thread 0) = some (state.memory.withdraw, .idle) := by
    rw [here]
    rfl
  have taken : (system ⟨false⟩ false (Fin 2)).next state (.step 0 .go) = some _ :=
    congrArg (Option.map _) stepped
  obtain ⟨unseen, silence⟩ := @autoResetEvent_withdrawal_invisible ⟨false⟩ false (Fin 2) _ _
  exact ⟨state, _, reached, here, registered, taken,
    (unseen state reached.reachable 0 (-2) _ here taken).mpr invisible 1 (by decide),
    silence _ (reached.step met taken) silent⟩

/-- **A withdrawal that releases another waiter.** Thread 0 registers at level -1 and thread 1 at level
-2; thread 0 times out and its `fetch_add(1)` brings `state_` back to -1, above the slot of thread 1,
which completes its wait although nobody has signalled. -/
theorem autoResetEvent_withdrawal_releases :
    (∃ state after, (system ⟨false⟩ false (Fin 2)).Reach NoOverflow state ∧
      state.thread 0 = .withdraw (-1) ∧
      (system ⟨false⟩ false (Fin 2)).next state (.step 0 .go) = some after ∧ Frees state after 1) ∧
    ∃ state, (system ⟨false⟩ false (Fin 2)).Reach NoOverflow state ∧ state.memory.signals = 0 ∧
      state.memory.completed = 1 := by
  constructor
  · obtain ⟨state, reached, checked⟩ := System.exists_reach_of_run
      (system ⟨false⟩ false (Fin 2)) NoOverflow
      [.call 0 .tryWaitUntil, .step 0 .go, .step 0 .go, .call 1 .wait, .step 1 .go, .step 0 .go,
        .step 0 .go, .step 0 .go, .step 0 .expired, .step 0 .go, .step 0 .go]
      (fun state => decide (state.thread 0 = .withdraw (-1) ∧ (state.thread 1).slot? = some (-2) ∧
        state.memory.state = -2)) (by decide +kernel)
    obtain ⟨here, held, level⟩ := of_decide_eq_true checked
    have stepped : step .go state.memory (state.thread 0) = some (state.memory.withdraw, .idle) := by
      rw [here]
      rfl
    refine ⟨state, _, reached, here, congrArg (Option.map _) stepped, -2, held, ?_, ?_⟩
    · rw [level]
    · simp only [Memory.withdraw, level]
      decide
  · obtain ⟨state, reached, checked⟩ := System.exists_reach_of_run
      (system ⟨false⟩ false (Fin 2)) NoOverflow
      [.call 0 .tryWaitUntil, .step 0 .go, .step 0 .go, .call 1 .wait, .step 1 .go, .step 0 .go,
        .step 0 .go, .step 0 .go, .step 0 .expired, .step 0 .go, .step 0 .go, .step 0 .go,
        .step 1 .go]
      (fun state => decide (state.memory.signals = 0 ∧ state.memory.completed = 1))
      (by decide +kernel)
    exact ⟨state, reached, of_decide_eq_true checked⟩

end NovaSync.ParkingAutoResetEvent
