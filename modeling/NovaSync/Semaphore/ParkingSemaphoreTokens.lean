/-
**The tokens of `parking_semaphore` and `timed_semaphore`.**

* `reach_ledger` — a run without `int32_t` overflow is a run of the abstract semaphore: every step of
  a thread is the move that `moveOf` names.
* `timedSemaphore_acquired_le` — no token out of nothing, in the runs in which nobody takes a token that
  a timed-out waiter has put back; `timedSemaphore_token_taken_twice` is one in which somebody does.
* `parkingSemaphore_accounts` — without timed waits nobody puts a token back: the counter accounts for
  every operation, and the bound holds in every run without overflow.
* `parkingSemaphore_no_stranded_waiter` — a quiescent state with a sleeper has handed out every token, in
  the runs whose releases, registrations and retaken tokens serve the waiters. The wakes are `Attended`;
  `parkingSemaphore_token_stranded` is a `release(1)` that two waiters sleep through.
-/

import NovaSync.Semaphore.ParkingSemaphore

set_option linter.unusedSectionVars false

namespace NovaSync.ParkingSemaphore

open Concurrency Detail Futex Semaphore

variable {config : Config} {initial : ℕ} {Thread : Type*} [DecidableEq Thread] [Fintype Thread]

/-! ### The abstract semaphore -/

/-- The numbers of a state. -/
def ledger (state : State Thread Memory Pc) : Ledger where
  count := state.memory.count
  released := state.memory.released
  acquired := state.memory.acquired
  waiting := count Pc.registered state.thread
  retaking := count Pc.retaking state.thread

/-- The move that an action makes. -/
def moveOf (state : State Thread Memory Pc) : Action Thread Op Choice → Move
  | .step t choice => move choice state.memory (state.thread t)
  | .call _ _ | .wake _ _ => .stay

/-- The action does not overflow `count_`. -/
def NoOverflow (state : State Thread Memory Pc) (action : Action Thread Op Choice) : Prop :=
  InInt32 ((ledger state).apply (moveOf state action)).count

/-- The action does not overflow `count_`, and its move is one of the allowed ones. -/
def Within (allowed : Ledger → Move → Prop) (state : State Thread Memory Pc)
    (action : Action Thread Op Choice) : Prop :=
  NoOverflow state action ∧ allowed (ledger state) (moveOf state action)

instance (state : State Thread Memory Pc) :
    DecidablePred (NoOverflow state) :=
  fun _ => inferInstanceAs (Decidable (InInt32 _))

instance (allowed : Ledger → Move → Prop) [∀ numbers, DecidablePred (allowed numbers)]
    (state : State Thread Memory Pc) : DecidablePred (Within allowed state) :=
  fun _ => inferInstanceAs (Decidable (_ ∧ _))

theorem releaseNext_cases (n : ℕ) (prev : ℤ) :
    releaseNext n prev = .idle ∨ ∃ kind, releaseNext n prev = .notify kind := by
  unfold releaseNext
  split
  · split
    · exact Or.inr ⟨.one, rfl⟩
    · exact Or.inr ⟨.all, rfl⟩
  · exact Or.inl rfl

/-- A call moves an idle thread on. -/
theorem call_moves {op : Op} {pc moved : Pc} (called : call config op pc = some moved) :
    pc = .idle ∧ Moves pc moved := by
  cases pc with
  | idle =>
    refine ⟨rfl, ?_⟩
    cases op with
    | release n =>
      cases called
      exact ⟨rfl, rfl, nofun, rfl⟩
    | acquire =>
      cases called
      split <;> exact ⟨rfl, rfl, nofun, rfl⟩
    | tryAcquire =>
      cases called
      exact ⟨rfl, rfl, nofun, rfl⟩
    | tryAcquireUntil =>
      simp only [call] at called
      split at called
      · cases called
        exact ⟨rfl, rfl, nofun, rfl⟩
      · cases called
  | _ => cases op <;> cases called

theorem wake_notify {pc moved : Pc} {kind : WakeCount}
    (issued : (program config).wake pc = some (kind, moved)) : pc = .notify kind ∧ moved = .idle := by
  cases pc with
  | notify issuing =>
    cases issued
    exact ⟨rfl, rfl⟩
  | _ => cases issued

theorem registered_woken (pc : Pc) : pc.woken.registered = pc.registered := by
  cases pc <;> rfl

theorem retaking_woken (pc : Pc) : pc.woken.retaking = pc.retaking := by
  cases pc <;> rfl

/-- **One step of one thread is a move of the abstract semaphore.** -/
theorem effect_ledger {state : State Thread Memory Pc} {t : Thread} {made : Move} {memory : Memory}
    {moved : Pc} (effect : Effect state.memory (state.thread t) made memory moved)
    (fits : InInt32 ((ledger state).apply made).count) :
    (ledger state).Enabled made ∧
      ledger ⟨memory, Function.update state.thread t moved⟩ = (ledger state).apply made := by
  have waiting := count_update Pc.registered state.thread t moved
  have retaking := count_update Pc.retaking state.thread t moved
  cases effect with
  | moves inside =>
    rw [inside.registered] at waiting
    rw [inside.retaking] at retaking
    exact ⟨trivial, Ledger.ext rfl rfl rfl (Nat.add_right_cancel waiting)
      (Nat.add_right_cancel retaking)⟩
  | sleeps _ before notRetaking after stillNot =>
    rw [before, after] at waiting
    rw [notRetaking, stillNot] at retaking
    exact ⟨trivial, Ledger.ext rfl rfl rfl (Nat.add_right_cancel waiting)
      (Nat.add_right_cancel retaking)⟩
  | release n here =>
    have standing : (releaseNext n state.memory.count).registered = false ∧
        (releaseNext n state.memory.count).retaking = false := by
      rcases releaseNext_cases n state.memory.count with done | ⟨kind, done⟩ <;>
        rw [done] <;> exact ⟨rfl, rfl⟩
    rw [here, standing.1] at waiting
    rw [here, standing.2] at retaking
    refine ⟨trivial, Ledger.ext ?_ rfl rfl waiting retaking⟩
    show int32 (state.memory.count + int32 n) = state.memory.count + n
    rw [int32_add_int32]
    exact int32_eq_self fits
  | exchange free notRegistered notRetaking =>
    rw [notRegistered] at waiting
    rw [notRetaking] at retaking
    exact ⟨free, Ledger.ext rfl rfl rfl waiting retaking⟩
  | subtract timed free here =>
    rw [here] at waiting retaking
    exact ⟨free, Ledger.ext (int32_eq_self fits) rfl rfl waiting retaking⟩
  | register timed none here =>
    rw [here] at waiting retaking
    exact ⟨none, Ledger.ext (int32_eq_self fits) rfl rfl waiting retaking⟩
  | granted timed present here =>
    have registered : 0 < (ledger state).waiting := count_pos (t := t) (by rw [here]; rfl)
    rw [here] at waiting retaking
    exact ⟨⟨present, registered⟩, Ledger.ext rfl rfl rfl (Nat.eq_sub_of_add_eq waiting) retaking⟩
  | withdraw owing here =>
    have registered : 0 < (ledger state).waiting := count_pos (t := t) (by rw [here]; rfl)
    rw [here] at waiting retaking
    exact ⟨⟨owing, registered⟩,
      Ledger.ext (int32_eq_self fits) rfl rfl (Nat.eq_sub_of_add_eq waiting) retaking⟩
  | restore present here =>
    have registered : 0 < (ledger state).waiting := count_pos (t := t) (by rw [here]; rfl)
    rw [here] at waiting retaking
    exact ⟨⟨present, registered⟩,
      Ledger.ext (int32_eq_self fits) rfl rfl (Nat.eq_sub_of_add_eq waiting) retaking⟩
  | retake here =>
    have pending : 0 < (ledger state).retaking := count_pos (t := t) (by rw [here]; rfl)
    rw [here] at waiting retaking
    exact ⟨pending,
      Ledger.ext (int32_eq_self fits) rfl rfl waiting (Nat.eq_sub_of_add_eq retaking)⟩

/-- A wake changes no number. -/
theorem wake_ledger {state : State Thread Memory Pc} {t : Thread} {kind : WakeCount}
    {others : Thread → Pc} (here : state.thread t = .notify kind)
    (woken : (program config).Woken state.thread others) :
    ledger ⟨state.memory, Function.update others t .idle⟩ = ledger state := by
  have waiting : count Pc.registered (Function.update others t .idle) =
      count Pc.registered state.thread :=
    count_congr (woken.apply_update_eq (fun pc _ => registered_woken pc) (by rw [here]; rfl))
  have retaking : count Pc.retaking (Function.update others t .idle) =
      count Pc.retaking state.thread :=
    count_congr (woken.apply_update_eq (fun pc _ => retaking_woken pc) (by rw [here]; rfl))
  exact Ledger.ext rfl rfl rfl waiting retaking

/-- **An action that does not overflow is a move of the abstract semaphore.** -/
theorem next_ledger {state after : State Thread Memory Pc} {action : Action Thread Op Choice}
    (taken : (system config initial Thread).next state action = some after)
    (fits : NoOverflow state action) :
    (ledger state).Enabled (moveOf state action) ∧
      ledger after = (ledger state).apply (moveOf state action) := by
  rcases Program.next_cases taken with ⟨t, op, moved, rfl, called, rfl⟩ |
    ⟨t, choice, memory, moved, rfl, stepped, rfl⟩ |
    ⟨t, target, kind, moved, others, rfl, issued, woken, rfl, -⟩
  · exact effect_ledger (.moves (call_moves called).2) fits
  · exact effect_ledger (step_effect stepped) fits
  · obtain ⟨here, rfl⟩ := wake_notify issued
    exact ⟨trivial, wake_ledger here woken⟩

/-- **The semaphore refines the abstract one**, as long as `count_` does not overflow. -/
theorem reach_ledger {allowed : Ledger → Move → Prop} (fits : InInt32 initial)
    {state : State Thread Memory Pc}
    (reached : (system config initial Thread).Reach (Within allowed) state) :
    (Ledger.system initial).Reach allowed (ledger state) := by
  refine reached.simulate ledger moveOf ?_ fun state action after _ within taken => ?_
  · refine Ledger.ext ?_ rfl rfl (count_const rfl) (count_const rfl)
    simp only [ledger, Program.system, Ledger.system]
    exact int32_eq_self fits
  · obtain ⟨enabled, result⟩ := next_ledger taken within.1
    refine ⟨within.2, ?_⟩
    rw [result]
    exact if_pos enabled

/-! ### No token out of nothing -/

/-- **The semaphores hand out no more tokens than they have**, in every run in which no token that a
timed-out waiter has put back is taken by somebody else. -/
theorem timedSemaphore_acquired_le (fits : InInt32 initial) {state : State Thread Memory Pc}
    (reached : (system config initial Thread).Reach (Within Ledger.Spares) state) :
    state.memory.acquired ≤ initial + state.memory.released :=
  Ledger.acquired_le_of_reach (reach_ledger fits reached)

/-- Thread 0 times out as thread 1 releases: it puts the token back and retakes it. -/
theorem timedSemaphore_acquired_le_retaken :
    ∃ state, (system ⟨true, false⟩ 0 (Fin 2)).Reach (Within Ledger.Spares) state ∧
      state.memory.acquired = 1 ∧ state.memory.acquired ≤ 0 + state.memory.released := by
  obtain ⟨state, reached, acquired⟩ := System.exists_reach_of_run
    (system ⟨true, false⟩ 0 (Fin 2)) (Within Ledger.Spares)
    [.call 0 .tryAcquireUntil, .step 0 .go, .step 0 .go, .step 0 .go, .step 0 .go, .step 0 .go,
      .step 0 .expired, .step 0 .go, .call 1 (.release 1), .step 1 .go, .wake 1 none,
      .step 0 .go, .step 0 .go]
    (fun state => decide (state.memory.acquired = 1)) (by decide +kernel)
  exact ⟨state, reached, of_decide_eq_true acquired,
    timedSemaphore_acquired_le (by decide) reached⟩

/-- **The token put back is taken twice.** Thread 0 times out as thread 1 releases one token; between
the `fetch_add(1)` and the `fetch_sub(1)` of thread 0, thread 2 takes it. Two acquisitions succeed on
one token. -/
theorem timedSemaphore_token_taken_twice :
    ∃ state, (system ⟨true, false⟩ 0 (Fin 3)).Reach NoOverflow state ∧
      ¬ state.memory.acquired ≤ 0 + state.memory.released := by
  obtain ⟨state, reached, exceeded⟩ := System.exists_reach_of_run
    (system ⟨true, false⟩ 0 (Fin 3)) NoOverflow
    [.call 0 .tryAcquireUntil, .step 0 .go, .step 0 .go, .step 0 .go, .step 0 .go, .step 0 .go,
      .step 0 .expired, .step 0 .go, .call 1 (.release 1), .step 1 .go, .wake 1 none,
      .step 0 .go, .call 2 .tryAcquire, .step 2 .go, .step 2 .go, .step 0 .go]
    (fun state => decide (¬ state.memory.acquired ≤ 0 + state.memory.released)) (by decide +kernel)
  exact ⟨state, reached, of_decide_eq_true exceeded⟩

/-! ### `parking_semaphore` -/

/-- The thread is inside `try_acquire_until`. -/
def Pc.isTimed : Pc → Bool
  | .fetchSub timed | .waitLoad timed | .wait timed _ _ | .tryLoad timed | .tryCas timed _ => timed
  | .restore | .retake => true
  | _ => false

theorem isTimed_tryLoop (c : ℤ) : (tryLoop false c).isTimed = false := by
  unfold tryLoop
  split <;> rfl

theorem isTimed_spinNext (c : ℤ) (loop : SpinLoop) : (spinNext c loop).isTimed = false := by
  cases loop with
  | again => rfl
  | returned success => cases success <;> rfl

/-- Nobody comes to `try_acquire_until` from elsewhere. -/
theorem step_untimed {choice : Choice} {memory after : Memory} {pc moved : Pc}
    (untimed : pc.isTimed = false) (stepped : step choice memory pc = some (after, moved)) :
    moved.isTimed = false := by
  cases pc with
  | idle | notify => cases stepped
  | restore | retake => cases untimed
  | release n =>
    cases (ordinary_eq_some stepped).2
    rcases releaseNext_cases n memory.count with done | ⟨kind, done⟩ <;> rw [done] <;> rfl
  | spinLoad =>
    cases (ordinary_eq_some stepped).2
    rfl
  | spin c state =>
    simp only [step] at stepped
    split at stepped
    · rcases compareExchangeWeak_cases stepped with ⟨-, -, result⟩ | ⟨-, result⟩ <;> cases result <;>
        exact isTimed_spinNext _ _
    · cases (ordinary_eq_some stepped).2
      exact isTimed_spinNext _ _
  | fetchSub timed =>
    have result := (ordinary_eq_some stepped).2
    split at result <;> cases result
    · rfl
    · exact untimed
  | waitLoad timed =>
    have result := (ordinary_eq_some stepped).2
    split at result <;> cases result
    · exact untimed
    · rfl
  | wait timed c point =>
    obtain ⟨next | changed, -, result⟩ := Option.map_eq_some_iff.mp stepped <;> cases result
    · exact untimed
    · have waits : timed = false := untimed
      rw [waits]
      rfl
  | tryLoad timed =>
    have tries : timed = false := untimed
    cases (ordinary_eq_some stepped).2
    rw [tries]
    exact isTimed_tryLoop memory.count
  | tryCas timed c =>
    have tries : timed = false := untimed
    rcases compareExchangeStrong_cases stepped with ⟨-, -, result⟩ | ⟨-, result⟩ <;> cases result
    · rfl
    · rw [tries]
      exact isTimed_tryLoop memory.count

theorem isTimed_woken (pc : Pc) : pc.woken.isTimed = pc.isTimed := by
  cases pc <;> rfl

theorem untimed_of_reach {useBackoff : Bool}
    {guard : State Thread Memory Pc → Action Thread Op Choice → Prop} {state : State Thread Memory Pc}
    (reached : (system ⟨false, useBackoff⟩ initial Thread).Reach guard state) :
    ∀ t, (state.thread t).isTimed = false := by
  refine reached.invariant (P := fun state => ∀ t, (state.thread t).isTimed = false) (fun _ => rfl)
    fun state action after _ untimed _ taken => ?_
  rcases Program.next_cases taken with ⟨t, op, moved, -, called, rfl⟩ |
    ⟨t, choice, memory, moved, -, stepped, rfl⟩ |
    ⟨t, target, kind, moved, others, -, issued, woken, rfl, -⟩
  · have begins : moved.isTimed = (state.thread t).isTimed := by
      obtain ⟨here, -⟩ := call_moves called
      rw [here] at called ⊢
      cases op with
      | release | tryAcquire =>
        cases called
        rfl
      | acquire =>
        cases called
        cases useBackoff <;> rfl
      | tryAcquireUntil => cases called
    intro u
    rw [apply_update begins u]
    exact untimed u
  · have still : moved.isTimed = (state.thread t).isTimed := by
      rw [step_untimed (untimed t) stepped, untimed t]
    intro u
    rw [apply_update still u]
    exact untimed u
  · obtain ⟨here, rfl⟩ := wake_notify issued
    intro u
    rw [woken.apply_update_eq (f := Pc.isTimed) (fun pc _ => isTimed_woken pc) (by rw [here]; rfl) u]
    exact untimed u

/-- **The counter accounts for every operation.** -/
def Accounted (initial : ℕ) (memory : Memory) : Prop :=
  memory.count = initial + memory.released - memory.exchanged - memory.subtracted

theorem Accounted.effect {state : State Thread Memory Pc} {t : Thread} {memory : Memory} {moved : Pc}
    {made : Move} (accounted : Accounted initial state.memory)
    (untimed : (state.thread t).isTimed = false)
    (effect : Effect state.memory (state.thread t) made memory moved)
    (fits : InInt32 ((ledger state).apply made).count) : Accounted initial memory := by
  unfold Accounted at *
  cases effect with
  | moves | sleeps | granted => exact accounted
  | release n here =>
    have sum : int32 (state.memory.count + n) = state.memory.count + n := int32_eq_self fits
    simp only [Memory.release]
    rw [int32_add_int32, sum]
    omega
  | exchange =>
    simp only [Memory.exchange]
    omega
  | subtract timed free here =>
    have difference : int32 (state.memory.count - 1) = state.memory.count - 1 := int32_eq_self fits
    simp only [Memory.fetchSub, Memory.success]
    rw [difference]
    omega
  | register timed none here =>
    have difference : int32 (state.memory.count - 1) = state.memory.count - 1 := int32_eq_self fits
    simp only [Memory.fetchSub]
    rw [difference]
    omega
  | withdraw _ here | restore _ here | retake here =>
    rw [here] at untimed
    cases untimed

/-- Nobody retakes a token, so every acquisition of a free one spares those put back. -/
theorem spares_of_untimed {state : State Thread Memory Pc}
    (untimed : ∀ t, (state.thread t).isTimed = false) {made : Move}
    (enabled : (ledger state).Enabled made) : (ledger state).Spares made := by
  have nobody : (ledger state).retaking = 0 := by
    by_contra somebody
    obtain ⟨t, retakes⟩ := exists_of_count_pos (Nat.pos_of_ne_zero somebody)
    have here := untimed t
    cases standing : state.thread t with
    | retake =>
      rw [standing] at here
      cases here
    | _ =>
      rw [standing] at retakes
      cases retakes
  cases made with
  | take =>
    show ((ledger state).retaking : ℤ) < (ledger state).count
    rw [nobody]
    exact enabled
  | _ => trivial

theorem parkingSemaphore_within {useBackoff : Bool} {state : State Thread Memory Pc}
    (reached : (system ⟨false, useBackoff⟩ initial Thread).Reach NoOverflow state) :
    (system ⟨false, useBackoff⟩ initial Thread).Reach (Within Ledger.Spares) state := by
  refine reached.invariant .start fun state action after before within fits taken => ?_
  obtain ⟨enabled, -⟩ := next_ledger taken fits
  exact within.step ⟨fits, spares_of_untimed (untimed_of_reach before) enabled⟩ taken

theorem accounted_of_reach {useBackoff : Bool} (inside : InInt32 initial)
    {state : State Thread Memory Pc}
    (reached : (system ⟨false, useBackoff⟩ initial Thread).Reach NoOverflow state) :
    Accounted initial state.memory := by
  refine reached.invariant (P := fun state => Accounted initial state.memory) ?_
    fun state action after before accounted fits taken => ?_
  · have start : int32 (initial : ℤ) = initial := int32_eq_self inside
    simp [Accounted, Program.system, start]
  · rcases Program.next_cases taken with ⟨t, op, moved, -, -, rfl⟩ |
      ⟨t, choice, memory, moved, rfl, stepped, rfl⟩ | ⟨t, target, kind, moved, others, -, -, -, rfl, -⟩
    · exact accounted
    · exact accounted.effect (untimed_of_reach before t) (step_effect stepped) fits
    · exact accounted

/-- **`parking_semaphore` accounts for every operation and hands out no token it does not have**, in
every run without `int32_t` overflow, for both policies. -/
theorem parkingSemaphore_accounts {useBackoff : Bool} (inside : InInt32 initial)
    {state : State Thread Memory Pc}
    (reached : (system ⟨false, useBackoff⟩ initial Thread).Reach NoOverflow state) :
    state.memory.count = initial + state.memory.released - state.memory.exchanged -
        state.memory.subtracted ∧
      state.memory.acquired ≤ initial + state.memory.released :=
  ⟨accounted_of_reach inside reached,
    Ledger.acquired_le_of_reach (reach_ledger inside (parkingSemaphore_within reached))⟩

/-- Thread 0 has registered on an empty counter, and thread 1 has released two tokens and taken one. -/
theorem parkingSemaphore_accounts_registered :
    ∃ state, (system ⟨false, false⟩ 0 (Fin 2)).Reach NoOverflow state ∧ state.memory.exchanged = 1 ∧
      state.memory.subtracted = 1 ∧
      state.memory.count = 0 + state.memory.released - state.memory.exchanged -
        state.memory.subtracted ∧
      state.memory.acquired ≤ 0 + state.memory.released := by
  obtain ⟨state, reached, taken⟩ := System.exists_reach_of_run (system ⟨false, false⟩ 0 (Fin 2))
    NoOverflow
    [.call 0 .acquire, .step 0 .go, .call 1 (.release 2), .step 1 .go, .wake 1 none,
      .call 1 .tryAcquire, .step 1 .go, .step 1 .go]
    (fun state => decide (state.memory.exchanged = 1 ∧ state.memory.subtracted = 1))
    (by decide +kernel)
  obtain ⟨exchanged, subtracted⟩ := of_decide_eq_true taken
  exact ⟨state, reached, exchanged, subtracted,
    parkingSemaphore_accounts (by decide) reached⟩

/-! ### No stranded waiter -/

/-- **While the count is not negative and somebody sleeps**, a wake of all is pending, or a wake of one
and the sleeper is the only registered waiter. -/
def Attended (state : State Thread Memory Pc) : Prop :=
  0 ≤ state.memory.count → (∃ t, (state.thread t).asleep = true) →
    (∃ t, state.thread t = .notify .all) ∨
      (∃ t, state.thread t = .notify .one) ∧ (ledger state).waiting = 1

theorem registered_of_asleep {pc : Pc} (sleeping : pc.asleep = true) : pc.registered = true := by
  cases pc with
  | wait timed c point => rfl
  | _ => cases sleeping

theorem awake_woken (pc : Pc) : pc.woken.asleep = false := by
  cases pc with
  | wait timed c point => cases point <;> rfl
  | _ => rfl

/-- The pending wakes stay good when a thread that is not counted moves on. -/
theorem Attended.frame {state : State Thread Memory Pc} (attended : Attended state) {t : Thread}
    {memory : Memory} {moved : Pc} (source : ∀ kind, state.thread t ≠ .notify kind)
    (present : 0 ≤ memory.count → 0 ≤ state.memory.count)
    (registered : moved.registered = (state.thread t).registered) (awake : moved.asleep = false) :
    Attended ⟨memory, Function.update state.thread t moved⟩ := by
  rintro here ⟨u, sleeping⟩
  have before := (ne_of_update Pc.asleep awake sleeping).2
  rcases attended (present here) ⟨u, before⟩ with all | ⟨one, single⟩
  · exact Or.inl (exists_update moved (source .all) all)
  · refine Or.inr ⟨exists_update moved (source .one) one, ?_⟩
    rw [← single]
    exact count_update_same registered

/-- When a waiter leaves, the others are attended by a wake of all. -/
theorem Attended.leave {state : State Thread Memory Pc} (attended : Attended state) {t : Thread}
    {memory : Memory} {moved : Pc} (source : ∀ kind, state.thread t ≠ .notify kind)
    (present : 0 ≤ state.memory.count) (registered : (state.thread t).registered = true)
    (awake : moved.asleep = false) :
    Attended ⟨memory, Function.update state.thread t moved⟩ := by
  rintro - ⟨u, sleeping⟩
  obtain ⟨other, before⟩ := ne_of_update Pc.asleep awake sleeping
  rcases attended present ⟨u, before⟩ with all | ⟨-, single⟩
  · exact Or.inl (exists_update moved (source .all) all)
  · exact absurd (eq_of_count_le_one (le_of_eq single) (registered_of_asleep before) registered) other

/-- A release that settles the count wakes all, or one when there is only one. -/
theorem releaseNext_settles {n : ℕ} {prev : ℤ} (owing : prev < 0) (counted : InInt32 prev)
    (fits : InInt32 (prev + n)) (settles : 0 ≤ prev + n) :
    releaseNext n prev = .notify .all ∨ releaseNext n prev = .notify .one ∧ prev = -1 := by
  unfold releaseNext
  rw [if_pos owing]
  split
  · rename_i one
    refine Or.inr ⟨rfl, ?_⟩
    simp only [int32, Int.bmod] at one
    unfold InInt32 at counted fits
    omega
  · exact Or.inl rfl

/-- **One step of one thread.** -/
theorem Attended.effect {state : State Thread Memory Pc} (attended : Attended state)
    (settled : (ledger state).Settled) (counted : InInt32 state.memory.count) {t : Thread}
    {made : Move} {memory : Memory} {moved : Pc} (source : ∀ kind, state.thread t ≠ .notify kind)
    (effect : Effect state.memory (state.thread t) made memory moved)
    (fits : InInt32 ((ledger state).apply made).count) (serves : (ledger state).Serves made) :
    Attended ⟨memory, Function.update state.thread t moved⟩ := by
  have numbers := (effect_ledger effect fits).2
  have after : memory.count = ((ledger state).apply made).count := congrArg Ledger.count numbers
  cases effect with
  | moves inside => exact attended.frame source id inside.registered inside.awake
  | sleeps owing => exact fun present => absurd present (not_le.mpr owing)
  | release n here =>
    by_cases owing : state.memory.count < 0
    · rcases serves owing with rfl | settles
      · intro present
        exact absurd (after ▸ present) (by simpa [ledger, Ledger.apply] using owing)
      · have waiting := settled owing
        rcases releaseNext_settles owing counted fits settles with all | ⟨one, single⟩
        · rw [all]
          exact fun _ _ => Or.inl ⟨t, Function.update_self ..⟩
        · rw [one] at numbers ⊢
          refine fun _ _ => Or.inr ⟨⟨t, Function.update_self ..⟩, ?_⟩
          rw [numbers]
          simp only [ledger, Ledger.apply] at waiting ⊢
          omega
    · have done : releaseNext n state.memory.count = .idle := if_neg owing
      rw [done]
      exact attended.frame source (fun _ => not_lt.mp owing) (by rw [here]; rfl) rfl
  | exchange free notRegistered =>
    exact attended.frame source (fun _ => le_of_lt free) notRegistered.symm rfl
  | subtract timed free here =>
    exact attended.frame source (fun _ => le_of_lt free) (by rw [here]; rfl) rfl
  | register timed none here =>
    intro present
    simp only [ledger, Ledger.apply] at after present
    omega
  | granted timed present here => exact attended.leave source present (by rw [here]; rfl) rfl
  | withdraw owing here =>
    rintro present ⟨u, sleeping⟩
    obtain ⟨other, before⟩ := ne_of_update Pc.asleep rfl sleeping
    have waiting := settled owing
    have single : (ledger state).waiting ≤ 1 := by
      simp only [ledger, Ledger.apply] at after present waiting ⊢
      omega
    have same := eq_of_count_le_one single (registered_of_asleep before)
      (show (state.thread t).registered = true by rw [here]; rfl)
    exact absurd same other
  | restore present here => exact attended.leave source present (by rw [here]; rfl) rfl
  | retake here =>
    refine attended.frame source (fun present => ?_) (by rw [here]; rfl) rfl
    simp only [ledger, Ledger.apply] at after
    omega

/-- **A wake.** Waking all leaves no sleeper; waking one leaves a sleeper only where there are several,
and these are attended by a wake of all. -/
theorem Attended.wake {state : State Thread Memory Pc} (attended : Attended state) {t : Thread}
    {kind : WakeCount} {others : Thread → Pc} (here : state.thread t = .notify kind)
    (how : (kind = .all ∧ others = (program config).wakeEvery state.thread) ∨
      (kind = .one ∧ ∃ u, (state.thread u).asleep = true ∧
        others = Function.update state.thread u (state.thread u).woken) ∨
      (kind = .one ∧ others = state.thread ∧ ∀ u, (state.thread u).asleep = false)) :
    Attended ⟨state.memory, Function.update others t .idle⟩ := by
  rintro present ⟨v, sleeping⟩
  obtain ⟨other, sleeping⟩ := ne_of_update Pc.asleep rfl sleeping
  rcases how with ⟨-, rfl⟩ | ⟨rfl, u, target, rfl⟩ | ⟨-, rfl, nobody⟩
  · have awake : ((program config).wakeEvery state.thread v).asleep = false :=
      (program config).asleep_wakeEvery awake_woken state.thread v
    rw [awake] at sleeping
    cases sleeping
  · obtain ⟨different, before⟩ := ne_of_update Pc.asleep (awake_woken _) sleeping
    rcases attended present ⟨v, before⟩ with ⟨w, pending⟩ | ⟨-, single⟩
    · have notWaker : w ≠ t := by
        rintro rfl
        rw [here] at pending
        cases pending
      have notTarget : w ≠ u := by
        rintro rfl
        rw [pending] at target
        cases target
      refine Or.inl ⟨w, ?_⟩
      simp only [Function.update_of_ne notWaker, Function.update_of_ne notTarget, pending]
    · exact absurd (eq_of_count_le_one (le_of_eq single) (registered_of_asleep before)
        (registered_of_asleep target)) different
  · rw [nobody v] at sleeping
    cases sleeping

theorem counted_of_reach {allowed : Ledger → Move → Prop} (fits : InInt32 initial)
    {state : State Thread Memory Pc}
    (reached : (system config initial Thread).Reach (Within allowed) state) :
    InInt32 state.memory.count := by
  refine reached.invariant (P := fun state => InInt32 state.memory.count) ?_
    fun state action after _ _ within taken => ?_
  · simp only [Program.system]
    rw [int32_eq_self fits]
    exact fits
  · have numbers := (next_ledger taken within.1).2
    have count : after.memory.count = _ := congrArg Ledger.count numbers
    rw [count]
    exact within.1

theorem attended_of_reach (fits : InInt32 initial) {state : State Thread Memory Pc}
    (reached : (system config initial Thread).Reach (Within Ledger.Serves) state) :
    Attended state := by
  refine reached.invariant ?_ fun state action after before attended within taken => ?_
  · rintro - ⟨t, sleeping⟩
    cases sleeping
  · have settled := Ledger.settled_of_reach (reach_ledger fits before)
    have counted := counted_of_reach fits before
    rcases Program.next_cases taken with ⟨t, op, moved, rfl, called, rfl⟩ |
      ⟨t, choice, memory, moved, rfl, stepped, rfl⟩ |
      ⟨t, target, kind, moved, others, rfl, issued, woken, rfl, how⟩
    · obtain ⟨idle, inside⟩ := call_moves called
      exact attended.frame (by rw [idle]; exact nofun) id inside.registered inside.awake
    · have source : ∀ kind, state.thread t ≠ .notify kind := by
        intro kind here
        rw [here] at stepped
        cases stepped
      exact attended.effect settled counted source (step_effect stepped) within.1 within.2
    · obtain ⟨here, rfl⟩ := wake_notify issued
      exact attended.wake here how

/-- Every thread is outside all operations or asleep, so that no wake is pending either. -/
def Quiescent (state : State Thread Memory Pc) : Prop :=
  ∀ t, state.thread t = .idle ∨ (state.thread t).asleep = true

instance (state : State Thread Memory Pc) : Decidable (Quiescent state) :=
  inferInstanceAs (Decidable (∀ t, state.thread t = .idle ∨ (state.thread t).asleep = true))

/-- **No waiter is stranded**: in every run whose releases, registrations and retaken tokens serve the
waiters, a quiescent state with a sleeper has handed out every token. -/
theorem parkingSemaphore_no_stranded_waiter (fits : InInt32 initial)
    {state : State Thread Memory Pc}
    (reached : (system config initial Thread).Reach (Within Ledger.Serves) state)
    (quiescent : Quiescent state) (sleeper : ∃ t, (state.thread t).asleep = true) :
    state.memory.acquired = initial + state.memory.released := by
  have silent : ∀ t kind, state.thread t ≠ .notify kind := by
    intro t kind here
    rcases quiescent t with idle | sleeping
    · rw [here] at idle
      cases idle
    · rw [here] at sleeping
      cases sleeping
  have owing : state.memory.count < 0 := by
    by_contra present
    rcases attended_of_reach fits reached (not_lt.mp present) sleeper with ⟨t, all⟩ | ⟨⟨t, one⟩, -⟩
    · exact silent t .all all
    · exact silent t .one one
  exact Ledger.acquired_eq_of_reach (reach_ledger fits reached) owing

/-- A waiter sleeps on a semaphore that has nothing left: thread 1 took the token released. -/
theorem parkingSemaphore_no_stranded_waiter_empty :
    ∃ state, (system ⟨false, false⟩ 0 (Fin 2)).Reach (Within Ledger.Serves) state ∧
      (state.thread 0).asleep = true ∧ state.memory.acquired = 0 + 1 := by
  obtain ⟨state, reached, checked⟩ := System.exists_reach_of_run
    (system ⟨false, false⟩ 0 (Fin 2)) (Within Ledger.Serves)
    (List.flatten [[.call 1 (.release 1), .step 1 .go, .call 1 .tryAcquire, .step 1 .go, .step 1 .go,
      .call 0 .acquire], List.replicate 17 (.step 0 .go)])
    (fun state => decide (Quiescent state ∧ (state.thread 0).asleep = true ∧
      state.memory.released = 1)) (by decide +kernel)
  obtain ⟨quiescent, sleeping, released⟩ := of_decide_eq_true checked
  have served := parkingSemaphore_no_stranded_waiter (by decide) reached quiescent ⟨0, sleeping⟩
  rw [released] at served
  exact ⟨state, reached, sleeping, served⟩

/-- **A token is stranded.** Two threads sleep in `acquire`, the count is -2; `release(1)` makes it -1
and wakes one of them, which reads a negative count and sleeps again. -/
theorem parkingSemaphore_token_stranded :
    ∃ state, (system ⟨false, false⟩ 0 (Fin 3)).Reach NoOverflow state ∧ Quiescent state ∧
      (state.thread 0).asleep = true ∧ ¬ state.memory.acquired = 0 + state.memory.released := by
  obtain ⟨state, reached, checked⟩ := System.exists_reach_of_run
    (system ⟨false, false⟩ 0 (Fin 3)) NoOverflow
    (List.flatten [[.call 0 .acquire], List.replicate 17 (.step 0 .go), [.call 1 .acquire],
      List.replicate 17 (.step 1 .go), [.call 2 (.release 1), .step 2 .go, .wake 2 (some 1)],
      List.replicate 17 (.step 1 .go)])
    (fun state => decide (Quiescent state ∧ (state.thread 0).asleep = true ∧
      ¬ state.memory.acquired = 0 + state.memory.released)) (by decide +kernel)
  exact ⟨state, reached, of_decide_eq_true checked⟩

end NovaSync.ParkingSemaphore
