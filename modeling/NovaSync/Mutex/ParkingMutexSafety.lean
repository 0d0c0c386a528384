/-
**`parking_mutex`: the word counts the waiters, and no wakeup is lost.**

* `Represented` — `state_` is `2 * waiters + owners` modulo `2 ^ 32`, with at most one owner. Every
  effect of `step_effect` keeps it, for any number of threads; with fewer than `2 ^ 31` of them the
  sum does not wrap (`parkingMutex_representation`).
* `Attended` — while the lock bit is clear and somebody sleeps, an `unlock` is about to notify or a
  registered waiter is awake. The one place at which this needs a bound on the threads is the test
  `prev > 1` of `unlock`: it misses `2 ^ 31` waiters, whose count has wrapped to zero
  (`parkingMutex_wakeup_lost`).
-/

import NovaSync.Mutex.ParkingMutex

set_option linter.unusedSectionVars false

namespace NovaSync.ParkingMutex

open Concurrency Detail Futex

variable {variant : Variant} {Thread : Type*} [DecidableEq Thread] [Fintype Thread]

/-- The registered waiters, `R`. -/
def waiters (state : State Thread Word Pc) : ℕ := count Pc.registered state.thread

/-- The threads that own the mutex, `L`. -/
def owners (state : State Thread Word Pc) : ℕ := count Pc.holds state.thread

/-! ### Calls and wakes -/

theorem call_moves {op : Op} {pc moved : Pc} (called : call variant op pc = some moved) :
    Moves pc moved ∧ pc.registered = false ∧ pc ≠ .notify := by
  unfold call at called
  split at called
  · cases called
    exact ⟨⟨rfl, rfl, nofun, rfl⟩, rfl, nofun⟩
  · cases called
    exact ⟨⟨rfl, rfl, nofun, rfl⟩, rfl, nofun⟩
  · split at called
    · cases called
      exact ⟨⟨rfl, rfl, nofun, rfl⟩, rfl, nofun⟩
    · cases called
  · cases called
    exact ⟨⟨rfl, rfl, nofun, rfl⟩, rfl, nofun⟩
  · cases called

theorem wake_notify {pc moved : Pc} {kind : WakeCount}
    (issued : (program variant).wake pc = some (kind, moved)) :
    pc = .notify ∧ kind = .one ∧ moved = .idle := by
  simp only [program] at issued
  split at issued
  · cases issued
    exact ⟨rfl, rfl, rfl⟩
  · cases issued

theorem registered_woken (pc : Pc) : pc.woken.registered = pc.registered := by
  cases pc <;> rfl

theorem holds_woken (pc : Pc) : pc.woken.holds = pc.holds := by
  cases pc <;> rfl

/-! ### The representation -/

/-- **What `state_` represents**, modulo the width of the word. -/
structure Represented (state : State Thread Word Pc) : Prop where
  word : state.memory.toNat = (2 * waiters state + owners state) % 2 ^ 32
  single : owners state ≤ 1

/-- A step that changes neither the word nor a count keeps the representation. -/
theorem Represented.congr {state after : State Thread Word Pc} (represented : Represented state)
    (memory : after.memory = state.memory) (waiting : waiters after = waiters state)
    (owning : owners after = owners state) : Represented after := by
  refine ⟨?_, ?_⟩
  · rw [memory, waiting, owning]
    exact represented.word
  · rw [owning]
    exact represented.single

/-- An owner is there exactly when the word is odd. -/
theorem Represented.held_iff {state : State Thread Word Pc} (represented : Represented state) :
    state.memory &&& 1 ≠ 0 ↔ owners state = 1 := by
  obtain ⟨word, single⟩ := represented
  rw [Ne, free_iff]
  omega

/-- **One step of one thread.** -/
theorem Represented.effect {state : State Thread Word Pc} (represented : Represented state)
    {t : Thread} {word : Word} {moved : Pc}
    (effect : Effect state.memory (state.thread t) word moved) :
    Represented ⟨word, Function.update state.thread t moved⟩ := by
  have parity := represented.held_iff
  have ⟨same, single⟩ := represented
  cases effect with
  | moves inside =>
    exact represented.congr rfl (count_update_same inside.registered) (count_update_same inside.holds)
  | sleeps _ registered holds registered' holds' =>
    exact represented.congr rfl (count_update_same (registered'.trans registered.symm))
      (count_update_same (holds'.trans holds.symm))
  | barge free registered holds =>
    have waiting : waiters ⟨state.memory + 1, Function.update state.thread t Pc.owner⟩ =
        waiters state := count_update_same registered.symm
    have owning : owners ⟨state.memory + 1, Function.update state.thread t Pc.owner⟩ =
        owners state + 1 := count_update_enter holds rfl
    have unowned : owners state = 0 := by
      have := mt parity.mpr (not_not.mpr free)
      omega
    refine ⟨?_, by omega⟩
    rw [waiting, owning]
    bv_omega
  | register timed here =>
    have waiting : waiters ⟨state.memory + 2, Function.update state.thread t (.reload timed)⟩ =
        waiters state + 1 := count_update_enter (by rw [here]; rfl) rfl
    have owning : owners ⟨state.memory + 2, Function.update state.thread t (.reload timed)⟩ =
        owners state := count_update_same (by rw [here]; rfl)
    refine ⟨?_, by omega⟩
    rw [waiting, owning]
    bv_omega
  | takeOver free registered holds =>
    have waiting : waiters ⟨state.memory - 1, Function.update state.thread t Pc.owner⟩ + 1 =
        waiters state := count_update_leave registered rfl
    have owning : owners ⟨state.memory - 1, Function.update state.thread t Pc.owner⟩ =
        owners state + 1 := count_update_enter holds rfl
    have unowned : owners state = 0 := by
      have := mt parity.mpr (not_not.mpr free)
      omega
    refine ⟨?_, by omega⟩
    rw [owning]
    bv_omega
  | withdraw _ registered holds =>
    have waiting : waiters ⟨state.memory - 2, Function.update state.thread t Pc.idle⟩ + 1 =
        waiters state := count_update_leave registered rfl
    have owning : owners ⟨state.memory - 2, Function.update state.thread t Pc.idle⟩ =
        owners state := count_update_same holds.symm
    refine ⟨?_, by omega⟩
    rw [owning]
    bv_omega
  | unlock here =>
    generalize left : (if state.memory > 1 then Pc.notify else Pc.idle) = moved
    have released : moved.registered = false ∧ moved.holds = false := by
      rw [← left]
      split <;> exact ⟨rfl, rfl⟩
    have owned : owners state = 1 := by
      have positive : 0 < owners state := count_pos (t := t) (by rw [here]; rfl)
      omega
    rw [released_eq (parity.mpr owned)]
    have waiting : waiters ⟨state.memory - 1, Function.update state.thread t moved⟩ =
        waiters state := count_update_same (by rw [here]; exact released.1)
    have owning : owners ⟨state.memory - 1, Function.update state.thread t moved⟩ + 1 =
        owners state := count_update_leave (by rw [here]; rfl) released.2
    refine ⟨?_, by omega⟩
    rw [waiting]
    bv_omega

/-- A wake changes neither the word nor a count. -/
theorem Represented.wake {state : State Thread Word Pc} (represented : Represented state)
    {t : Thread} {others : Thread → Pc} (here : state.thread t = .notify)
    (woken : (program variant).Woken state.thread others) :
    Represented ⟨state.memory, Function.update others t .idle⟩ := by
  have waiting : waiters ⟨state.memory, Function.update others t .idle⟩ = waiters state :=
    count_congr (woken.apply_update_eq (fun pc _ => registered_woken pc) (by rw [here]; rfl))
  have owning : owners ⟨state.memory, Function.update others t .idle⟩ = owners state :=
    count_congr (woken.apply_update_eq (fun pc _ => holds_woken pc) (by rw [here]; rfl))
  exact represented.congr rfl waiting owning

theorem represented_of_reachable {state : State Thread Word Pc}
    (reached : (system variant Thread).Reachable state) : Represented state := by
  refine reached.invariant ?_ fun state action after _ represented _ taken => ?_
  · have waiting : waiters (system variant Thread).start = 0 := count_const rfl
    have owning : owners (system variant Thread).start = 0 := count_const rfl
    refine ⟨?_, by omega⟩
    rw [waiting, owning]
    rfl
  · rcases Program.next_cases taken with ⟨t, op, moved, -, called, rfl⟩ |
      ⟨t, choice, word, moved, -, stepped, rfl⟩ |
      ⟨t, target, kind, moved, others, -, issued, woken, rfl, -⟩
    · exact represented.effect (.moves (call_moves called).1)
    · exact represented.effect (step_effect stepped)
    · obtain ⟨here, -, rfl⟩ := wake_notify issued
      exact represented.wake here woken

/-- A thread is never registered and the owner. -/
theorem holds_of_registered {pc : Pc} (registered : pc.registered = true) : pc.holds = false := by
  cases pc <;> first | rfl | cases registered

/-- A thread about to register is not yet counted. -/
theorem waiters_add_owners_lt {state : State Thread Word Pc} {t : Thread} {timed : Bool}
    (here : state.thread t = .register timed) :
    waiters state + owners state + 1 ≤ Fintype.card Thread := by
  have waiting : count Pc.registered (Function.update state.thread t (.reload timed)) =
      waiters state + 1 := count_update_enter (by rw [here]; rfl) rfl
  have owning : count Pc.holds (Function.update state.thread t (.reload timed)) =
      owners state := count_update_same (by rw [here]; rfl)
  have bound : count Pc.registered (Function.update state.thread t (.reload timed)) +
      count Pc.holds (Function.update state.thread t (.reload timed)) ≤ Fintype.card Thread :=
    count_add_count_le_card fun _ => holds_of_registered
  omega

/-- **The representation of `parking_mutex`.** With fewer than `2 ^ 31` threads, `state_` is exactly
`2 * waiters + owners`: bit 0 says whether the mutex is owned, by one thread, bits 1-31 are the number
of registered waiters, and neither registering nor leaving wraps the word. -/
theorem parkingMutex_representation (few : Fintype.card Thread < 2 ^ 31)
    {state : State Thread Word Pc} (reached : (system variant Thread).Reachable state) :
    state.memory.toNat = 2 * waiters state + owners state ∧
      ((owners state = 1 ∧ ∃! t, (state.thread t).holds = true) ∨
        (owners state = 0 ∧ ∀ t, (state.thread t).holds = false)) ∧
      (∀ t timed, state.thread t = .register timed → state.memory.toNat + 2 < 2 ^ 32) ∧
      (∀ t, (state.thread t).registered = true → 2 ≤ state.memory.toNat) := by
  obtain ⟨word, single⟩ := represented_of_reachable reached
  have bound : waiters state + owners state ≤ Fintype.card Thread :=
    count_add_count_le_card fun _ => holds_of_registered
  have exact : state.memory.toNat = 2 * waiters state + owners state := by omega
  refine ⟨exact, ?_, fun t timed here => ?_, fun t registered => ?_⟩
  · by_cases owned : owners state = 1
    · have positive : 0 < owners state := by omega
      obtain ⟨t, holds⟩ := exists_of_count_pos positive
      exact Or.inl ⟨owned, t, holds, fun u holds' => eq_of_count_le_one single holds' holds⟩
    · refine Or.inr ⟨by omega, fun t => ?_⟩
      by_contra holds
      have positive : 0 < owners state := count_pos (Bool.eq_true_of_not_eq_false holds)
      omega
  · have := waiters_add_owners_lt here
    omega
  · have positive : 0 < waiters state := count_pos registered
    omega

/-- Thread 0 holds the lock and thread 1 has registered: `state_` is 3. -/
theorem parkingMutex_representation_contended :
    ∃ state, (system .timedBackoff (Fin 2)).Reachable state ∧ state.memory = 3 ∧
      state.memory.toNat = 2 * waiters state + owners state := by
  obtain ⟨state, reached, contended⟩ := System.exists_reachable_of_run
    (system .timedBackoff (Fin 2))
    [.call 0 .lock, .step 0 .go, .call 1 .tryLockUntil, .step 1 .go, .step 1 .go]
    (fun state => decide (state.memory = 3)) (by decide)
  exact ⟨state, reached, of_decide_eq_true contended,
    (parkingMutex_representation (by decide) reached).1⟩

/-! ### No lost wakeup -/

/-- **While the lock bit is clear and somebody sleeps**, an `unlock` has cleared the bit and not yet
notified, or a registered waiter is awake. -/
def Attended (state : State Thread Word Pc) : Prop :=
  state.memory &&& 1 = 0 → (∃ t, (state.thread t).asleep = true) →
    (∃ t, state.thread t = .notify) ∨ ∃ t, (state.thread t).awakeWaiter = true

theorem registered_of_asleep {pc : Pc} (sleeping : pc.asleep = true) : pc.registered = true := by
  cases pc with
  | wait timed expected point => rfl
  | _ => cases sleeping

theorem awakeWaiter_of {pc : Pc} (registered : pc.registered = true) (awake : pc.asleep = false) :
    pc.awakeWaiter = true := by
  rw [Pc.awakeWaiter, registered, awake]
  rfl

theorem awakeWaiter_woken {pc : Pc} (sleeping : pc.asleep = true) :
    pc.woken.awakeWaiter = true := by
  cases pc with
  | wait timed expected point =>
    cases point with
    | asleep => rfl
    | _ => cases sleeping
  | _ => cases sleeping

/-- A registered waiter is counted by the word that `unlock` reads: `prev > 1`. -/
theorem Represented.unlock_notifies {state : State Thread Word Pc} (represented : Represented state)
    (few : Fintype.card Thread ≤ 2 ^ 31) {t u : Thread} (here : state.thread t = .unlock)
    (registered : (state.thread u).registered = true) : state.memory > 1 := by
  obtain ⟨word, single⟩ := represented
  have waiting : 0 < waiters state := count_pos registered
  have owning : 0 < owners state := count_pos (t := t) (by rw [here]; rfl)
  have bound : waiters state + owners state ≤ Fintype.card Thread :=
    count_add_count_le_card fun _ => holds_of_registered
  bv_omega

/-- **One step of one thread.** The lock bit is clear after a step only if it was clear before, with
the thread moving on or registering, or if the step is an `unlock`. -/
theorem Attended.effect {state : State Thread Word Pc} (attended : Attended state)
    (represented : Represented state) (few : Fintype.card Thread ≤ 2 ^ 31) {t : Thread} {word : Word}
    {moved : Pc} (source : state.thread t ≠ .notify)
    (effect : Effect state.memory (state.thread t) word moved) :
    Attended ⟨word, Function.update state.thread t moved⟩ := by
  rintro free ⟨u, sleeping⟩
  simp only at free sleeping ⊢
  cases effect with
  | moves inside =>
    have before := (ne_of_update Pc.asleep inside.awake sleeping).2
    rcases attended free ⟨u, before⟩ with pending | ⟨v, awake⟩
    · exact Or.inl (exists_update moved source pending)
    · refine Or.inr ⟨v, ?_⟩
      by_cases same : v = t
      · subst same
        have registered : (state.thread v).registered = true := by
          rw [Pc.awakeWaiter, Bool.and_eq_true] at awake
          exact awake.1
        rw [Function.update_self]
        exact awakeWaiter_of (inside.registered.trans registered) inside.awake
      · rw [Function.update_of_ne same]
        exact awake
  | sleeps held => exact absurd free held
  | barge free' =>
    rw [free_iff] at free free'
    bv_omega
  | register timed here =>
    exact Or.inr ⟨t, by rw [Function.update_self]; rfl⟩
  | takeOver free' =>
    rw [free_iff] at free free'
    bv_omega
  | withdraw held =>
    rw [free_iff] at free
    rw [Ne, free_iff] at held
    bv_omega
  | unlock here =>
    have before := (ne_of_update Pc.asleep (by split <;> rfl) sleeping).2
    refine Or.inl ⟨t, ?_⟩
    rw [Function.update_self,
      if_pos (represented.unlock_notifies few here (registered_of_asleep before))]

/-- **One notify**: it wakes a sleeper, who is awake and registered, or nobody sleeps. -/
theorem Attended.wake {state : State Thread Word Pc} {t : Thread} {others : Thread → Pc}
    (here : state.thread t = .notify)
    (chosen : (∃ u, (state.thread u).asleep = true ∧
        others = Function.update state.thread u (state.thread u).woken) ∨
      others = state.thread ∧ ∀ u, (state.thread u).asleep = false) :
    Attended ⟨state.memory, Function.update others t .idle⟩ := by
  rintro - ⟨u, sleeping⟩
  simp only at sleeping ⊢
  obtain ⟨other, sleeping⟩ := ne_of_update Pc.asleep rfl sleeping
  rcases chosen with ⟨v, asleep, rfl⟩ | ⟨rfl, nobody⟩
  · have different : v ≠ t := by
      rintro rfl
      rw [here] at asleep
      cases asleep
    refine Or.inr ⟨v, ?_⟩
    rw [Function.update_of_ne different, Function.update_self]
    exact awakeWaiter_woken asleep
  · rw [nobody u] at sleeping
    cases sleeping

theorem attended_of_reachable (few : Fintype.card Thread ≤ 2 ^ 31) {state : State Thread Word Pc}
    (reached : (system variant Thread).Reachable state) : Attended state := by
  refine reached.invariant ?_ fun state action after before attended _ taken => ?_
  · rintro - ⟨t, sleeping⟩
    cases sleeping
  · have represented := represented_of_reachable before
    rcases Program.next_cases taken with ⟨t, op, moved, -, called, rfl⟩ |
      ⟨t, choice, word, moved, -, stepped, rfl⟩ |
      ⟨t, target, kind, moved, others, -, issued, -, rfl, chosen⟩
    · obtain ⟨inside, -, source⟩ := call_moves called
      exact attended.effect represented few source (.moves inside)
    · have source : state.thread t ≠ .notify := by
        intro here
        rw [here] at stepped
        cases stepped
      exact attended.effect represented few source (step_effect stepped)
    · obtain ⟨here, rfl, rfl⟩ := wake_notify issued
      rcases chosen with ⟨impossible, -⟩ | ⟨-, chosen⟩ | ⟨-, chosen⟩
      · cases impossible
      · exact Attended.wake here (Or.inl chosen)
      · exact Attended.wake here (Or.inr chosen)

/-- On a free mutex an awake waiter neither sleeps nor leaves: its next step keeps it awake and
registered, or makes it the owner. -/
theorem awakeWaiter_step {word after : Word} {pc moved : Pc} (awake : pc.awakeWaiter = true)
    (free : word &&& 1 = 0) (effect : Effect word pc after moved) :
    moved.awakeWaiter = true ∨ moved = .owner := by
  rw [Pc.awakeWaiter, Bool.and_eq_true] at awake
  cases effect with
  | moves inside =>
    exact Or.inl (awakeWaiter_of (inside.registered.trans awake.1) inside.awake)
  | sleeps held => exact absurd free held
  | barge | takeOver => exact Or.inr rfl
  | register timed here => exact Or.inl rfl
  | withdraw held => exact absurd free held
  | unlock here =>
    rw [here] at awake
    cases awake.1

/-- **`parking_mutex` loses no wakeup.** With at most `2 ^ 31` threads, a free mutex with a sleeper
has an `unlock` that has not yet notified, or an awake registered waiter; and such a waiter
re-examines `state_`: none of its steps puts it to sleep or lets it leave but as the owner. -/
theorem parkingMutex_no_lost_wakeup (few : Fintype.card Thread ≤ 2 ^ 31)
    {state : State Thread Word Pc} (reached : (system variant Thread).Reachable state)
    (free : state.memory &&& 1 = 0) (sleeper : ∃ t, (state.thread t).asleep = true) :
    (∃ t, state.thread t = .notify) ∨
      ∃ t, (state.thread t).awakeWaiter = true ∧ ∀ choice after,
        (system variant Thread).next state (.step t choice) = some after →
          (after.thread t).awakeWaiter = true ∨ after.thread t = .owner := by
  rcases attended_of_reachable few reached free sleeper with due | ⟨t, awake⟩
  · exact Or.inl due
  · refine Or.inr ⟨t, awake, fun choice after taken => ?_⟩
    obtain ⟨⟨word, moved⟩, stepped, rfl⟩ := Option.map_eq_some_iff.mp taken
    simp only [Function.update_self]
    exact awakeWaiter_step awake free (step_effect stepped)

/-- Thread 0 has cleared the bit while thread 1 sleeps: its notify is due. -/
theorem parkingMutex_no_lost_wakeup_unlocked :
    ∃ state, (system .plain (Fin 2)).Reachable state ∧ state.memory = 2 ∧
      ((∃ t, state.thread t = .notify) ∨ ∃ t, (state.thread t).awakeWaiter = true) := by
  obtain ⟨state, reached, unlocked⟩ := System.exists_reachable_of_run (system .plain (Fin 2))
    (List.flatten [[.call 0 .lock, .step 0 .go, .call 1 .lock], List.replicate 18 (.step 1 .go),
      [.call 0 .unlock, .step 0 .go]])
    (fun state => decide (state.memory = 2 ∧ (state.thread 1).asleep = true)) (by decide +kernel)
  obtain ⟨word, sleeping⟩ := of_decide_eq_true unlocked
  refine ⟨state, reached, word, ?_⟩
  rcases parkingMutex_no_lost_wakeup (by decide) reached (by rw [word]; rfl) ⟨1, sleeping⟩ with
    due | ⟨t, awake, -⟩
  · exact Or.inl due
  · exact Or.inr ⟨t, awake⟩

/-! ### Too many waiters -/

section Overflow

/-- A waiter on an unchanged word. -/
theorem alone_waits {word : Word} (held : word &&& 1 ≠ 0) (steps : ℕ) (point : WaitPoint)
    {last : WaitPoint} (goes : (fun point => point.bind WaitPoint.unchanged)^[steps] (some point) =
      some last) :
    (program variant).alone (word, .wait false ⟨word, held⟩ point) (List.replicate steps .go) =
      some (word, .wait false ⟨word, held⟩ last) := by
  induction steps generalizing point with
  | zero =>
    cases goes
    rfl
  | succ steps ih =>
    rw [Function.iterate_succ_apply, Option.bind_some] at goes
    cases first : point.unchanged with
    | none =>
      rw [first, Function.iterate_fixed rfl] at goes
      cases goes
    | some next =>
      have stepped : (program variant).step .go word (.wait false ⟨word, held⟩ point) =
          some (word, .wait false ⟨word, held⟩ next) := by
        show Option.map _ (WaitPoint.step false word word .go point) = _
        rw [WaitPoint.step_unchanged first]
        rfl
      rw [List.replicate_succ, Program.alone_cons stepped]
      exact ih next (by rw [← first]; exact goes)

/-- A thread that nobody disturbs goes from its fast path to sleep. -/
theorem alone_parks {word : Word} (held : (word + 2) &&& 1 ≠ 0) :
    (program .plain).alone (word, .lockCas) (.spurious :: .go :: .go :: List.replicate 15 .go) =
      some (word + 2, .wait false ⟨word + 2, held⟩ .asleep) := by
  have cas : (program .plain).step .spurious word .lockCas = some (word, .register false) := rfl
  have add : (program .plain).step .go word (.register false) =
      some (word + 2, .reload false) := rfl
  have load : (program .plain).step .go (word + 2) (.reload false) =
      some (word + 2, park false (word + 2)) := rfl
  have parked : park false (word + 2) = .wait false ⟨word + 2, held⟩ (.activeSpin 0) :=
    dif_neg held
  rw [Program.alone_cons cas, Program.alone_cons add, Program.alone_cons load, parked]
  exact alone_waits held 15 (.activeSpin 0) rfl

/-- Thread 0 owns the mutex and the threads `1, …, k` sleep, each on the word it made by
registering. -/
def queue (n k : ℕ) : State (Fin (n + 1)) Word Pc where
  memory := BitVec.ofNat 32 (2 * k + 1)
  thread i :=
    if i.val = 0 then .owner
    else if i.val ≤ k then .wait false ⟨_, odd_held i⟩ .asleep
    else .idle

theorem queue_succ {n k : ℕ} (room : k + 1 < n + 1) (held : BitVec.ofNat 32 (2 * k + 1) + 2 &&& 1 ≠ 0) :
    queue n (k + 1) = ⟨BitVec.ofNat 32 (2 * k + 1) + 2,
      Function.update (Function.update (queue n k).thread ⟨k + 1, room⟩ .lockCas) ⟨k + 1, room⟩
        (.wait false ⟨BitVec.ofNat 32 (2 * k + 1) + 2, held⟩ .asleep)⟩ := by
  have word : BitVec.ofNat 32 (2 * k + 1) + 2 = BitVec.ofNat 32 (2 * (k + 1) + 1) := by
    bv_omega
  refine State.ext word.symm (funext fun i => ?_)
  simp only [Function.update_idem]
  by_cases same : i = ⟨k + 1, room⟩
  · subst same
    rw [Function.update_self]
    simpa [queue] using word.symm
  · have apart : i.val ≠ k + 1 := fun equal => same (Fin.ext equal)
    have older : i.val ≤ k + 1 ↔ i.val ≤ k := by omega
    rw [Function.update_of_ne same]
    simp only [queue, older]

/-- The next thread joins the queue. -/
theorem queue_grows {n k : ℕ} (room : k + 1 < n + 1)
    (reached : (system .plain (Fin (n + 1))).Reachable (queue n k)) :
    (system .plain (Fin (n + 1))).Reachable (queue n (k + 1)) := by
  have held : BitVec.ofNat 32 (2 * k + 1) + 2 &&& 1 ≠ 0 := by
    rw [show BitVec.ofNat 32 (2 * k + 1) + 2 = BitVec.ofNat 32 (2 * (k + 1) + 1) by bv_omega]
    exact odd_held (k + 1)
  have idle : (queue n k).thread ⟨k + 1, room⟩ = .idle := by
    simp [queue]
  have called : (system .plain (Fin (n + 1))).next (queue n k) (.call ⟨k + 1, room⟩ .lock) =
      some ⟨(queue n k).memory, Function.update (queue n k).thread ⟨k + 1, room⟩ .lockCas⟩ := by
    show ((call .plain .lock ((queue n k).thread ⟨k + 1, room⟩)).map _) = _
    rw [idle]
    rfl
  rw [queue_succ room held]
  exact Program.reachable_alone (reached.step trivial called)
    (by rw [Function.update_self]; exact alone_parks held)

theorem queue_reachable (n k : ℕ) (room : k < n + 1) :
    (system .plain (Fin (n + 1))).Reachable (queue n k) := by
  induction k with
  | zero =>
    have locked : (system .plain (Fin (n + 1))).run (system .plain (Fin (n + 1))).start
        [.call 0 .lock, .step 0 .go] = some ⟨1, Function.update (Function.update
          (fun _ => .idle) 0 .lockCas) 0 .owner⟩ := rfl
    have first : queue n 0 = ⟨1, Function.update (Function.update
        (fun _ => .idle) 0 .lockCas) 0 .owner⟩ := by
      refine State.ext rfl (funext fun i => ?_)
      simp only [Function.update_idem]
      by_cases zero : i = 0
      · subst zero
        rw [Function.update_self]
        rfl
      · rw [Function.update_of_ne zero]
        simp [queue, zero]
    rw [first]
    exact System.reach_of_run .start locked
  | succ k ih => exact queue_grows room (ih (by omega))

/-- **`2 ^ 31` waiters are one too many.** Their count has wrapped to zero when the owner unlocks, so
`prev > 1` fails: nobody notifies, nobody is awake, and the mutex is free. -/
theorem parkingMutex_wakeup_lost :
    ¬ ∀ (variant : Variant) (Thread : Type) [DecidableEq Thread] [Fintype Thread]
      (state : State Thread Word Pc), (system variant Thread).Reachable state →
        state.memory &&& 1 = 0 → (∃ t, (state.thread t).asleep = true) →
          (∃ t, state.thread t = .notify) ∨ ∃ t, (state.thread t).awakeWaiter = true := by
  intro attended
  generalize count : 2 ^ 31 = n
  have word : (queue n n).memory = 1 := by
    show BitVec.ofNat 32 (2 * n + 1) = 1
    rw [← count]
    rfl
  have called : (system .plain (Fin (n + 1))).next (queue n n) (.call 0 .unlock) =
      some ⟨1, Function.update (queue n n).thread 0 .unlock⟩ := by
    rw [← word]
    rfl
  have cleared : (program .plain).step .go 1 (Function.update (queue n n).thread 0 .unlock 0) =
      some (0, .idle) := by
    rw [Function.update_self]
    rfl
  have reached := Program.reachable_alone
    ((queue_reachable n n (Nat.lt_succ_self n)).step trivial called)
    ((Program.alone_cons cleared []).trans rfl)
  rw [Function.update_idem] at reached
  have asleep : ∀ i : Fin (n + 1), i ≠ 0 → ∃ expected,
      Function.update (queue n n).thread 0 .idle i = .wait false expected .asleep := by
    intro i nonzero
    have positive : i.val ≠ 0 := fun equal => nonzero (Fin.ext equal)
    rw [Function.update_of_ne nonzero]
    simp only [queue, if_neg positive, if_pos (Nat.lt_succ_iff.mp i.isLt)]
    exact ⟨_, rfl⟩
  have resting : ∀ i : Fin (n + 1), Function.update (queue n n).thread 0 .idle i ≠ .notify ∧
      (Function.update (queue n n).thread 0 .idle i).awakeWaiter = false := by
    intro i
    by_cases zero : i = 0
    · subst zero
      rw [Function.update_self]
      exact ⟨nofun, rfl⟩
    · obtain ⟨expected, sleeping⟩ := asleep i zero
      rw [sleeping]
      exact ⟨nofun, rfl⟩
  obtain ⟨expected, sleeping⟩ := asleep ⟨1, by omega⟩ (by simp [Fin.ext_iff])
  have sleeper : (Function.update (queue n n).thread 0 .idle ⟨1, by omega⟩).asleep = true := by
    rw [sleeping]
    rfl
  have free : (0 : Word) &&& 1 = 0 := rfl
  rcases attended .plain _ _ reached free ⟨⟨1, by omega⟩, sleeper⟩ with ⟨t, due⟩ | ⟨t, awake⟩
  · exact (resting t).1 due
  · exact Bool.false_ne_true ((resting t).2.symm.trans awake)

end Overflow

end NovaSync.ParkingMutex
