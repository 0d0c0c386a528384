/-
**`fast_kqueue_mutex`: no wakeup is lost in a coalescing kernel object.**

The user event of the kqueue is a flag: two notifications that nobody retrieves in between are one, and the waiter
who retrieves it may be one that is about to give up. `kevent_until` takes it for its timeout, and `lock_slow`
retrieves it without a `consume_lock` of its own.

* `Pc.roused` — a waiter that has retrieved an event, or has left its wait otherwise, and has not seen a held mutex
  since. `roused_step`: on a free mutex it stays roused, or becomes the owner.
* `wait_event` — whoever takes the user event in its wait is roused by it.
* `Attended` — while the lock bit is clear and somebody waits, the flag is set, an `unlock` has yet to set it, or
  a waiter is roused (`Served`).
* `fastKqueueMutex_no_lost_wakeup` — the blocking operations, with at most `2 ^ 31` actors;
  `fastKqueueMutex_async_notified` — asynchronous operations, where each registers in time.
-/

import NovaSync.Mutex.FastKqueueMutexDeadlines
import NovaSync.Mutex.FastAsyncMutexSafety

set_option linter.unusedSectionVars false

namespace NovaSync.FastKqueueMutex

open Concurrency Detail FastAsyncMutex
open ParkingMutex (Word FreeWord free_iff acquired_eq)

/-! ### Roused waiters -/

/-- **A waiter that will look at the mutex again.** It has left its wait and not seen a held mutex since; one in
`kevent_until` still has its timer to remove and its last attempt to make. -/
def roused : Pc KqueuePoint → Bool
  | .acquireCas _ true _ | .drainWoken _ | .reload _ => true
  | .wait (.deadline _) (.keventUntil (.deleteTimer _)) => true
  | .tryLoad .last | .tryCas .last _ => true
  | _ => false

/-- The wait at a place is the one of its operation: only `try_lock_until` is in `kevent_until`. -/
def matched : Pc KqueuePoint → Bool
  | .wait (.deadline _) _ => true
  | .wait _ (.keventUntil _) => false
  | _ => true

section Places

variable {resolve : Choice ⊕ Kevent} {memory after : Memory Kqueue} {pc moved : Pc KqueuePoint}

theorem park_matched (waiting : Waiting) (polled : Bool) (s : Word) :
    matched (park kqueue waiting polled s) = true := by
  unfold park
  split
  · rfl
  · cases waiting <;> rfl

theorem tryLoop_matched (caller : Caller) (s : Word) : matched (tryLoop kqueue caller s) = true := by
  unfold tryLoop
  split
  · rfl
  · cases caller with
    | deadline clock => cases clock <;> rfl
    | _ => rfl

theorem spinNext_matched (waiting : Waiting) (s : Word) (loop : SpinLoop) :
    matched (spinNext waiting s loop : Pc KqueuePoint) = true := by
  rcases loop with (_ | _) | _ <;> rfl

/-- An exchange goes on to one of two places. -/
theorem matched_of_exchange {choice : Choice} {s : Word} {exchanged : Memory Kqueue}
    {owner failed : Pc KqueuePoint}
    (stepped : (compareExchangeWeak choice memory.word s).map (fun done =>
      if done then (exchanged, owner) else (memory, failed)) = some (after, moved))
    (owns : matched owner = true) (fails : matched failed = true) : matched moved = true := by
  rcases compareExchangeWeak_cases stepped with ⟨-, -, result⟩ | ⟨-, result⟩ <;> cases result
  · exact owns
  · exact fails

theorem atomicStep_matched {choice : Choice}
    (stepped : atomicStep kqueue choice memory pc = some (after, moved)) : matched moved = true := by
  cases pc with
  | wait | drainWoken | drainOwned | acquireDrain => cases stepped
  | idle | owner | manual | guard | dismissed => cases stepped
  | lockCas | forCas =>
    simp only [atomicStep] at stepped
    exact matched_of_exchange stepped rfl rfl
  | spin waiting s state =>
    simp only [atomicStep] at stepped
    split at stepped
    · exact matched_of_exchange stepped (spinNext_matched _ _ _) (spinNext_matched _ _ _)
    · cases (ordinary_eq_some stepped).2
      exact spinNext_matched _ _ _
  | relative =>
    cases choice with
    | go | expired =>
      cases stepped
      rfl
    | _ => cases stepped
  | acquireCas waiting polled s =>
    exact matched_of_exchange stepped rfl (park_matched _ _ _)
  | tryCas caller s =>
    refine matched_of_exchange stepped ?_ (tryLoop_matched _ _)
    cases caller <;> rfl
  | register waiting | reload waiting =>
    cases (ordinary_eq_some stepped).2
    exact park_matched _ _ _
  | tryLoad caller =>
    cases (ordinary_eq_some stepped).2
    exact tryLoop_matched _ _
  | remove guard | post guard =>
    cases (ordinary_eq_some stepped).2
    cases guard <;> rfl
  | unlock guard =>
    cases (ordinary_eq_some stepped).2
    split
    · rfl
    · cases guard <;> rfl
  | guardAdd async =>
    cases (ordinary_eq_some stepped).2
    cases async <;> rfl
  | spinLoad | removeOwned | manualAdd | arming =>
    cases (ordinary_eq_some stepped).2
    rfl
  | armed =>
    cases choice with
    | go =>
      simp only [atomicStep] at stepped
      split at stepped <;> cases stepped
      rfl
    | interrupted =>
      cases stepped
      rfl
    | _ => cases stepped
  | fired =>
    cases choice with
    | go | interrupted =>
      cases stepped
      rfl
    | _ => cases stepped

theorem woken_standing (waiting : Waiting) :
    roused (woken kqueue waiting) = true ∧ matched (woken kqueue waiting) = true := by
  cases waiting <;> exact ⟨rfl, rfl⟩

/-- A wait that has ended goes on at a place that is matched. -/
theorem waited_matched (waiting : Waiting) (result : Bool) :
    matched (waited kqueue waiting (.inr result)) = true := by
  cases result with
  | true => exact (woken_standing waiting).2
  | false =>
    cases waiting with
    | lock => exact (woken_standing .lock).2
    | relative | deadline => rfl

/-- A `kevent_for` inside a wait. -/
theorem keventFor_event {queue kernel : Kqueue} {point : KeventFor} {result : KeventFor ⊕ Bool}
    (stepped : point.step resolve queue = some (kernel, result)) :
    kernel.triggered = queue.triggered ∨ result = .inr true := by
  rcases KeventFor.step_cases stepped with ⟨-, -, -, fired⟩ | ⟨-, left, -⟩ | ⟨left, -⟩
  · exact Or.inr fired
  · exact Or.inl left
  · exact Or.inl left

/-- **A step of `kevent_until`** that takes the user event goes to `EV_DELETE`, or returns `true`. -/
theorem keventUntil_event {queue kernel : Kqueue} {point : KeventUntil} {result : KeventUntil ⊕ Bool}
    (stepped : point.step false resolve queue = some (kernel, result)) :
    kernel.triggered = queue.triggered ∨ (∃ found, result = .inl (.deleteTimer found)) ∨ result = .inr true := by
  cases point with
  | addTimer =>
    rcases resolve with (_ | _ | _ | _ | _) | _ <;> cases stepped <;> exact Or.inl rfl
  | wait =>
    rcases resolve with _ | outcome
    · cases stepped
    · obtain ⟨called, retrieved, same⟩ := Option.map_eq_some_iff.mp stepped
      rcases Kqueue.kevent_cases retrieved with ⟨rfl, -, -⟩ | ⟨-, left⟩
      · cases same
        exact Or.inr (Or.inl ⟨false, rfl⟩)
      · cases same
        exact Or.inl left
  | deleteTimer found =>
    rcases resolve with choice | _
    · cases (ordinary_eq_some stepped).2
      exact Or.inl rfl
    · cases stepped
  | deadline =>
    rcases resolve with (_ | _ | _ | _ | _) | _ <;> cases stepped <;> exact Or.inl rfl
  | steady point =>
    obtain ⟨⟨after, inner⟩, steps, same⟩ := Option.map_eq_some_iff.mp stepped
    rcases keventFor_event steps with left | fired
    · rcases inner with next | _ | _ <;> cases same <;> exact Or.inl left
    · subst fired
      cases same
      exact Or.inr (Or.inr rfl)

/-- **Whoever retrieves the user event in its wait is roused by it**; others leave the flag. A wait goes on at a
place that is matched. -/
theorem wait_event {waiting : Waiting} {point : KqueuePoint} {kernel : Kqueue} {result : KqueuePoint ⊕ Bool}
    (inside : matched (.wait waiting point) = true)
    (waits : kqueue.wait resolve memory.kernel point = some (kernel, result)) :
    (kernel.triggered = memory.kernel.triggered ∨ roused (waited kqueue waiting result) = true) ∧
      matched (waited kqueue waiting result) = true := by
  cases point with
  | kevent =>
    rcases resolve with _ | outcome
    · cases waits
    · obtain ⟨called, -, same⟩ := Option.map_eq_some_iff.mp waits
      cases same
      exact ⟨Or.inr (woken_standing waiting).1, waited_matched waiting true⟩
  | keventFor point =>
    obtain ⟨⟨after, inner⟩, steps, same⟩ := Option.map_eq_some_iff.mp waits
    have event := keventFor_event steps
    rcases inner with next | result <;> cases same
    · refine ⟨Or.inl (event.resolve_right nofun), ?_⟩
      cases waiting <;> rfl
    · refine ⟨?_, waited_matched waiting result⟩
      rcases event with left | fired
      · exact Or.inl left
      · cases fired
        exact Or.inr (woken_standing waiting).1
  | keventUntil point =>
    cases waiting with
    | lock | relative => cases inside
    | deadline clock =>
      obtain ⟨⟨after, inner⟩, steps, same⟩ := Option.map_eq_some_iff.mp waits
      have event := keventUntil_event steps
      rcases inner with next | result <;> cases same
      · refine ⟨?_, rfl⟩
        rcases event with left | ⟨found, deletes⟩ | fired
        · exact Or.inl left
        · cases deletes
          exact Or.inr rfl
        · cases fired
      · refine ⟨?_, waited_matched _ result⟩
        rcases event with left | ⟨found, deletes⟩ | fired
        · exact Or.inl left
        · cases deletes
        · cases fired
          exact Or.inr (woken_standing _).1

theorem kernelStep_matched (inside : matched pc = true)
    (stepped : kernelStep kqueue resolve memory pc = some (after, moved)) : matched moved = true := by
  cases pc with
  | wait waiting point =>
    obtain ⟨⟨kernel, result⟩, waits, same⟩ := Option.map_eq_some_iff.mp stepped
    cases same
    exact (wait_event inside waits).2
  | drainWoken | drainOwned =>
    obtain ⟨kernel, -, same⟩ := Option.map_eq_some_iff.mp stepped
    cases same
    rfl
  | acquireDrain active guard =>
    obtain ⟨kernel, -, same⟩ := Option.map_eq_some_iff.mp stepped
    cases same
    cases active <;> rfl
  | _ => cases stepped

theorem step_matched (inside : matched pc = true)
    (stepped : step kqueue resolve memory pc = some (after, moved)) : matched moved = true := by
  rcases Option.or_eq_some_iff.mp stepped with atomic | ⟨-, called⟩
  · obtain ⟨choice, -, taken⟩ := Option.bind_eq_some_iff.mp atomic
    exact atomicStep_matched taken
  · exact kernelStep_matched inside called

theorem park_roused {s : Word} (waiting : Waiting) (free : s &&& 1 = 0) :
    roused (park kqueue waiting true s) = true := by
  rw [park, dif_pos free]
  rfl

/-- **On a free mutex a roused waiter stays roused, or becomes the owner.** -/
theorem roused_step (active : roused pc = true) (free : memory.word &&& 1 = 0)
    (stepped : step kqueue resolve memory pc = some (after, moved)) :
    roused moved = true ∨ moved.holds = true := by
  rcases Option.or_eq_some_iff.mp stepped with atomic | ⟨-, called⟩
  · obtain ⟨choice, -, taken⟩ := Option.bind_eq_some_iff.mp atomic
    cases pc with
    | acquireCas waiting polled s =>
      cases polled with
      | false => cases active
      | true =>
        rcases compareExchangeWeak_cases taken with ⟨-, -, same⟩ | ⟨-, same⟩ <;> cases same
        · exact Or.inr rfl
        · exact Or.inl (park_roused waiting free)
    | reload waiting =>
      cases (ordinary_eq_some taken).2
      exact Or.inl (park_roused waiting free)
    | tryLoad caller =>
      cases caller with
      | last =>
        cases (ordinary_eq_some taken).2
        rw [tryLoop_free free]
        exact Or.inl rfl
      | _ => cases active
    | tryCas caller s =>
      cases caller with
      | last =>
        rcases compareExchangeWeak_cases taken with ⟨-, -, same⟩ | ⟨-, same⟩ <;> cases same
        · exact Or.inr rfl
        · rw [tryLoop_free free]
          exact Or.inl rfl
      | _ => cases active
    | wait | drainWoken => cases taken
    | _ => cases active
  · cases pc with
    | wait waiting point =>
      cases waiting with
      | lock | relative => cases active
      | deadline clock =>
        obtain ⟨⟨kernel, result⟩, waits, same⟩ := Option.map_eq_some_iff.mp called
        cases same
        cases point with
        | kevent | keventFor => cases active
        | keventUntil point =>
          cases point with
          | deleteTimer found =>
            obtain ⟨⟨after, inner⟩, steps, same⟩ := Option.map_eq_some_iff.mp waits
            rcases resolve with choice | _
            · cases (ordinary_eq_some steps).2
              cases same
              cases found <;> exact Or.inl rfl
            · cases steps
          | _ => cases active
    | drainWoken waiting =>
      obtain ⟨kernel, -, same⟩ := Option.map_eq_some_iff.mp called
      cases same
      exact Or.inl rfl
    | acquireCas | reload | tryLoad | tryCas => cases called
    | _ => cases active

end Places

/-! ### Who looks after a free mutex -/

variable {Actor : Type*} [DecidableEq Actor] [Fintype Actor]

/-- **The next wakeup is on its way.** -/
def Served (state : KqueueState Actor) : Prop :=
  state.memory.kernel.triggered = true ∨ (∃ t, (state.thread t).role = .posting) ∨
    ∃ t, roused (state.thread t) = true

/-- The actor waits to be woken; `async` says whether asynchronous operations count. -/
def waits (async : Bool) (pc : Pc KqueuePoint) : Bool :=
  match pc.role with
  | .blocked => true
  | .awaiting => async
  | _ => false

/-- **While the mutex is free and somebody waits, the next wakeup is on its way.** -/
def Attended (async : Bool) (state : KqueueState Actor) : Prop :=
  state.memory.word &&& 1 = 0 → (∃ t, waits async (state.thread t) = true) → Served state

section Attended

variable {state : KqueueState Actor} {t : Actor} {memory : Memory Kqueue} {moved : Pc KqueuePoint}
  {resolve : Choice ⊕ Kevent}

theorem registered_of_waits {async : Bool} {pc : Pc KqueuePoint} (waiting : waits async pc = true) :
    pc.registered = true := by
  cases pc with
  | wait | arming | armed | fired => rfl
  | acquireCas _ polled => rfl
  | tryLoad caller | tryCas caller =>
    cases caller with
    | asyncFired => rfl
    | _ => cases waiting
  | _ => cases waiting

/-- A roused waiter is registered, does not own the mutex, and has not cleared the bit. -/
theorem roused_standing {pc : Pc KqueuePoint} (active : roused pc = true) :
    pc.registered = true ∧ pc.holds = false ∧ pc.removes = false := by
  cases pc with
  | acquireCas _ polled => exact ⟨rfl, rfl, rfl⟩
  | drainWoken | reload | wait => exact ⟨rfl, rfl, rfl⟩
  | tryLoad caller | tryCas caller =>
    cases caller with
    | last => exact ⟨rfl, rfl, rfl⟩
    | _ => cases active
  | _ => cases active

/-- **A move that leaves the flag set**, and does not end a wakeup. -/
theorem Served.move (served : Served state)
    (kernel : state.memory.kernel.triggered = true → memory.kernel.triggered = true ∨ roused moved = true)
    (source : (state.thread t).role ≠ .posting)
    (active : roused (state.thread t) = true → roused moved = true) :
    Served ⟨memory, Function.update state.thread t moved⟩ := by
  have rouses : roused moved = true → Served ⟨memory, Function.update state.thread t moved⟩ := fun here =>
    Or.inr (Or.inr ⟨t, by simp only [Function.update_self]; exact here⟩)
  rcases served with token | ⟨v, posting⟩ | ⟨v, attending⟩
  · rcases kernel token with token | here
    · exact Or.inl token
    · exact rouses here
  · have other : v ≠ t := fun same => by
      subst same
      exact source posting
    exact Or.inr (Or.inl ⟨v, by simp only [Function.update_of_ne other]; exact posting⟩)
  · by_cases same : v = t
    · subst same
      exact rouses (active attending)
    · exact Or.inr (Or.inr ⟨v, by simp only [Function.update_of_ne same]; exact attending⟩)

/-- Who waits after a move to a place where nobody does waited before. -/
theorem waits_before {async : Bool} (elsewhere : waits async moved = false)
    (waiting : ∃ u, waits async (Function.update state.thread t moved u) = true) :
    ∃ u, u ≠ t ∧ waits async (state.thread u) = true := by
  obtain ⟨u, here⟩ := waiting
  exact ⟨u, ne_of_update (waits async) elsewhere here⟩

/-- A registered waiter is counted by the word that `unlock` reads: `prev > 1`. -/
theorem unlock_posts (represented : Represented state) (few : Fintype.card Actor ≤ 2 ^ 31) {guard : Bool}
    {u : Actor} (here : state.thread t = .unlock guard)
    (registered : (state.thread u).registered = true) : state.memory.word > 1 := by
  obtain ⟨word, single, -⟩ := represented
  have waiting : 0 < waiters state := count_pos registered
  have owning : 0 < owners state := count_pos (t := t) (by rw [here]; rfl)
  have unlocking : 0 < count (fun pc => decide (pc = .unlock guard)) state.thread :=
    count_pos (t := t) (decide_eq_true here)
  have bound : waiters state + count (fun pc => decide (pc = .unlock guard)) state.thread ≤
      Fintype.card Actor := count_add_count_le_card fun v there => by
    refine decide_eq_false fun leaving => ?_
    rw [leaving] at there
    cases there
  bv_omega

/-- The invariant: whoever waits on a free mutex is looked after, and waits where its operation does. -/
structure Sound (async : Bool) (state : KqueueState Actor) : Prop where
  attended : Attended async state
  matched : ∀ t, matched (state.thread t) = true

/-- What does not wait before and waits afterwards has seen a held mutex, or has just registered. -/
theorem Attended.kept {async : Bool} (attended : Attended async state)
    (free : state.memory.word &&& 1 = 0)
    (waiting : ∃ u, waits async (Function.update state.thread t moved u) = true)
    (before : waits async moved = true → waits async (state.thread t) = true) : Served state := by
  obtain ⟨u, here⟩ := waiting
  rcases update_cases (waits async) here with ⟨-, mine⟩ | ⟨-, other⟩
  · exact attended free ⟨t, before mine⟩
  · exact attended free ⟨u, other⟩

/-- **A move of one actor**: it waits afterwards only if it waited before or has seen a held mutex. -/
theorem Attended.moves {async : Bool} (attended : Attended async state)
    (inside : Moves state.memory.word (state.thread t) moved)
    (active : state.memory.word &&& 1 = 0 → roused (state.thread t) = true → roused moved = true) :
    Attended async ⟨state.memory, Function.update state.thread t moved⟩ := by
  intro free waiting
  have served : Served state := attended.kept free waiting fun mine => by
    rcases inside.role with same | ⟨-, plain⟩ | ⟨-, held⟩
    · unfold waits at mine ⊢
      rw [← same]
      exact mine
    · unfold waits at mine
      rw [plain] at mine
      cases mine
    · exact absurd free held
  exact served.move Or.inl inside.source.1 (active free)

/-- **One step of one actor.** An asynchronous operation that registers on a free mutex has to find the next
wakeup on its way. -/
theorem Attended.step {async : Bool} (attended : Attended async state) (inside : matched (state.thread t) = true)
    (represented : Represented state) (few : Fintype.card Actor ≤ 2 ^ 31)
    (inTime : async = true → state.thread t = .guardAdd true →
      state.memory.word &&& 1 ≠ 0 ∨ Served state)
    (stepped : FastAsyncMutex.step kqueue resolve state.memory (state.thread t) = some (memory, moved)) :
    Attended async ⟨memory, Function.update state.thread t moved⟩ := by
  have rouses : state.memory.word &&& 1 = 0 → moved.holds = false →
      roused (state.thread t) = true → roused moved = true := fun free outside active =>
    (roused_step active free stepped).resolve_right (by simp [outside])
  cases step_effect stepped with
  | moves moves =>
    refine attended.moves moves fun free active => rouses free ?_ active
    rw [moves.holds]
    exact (roused_standing active).2.1
  | @waits waiting point kernel result here taken =>
    rw [here] at inside
    obtain ⟨event, -⟩ := wait_event inside taken
    intro free waiting'
    have blocked : (state.thread t).role = .blocked := by
      rw [here]
      rfl
    have served : Served state := attended free ⟨t, by unfold FastKqueueMutex.waits; rw [blocked]⟩
    refine served.move (fun set => ?_) (by simp [blocked]) (rouses free ?_)
    · rcases event with left | active
      · exact Or.inl (left.trans set)
      · exact Or.inr active
    · rcases result with next | _ | _ <;> cases waiting <;> rfl
  | consumeWoken here =>
    rintro - -
    exact Or.inr (Or.inr ⟨t, by simp only [Function.update_self]; rfl⟩)
  | consumeOwned here | consumeAcquired here =>
    have positive : 0 < owners state := count_pos (t := t) (by rw [here]; rfl)
    have single := represented.single
    intro free
    exact absurd free (represented.held_iff.mpr (by omega))
  | post here =>
    rintro - -
    exact Or.inl rfl
  | acquire free =>
    intro free'
    simp only at free'
    rw [free_iff] at free free'
    bv_omega
  | takeOver word free =>
    intro free'
    simp only [Memory.exchange] at free'
    rw [acquired_eq free] at free'
    rw [free_iff] at free free'
    bv_omega
  | add fresh _ plain _ _ role =>
    rintro free ⟨u, waits⟩
    simp only [Memory.add] at free waits
    rw [and_one_add_two] at free
    have served : Served state := by
      rcases update_cases (FastKqueueMutex.waits async) waits with ⟨-, here⟩ | ⟨-, before⟩
      · rcases role with plain | ⟨-, held⟩ | ⟨registers, rfl⟩
        · unfold FastKqueueMutex.waits at here
          rw [plain] at here
          cases here
        · exact absurd free held
        · rcases inTime here registers with held | served
          · exact absurd free held
          · exact served
      · exact attended free ⟨u, before⟩
    refine served.move Or.inl (by simp [plain]) fun active => ?_
    rw [(roused_standing active).1] at fresh
    cases fresh
  | remove _ plain _ _ plain' removes =>
    rintro free waiting
    simp only [Memory.remove] at free waiting
    rw [and_one_sub_two] at free
    have leaves : waits async moved = false := by
      unfold waits
      rw [plain']
    obtain ⟨u, -, before⟩ := waits_before leaves waiting
    refine (attended free ⟨u, before⟩).move Or.inl (by simp [plain]) fun active => ?_
    rw [(roused_standing active).2.2] at removes
    cases removes
  | @unlock guard here =>
    rintro - waiting
    have leaves : waits async (if state.memory.word > 1 then .post guard else rest guard) = false := by
      split
      · rfl
      · cases guard <;> rfl
    obtain ⟨u, -, before⟩ := waits_before leaves waiting
    refine Or.inr (Or.inl ⟨t, ?_⟩)
    simp only [Function.update_self, if_pos (unlock_posts represented few here (registered_of_waits before))]
    rfl

/-- A roused waiter is inside its operation and calls no other. -/
theorem roused_call {op : Op} {pc : Pc KqueuePoint} (called : call kqueue op pc = some moved) :
    roused pc = false ∧ matched moved = true := by
  unfold call at called
  split at called
  case h_3 positive =>
    cases called
    cases positive <;> exact ⟨rfl, rfl⟩
  case h_12 active | h_13 active | h_14 active =>
    cases called
    cases active <;> exact ⟨rfl, rfl⟩
  all_goals
    cases called
    try exact ⟨rfl, rfl⟩

theorem Sound.matched_update {async : Bool} (sound : Sound async state)
    (inside : FastKqueueMutex.matched moved = true)
    (u : Actor) : FastKqueueMutex.matched (Function.update state.thread t moved u) = true := by
  by_cases same : u = t
  · rw [same, Function.update_self]
    exact inside
  · rw [Function.update_of_ne same]
    exact sound.matched u

/-- **Every run in which each asynchronous operation registers in time.** -/
theorem sound_of_reach {async : Bool}
    {allowed : KqueueState Actor → Action Actor Op (Choice ⊕ Kevent) → Prop}
    (few : Fintype.card Actor ≤ 2 ^ 31)
    (inTime : async = true → ∀ state t choice, allowed state (.step t choice) →
      state.thread t = .guardAdd true → state.memory.word &&& 1 ≠ 0 ∨ Served state)
    {state : KqueueState Actor} (reached : (system kqueue {} Actor).Reach allowed state) :
    Sound async state := by
  have start : Sound async (system kqueue {} Actor).start := by
    refine ⟨?_, fun _ => rfl⟩
    rintro - ⟨t, waiting⟩
    cases waiting
  refine reached.invariant start fun state action after before sound met taken => ?_
  have represented := represented_of_reachable before.reachable
  rcases (program_silent kqueue).next_cases taken with ⟨t, op, moved, rfl, called, rfl⟩ |
    ⟨t, choice, memory, moved, rfl, stepped, rfl⟩
  · obtain ⟨inactive, inside⟩ := roused_call called
    refine ⟨sound.attended.moves (call_moves _ called) fun _ active => ?_, sound.matched_update inside⟩
    rw [inactive] at active
    cases active
  · have inside := step_matched (sound.matched t) stepped
    have attended := sound.attended.step (sound.matched t) represented few
      (fun counts => inTime counts _ _ _ met) stepped
    exact ⟨attended, sound.matched_update inside⟩

end Attended

/-! ### The blocking operations -/

/-- A roused waiter is not blocked: it can go on at once. -/
theorem roused_enabled {pc : Pc KqueuePoint} (active : roused pc = true) (memory : Memory Kqueue) :
    ∃ resolve after, FastAsyncMutex.step kqueue resolve memory pc = some after := by
  cases pc with
  | acquireCas waiting polled s => exact ⟨.inl .spurious, _, rfl⟩
  | reload waiting => exact ⟨.inl .go, _, rfl⟩
  | tryLoad caller => exact ⟨.inl .go, _, rfl⟩
  | tryCas caller s => exact ⟨.inl .spurious, _, rfl⟩
  | drainWoken waiting =>
    -- a `consume_lock` takes the flag if it is set, and finds nothing otherwise
    cases set : memory.kernel.triggered with
    | true =>
      refine ⟨.inr (.event .user), ({ memory with kernel := { memory.kernel with triggered := false } },
        .reload waiting), ?_⟩
      simp [FastAsyncMutex.step, kernelStep, kqueue, Kqueue.kevent, Kqueue.retrieve, set]
    | false =>
      refine ⟨.inr .expired, (memory, .reload waiting), ?_⟩
      simp [FastAsyncMutex.step, kernelStep, kqueue, Kqueue.kevent, set]
  | wait waiting point =>
    cases waiting with
    | lock | relative => cases active
    | deadline clock =>
      cases point with
      | kevent | keventFor => cases active
      | keventUntil point =>
        cases point with
        | deleteTimer found => exact ⟨.inl .go, _, rfl⟩
        | _ => cases active
  | _ => cases active

/-- **The blocking operations lose no wakeup.** With at most `2 ^ 31` actors, while the lock bit is clear and
somebody is in its wait, the flag is set, or an `unlock` has yet to set it, or a waiter is roused: it can go on,
and each of its steps leaves it roused or makes it the owner. -/
theorem fastKqueueMutex_no_lost_wakeup (few : Fintype.card Actor ≤ 2 ^ 31) {state : KqueueState Actor}
    (reached : (system kqueue {} Actor).Reachable state) (free : state.memory.word &&& 1 = 0)
    (sleeper : ∃ t, (state.thread t).role = .blocked) :
    state.memory.kernel.triggered = true ∨ (∃ t, (state.thread t).role = .posting) ∨
      ∃ t, roused (state.thread t) = true ∧
        (∃ resolve after, (system kqueue {} Actor).next state (.step t resolve) = some after) ∧
        ∀ resolve after, (system kqueue {} Actor).next state (.step t resolve) = some after →
          roused (after.thread t) = true ∨ (after.thread t).holds = true := by
  obtain ⟨u, blocked⟩ := sleeper
  have sound : Sound false state := sound_of_reach few nofun reached
  rcases sound.attended free ⟨u, by unfold waits; rw [blocked]⟩ with set | posting | ⟨t, active⟩
  · exact Or.inl set
  · exact Or.inr (Or.inl posting)
  · refine Or.inr (Or.inr ⟨t, active, ?_, fun resolve after taken => ?_⟩)
    · obtain ⟨resolve, after, stepped⟩ := roused_enabled active state.memory
      exact ⟨resolve, _, Program.next_step_eq stepped⟩
    · obtain ⟨⟨memory, moved⟩, stepped, rfl⟩ := Option.map_eq_some_iff.mp taken
      simp only [Function.update_self]
      exact roused_step active free stepped

/-- Actors 1 and 2 are blocked when actor 0 unlocks. Actor 2 takes the one notification in `kevent_until`, as its
timeout. -/
theorem fastKqueueMutex_no_lost_wakeup_timeout :
    ∃ state, (system kqueue {} (Fin 3)).Reachable state ∧ (state.thread 1).role = .blocked ∧
      state.memory.kernel.triggered = false ∧ ∃ t, roused (state.thread t) = true := by
  obtain ⟨state, reached, computed⟩ := System.exists_reachable_of_run (system kqueue {} (Fin 3))
    [.call 0 .lock, .step 0 (.inl .go), .call 1 (.tryLockFor true), .step 1 (.inl .go), .step 1 (.inl .go),
      .call 2 (.tryLockUntil .system), .step 2 (.inl .go), .step 2 (.inl .go), .step 2 (.inl .go),
      .call 0 .unlock, .step 0 (.inl .go), .step 0 (.inl .go), .step 2 (.inr (.event .user))]
    (fun state => decide (state.memory.word &&& 1 = 0 ∧ (state.thread 1).role = .blocked ∧
      state.memory.kernel.triggered = false ∧ ∀ t, (state.thread t).role ≠ .posting))
    (by decide +kernel)
  obtain ⟨free, blocked, clear, quiet⟩ := of_decide_eq_true computed
  refine ⟨state, reached, blocked, clear, ?_⟩
  rcases fastKqueueMutex_no_lost_wakeup (by decide) reached free ⟨1, blocked⟩ with
    set | ⟨t, posting⟩ | ⟨t, active, -⟩
  · rw [clear] at set
    cases set
  · exact absurd posting (quiet t)
  · exact ⟨t, active⟩

/-! ### Asynchronous operations -/

instance (state : KqueueState Actor) : Decidable (Served state) :=
  inferInstanceAs (Decidable (_ ∨ _ ∨ _))

/-- **An asynchronous operation registers in time**: while the mutex is held, or with the next wakeup on its
way. -/
def InTime (state : KqueueState Actor) (t : Actor) : Prop :=
  state.thread t = .guardAdd true → state.memory.word &&& 1 ≠ 0 ∨ Served state

instance (state : KqueueState Actor) : DecidablePred (InTime state) :=
  fun t => inferInstanceAs (Decidable (state.thread t = .guardAdd true → _))

/-- **An armed asynchronous operation is notified of a free mutex**, where every asynchronous operation registers
in time: with everybody else outside the mutex's operations, the flag is set. -/
theorem fastKqueueMutex_async_notified (few : Fintype.card Actor ≤ 2 ^ 31) {state : KqueueState Actor}
    (reached : (system kqueue {} Actor).Reach (OnStep InTime) state) {t : Actor}
    (armed : state.thread t = .armed) (free : state.memory.word &&& 1 = 0)
    (outside : ∀ u, u ≠ t → (state.thread u).outside = true) : state.memory.kernel.triggered = true := by
  have sound : Sound true state :=
    sound_of_reach few (fun _ _ _ _ met registers => met registers) reached
  have idle : ∀ u, (state.thread u).outside = true := by
    intro u
    by_cases same : u = t
    · rw [same, armed]
      rfl
    · exact outside u same
  have apart : ∀ pc : Pc KqueuePoint, pc.outside = true → pc.role ≠ .posting ∧ roused pc = false := by
    intro pc rests
    cases pc with
    | idle | owner | manual | guard | dismissed | arming | armed | fired => exact ⟨nofun, rfl⟩
    | _ => cases rests
  rcases sound.attended free ⟨t, by rw [armed]; rfl⟩ with set | ⟨u, posting⟩ | ⟨u, active⟩
  · exact set
  · exact absurd posting (apart _ (idle u)).1
  · rw [(apart _ (idle u)).2] at active
    cases active

/-- Actors 1 and 2 register while actor 0 holds the mutex. Actor 0 unlocks, actor 1 locks and unlocks, and the
second notification is for actor 2. -/
theorem fastKqueueMutex_async_notified_second :
    ∃ state, (system kqueue {} (Fin 3)).Reach (OnStep InTime) state ∧ state.thread 2 = .armed ∧
      state.memory.added = 2 ∧ state.memory.removed = 1 ∧ state.memory.kernel.triggered = true := by
  obtain ⟨state, reached, computed⟩ := System.exists_reach_of_run (system kqueue {} (Fin 3)) (OnStep InTime)
    [.call 0 .lock, .step 0 (.inl .go),
      .call 1 .asyncAcquire, .step 1 (.inl .go), .step 1 (.inl .go), .step 1 (.inl .go),
      .call 2 .asyncAcquire, .step 2 (.inl .go), .step 2 (.inl .go), .step 2 (.inl .go),
      .call 0 .unlock, .step 0 (.inl .go), .step 0 (.inl .go),
      .step 1 (.inl .go), .step 1 (.inl .go), .step 1 (.inl .go), .step 1 (.inl .go),
      .step 1 (.inr (.event .user)), .step 1 (.inl .go),
      .call 1 .unlock, .step 1 (.inl .go), .step 1 (.inl .go)]
    (fun state => decide (state.thread 2 = .armed ∧ state.memory.added = 2 ∧ state.memory.removed = 1 ∧
      state.memory.word &&& 1 = 0 ∧ ∀ u, u ≠ 2 → (state.thread u).outside = true)) (by decide +kernel)
  obtain ⟨armed, added, removed, free, outside⟩ := of_decide_eq_true computed
  exact ⟨state, reached, armed, added, removed,
    fastKqueueMutex_async_notified (by decide) reached armed free outside⟩

end NovaSync.FastKqueueMutex
