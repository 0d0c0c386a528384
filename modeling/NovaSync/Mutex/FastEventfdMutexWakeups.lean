/-
**`fast_eventfd_mutex`: wakeups and stray notifications.**

* `Attended` — while the lock bit is clear and somebody waits, a token is in the eventfd, an `unlock` has
  yet to write one, or a waiter that has returned from its wait has yet to look at `state_`
  (`Served`). Tokens are taken by such waiters, who then look, or by owners, who will unlock.
* `fastEventfdMutex_no_lost_wakeup` — the blocking operations, with at most `2 ^ 31` actors;
  `fastEventfdMutex_wakeup_lost` is the wrapped count.
* `fastEventfdMutex_async_notified` — an armed asynchronous operation, where each of them registers
  while the mutex is held or served; `fastEventfdMutex_async_stranded` registers too late.
* `fastEventfdMutex_no_stray` — no token is left, where the last drain and the last removal leave none;
  `fastEventfdMutex_stray` is a waiter that times out before it is notified.
-/

import NovaSync.Mutex.FastAsyncMutexSafety

set_option linter.unusedSectionVars false

namespace NovaSync.FastAsyncMutex

open Concurrency Detail
open ParkingMutex (Word free_iff acquired_eq)

variable {Actor : Type*} [DecidableEq Actor] [Fintype Actor]

/-- A state of `fast_eventfd_mutex`; its kernel object is the counter. -/
abbrev EventfdState (Actor : Type*) := State Actor (Memory Eventfd) (Pc PollPoint)

/-! ### Who looks after a free mutex -/

/-- **The next wakeup is on its way.** -/
def Served (state : EventfdState Actor) : Prop :=
  0 < state.memory.kernel ∨ (∃ t, (state.thread t).role = .posting) ∨
    ∃ t, (state.thread t).role = .attending

instance (state : EventfdState Actor) : Decidable (Served state) :=
  inferInstanceAs (Decidable (_ ∨ _ ∨ _))

/-- The actor waits to be woken; `async` says whether asynchronous operations count. -/
def Role.waits (async : Bool) : Role → Bool
  | .blocked => true
  | .awaiting => async
  | _ => false

/-- **While the mutex is free and somebody waits, the next wakeup is on its way.** -/
def Attended (async : Bool) (state : EventfdState Actor) : Prop :=
  state.memory.word &&& 1 = 0 → (∃ t, (state.thread t).role.waits async = true) → Served state

theorem registered_of_waits {async : Bool} {pc : Pc PollPoint} (waits : pc.role.waits async = true) :
    pc.registered = true := by
  cases pc with
  | wait | arming | armed | fired => rfl
  | acquireCas _ polled => rfl
  | tryLoad caller | tryCas caller =>
    cases caller with
    | asyncFired => rfl
    | _ => cases waits
  | _ => cases waits

section Attended

variable {state : EventfdState Actor} {t : Actor} {memory : Memory Eventfd} {moved : Pc PollPoint}

/-- A move that leaves the counter and is neither the poster's nor ends an attendance. -/
theorem Served.move (served : Served state) (counter : memory.kernel = state.memory.kernel)
    (source : (state.thread t).role ≠ .posting)
    (attends : (state.thread t).role = .attending → moved.role = .attending) :
    Served ⟨memory, Function.update state.thread t moved⟩ := by
  rcases served with token | ⟨v, posting⟩ | ⟨v, attending⟩
  · refine Or.inl ?_
    rw [counter]
    exact token
  · refine Or.inr (Or.inl ⟨v, ?_⟩)
    by_cases same : v = t
    · subst same
      exact absurd posting source
    · simp only [Function.update_of_ne same]
      exact posting
  · refine Or.inr (Or.inr ⟨v, ?_⟩)
    by_cases same : v = t
    · subst same
      simp only [Function.update_self]
      exact attends attending
    · simp only [Function.update_of_ne same]
      exact attending

/-- The next wakeup is not up to an actor that is plain or blocked. -/
theorem Served.apart (served : Served state) (counter : memory.kernel = state.memory.kernel)
    (source : (state.thread t).role = .plain ∨ (state.thread t).role = .blocked) :
    Served ⟨memory, Function.update state.thread t moved⟩ := by
  refine served.move counter ?_ fun attending => ?_
  · rcases source with plain | blocked
    · rw [plain]
      decide
    · rw [blocked]
      decide
  · rcases source with plain | blocked
    · rw [plain] at attending
      cases attending
    · rw [blocked] at attending
      cases attending

/-- Who waits after a move to a place where nobody does waited before. -/
theorem waits_before {async : Bool} (elsewhere : moved.role.waits async = false)
    (waiting : ∃ u, (Function.update state.thread t moved u).role.waits async = true) :
    ∃ u, u ≠ t ∧ (state.thread u).role.waits async = true := by
  obtain ⟨u, waits⟩ := waiting
  exact ⟨u, ne_of_update (fun pc : Pc PollPoint => pc.role.waits async) elsewhere waits⟩

/-- A registered waiter is counted by the word that `unlock` reads: `prev > 1`. -/
theorem Represented.unlock_posts (represented : Represented state)
    (few : Fintype.card Actor ≤ 2 ^ 31) {guard : Bool} {u : Actor}
    (here : state.thread t = .unlock guard) (registered : (state.thread u).registered = true) :
    state.memory.word > 1 := by
  obtain ⟨word, single, -⟩ := represented
  have waiting : 0 < waiters state := count_pos registered
  have owning : 0 < owners state := count_pos (t := t) (by rw [here]; rfl)
  have unlocking : 0 < count (fun pc => decide (pc = .unlock guard)) state.thread :=
    count_pos (t := t) (decide_eq_true here)
  have bound : waiters state + count (fun pc => decide (pc = .unlock guard)) state.thread ≤
      Fintype.card Actor := count_add_count_le_card fun v there => by
    refine decide_eq_false fun leaving => ?_
    rw [leaving] at there
    cases there
  bv_omega

/-- A wait of the eventfd leaves the counter. -/
theorem eventfd_wait {choice : Choice} {counter kernel : Eventfd} {point : PollPoint}
    {result : PollPoint ⊕ Bool} (waited : eventfd.wait choice counter point = some (kernel, result)) :
    kernel = counter := by
  obtain ⟨next, -, same⟩ := Option.map_eq_some_iff.mp waited
  cases same
  rfl

/-- An owner drains while the lock bit is set. -/
theorem Represented.held_of_holds (represented : Represented state)
    (holds : (state.thread t).holds = true) : state.memory.word &&& 1 ≠ 0 := by
  have positive : 0 < owners state := count_pos holds
  have single := represented.single
  exact represented.held_iff.mpr (by omega)

/-- **A move of one actor**: it waits afterwards only if it waited before or has seen a held mutex. -/
theorem Attended.moves {async : Bool} (attended : Attended async state)
    (inside : Moves state.memory.word (state.thread t) moved) :
    Attended async ⟨state.memory, Function.update state.thread t moved⟩ := by
  rintro free ⟨u, waits⟩
  simp only at free waits
  have role : moved.role = (state.thread t).role ∨
      (state.thread t).role = .awaiting ∧ moved.role = .plain := by
    rcases inside.role with same | cancelled | ⟨-, held⟩
    · exact Or.inl same
    · exact Or.inr cancelled
    · exact absurd free held
  have before : ∃ u, (state.thread u).role.waits async = true := by
    rcases update_cases (fun pc : Pc PollPoint => pc.role.waits async) waits with
      ⟨-, here⟩ | ⟨-, before⟩
    · rcases role with same | ⟨-, plain⟩
      · rw [same] at here
        exact ⟨t, here⟩
      · rw [plain] at here
        cases here
    · exact ⟨u, before⟩
  refine (attended free before).move rfl inside.source.1 fun attending => ?_
  rcases role with same | ⟨awaiting, -⟩
  · rw [same]
    exact attending
  · rw [awaiting] at attending
    cases attending

/-- **One step of one actor.** An asynchronous operation that registers on a free mutex has to find the
next wakeup on its way. -/
theorem Attended.effect {async : Bool} (attended : Attended async state)
    (represented : Represented state) (few : Fintype.card Actor ≤ 2 ^ 31)
    (inTime : async = true → state.thread t = .guardAdd true →
      state.memory.word &&& 1 ≠ 0 ∨ Served state) {choice : Choice}
    (effect : Effect eventfd choice state.memory (state.thread t) memory moved) :
    Attended async ⟨memory, Function.update state.thread t moved⟩ := by
  cases effect with
  | moves inside => exact attended.moves inside
  | waits here waited =>
    rintro free -
    have blocked : (state.thread t).role = .blocked := by
      rw [here]
      rfl
    exact (attended free ⟨t, by rw [blocked]; rfl⟩).apart (eventfd_wait waited) (Or.inr blocked)
  | consumeWoken here =>
    rintro - -
    exact Or.inr (Or.inr ⟨t, by simp only [Function.update_self]; rfl⟩)
  | consumeOwned here | consumeAcquired here =>
    have held : state.memory.word &&& 1 ≠ 0 :=
      represented.held_of_holds (t := t) (by rw [here]; rfl)
    intro free
    exact absurd free held
  | post here =>
    rintro - -
    exact Or.inl (Nat.succ_pos _)
  | acquire free =>
    intro free'
    simp only at free'
    rw [free_iff] at free free'
    bv_omega
  | takeOver word free =>
    intro free'
    simp only [Memory.exchange] at free'
    rw [acquired_eq free] at free'
    rw [free_iff] at free free'
    bv_omega
  | add _ _ plain _ _ role =>
    rintro free ⟨u, waits⟩
    simp only [Memory.add] at free waits
    rw [and_one_add_two] at free
    have served : Served state := by
      rcases update_cases (fun pc : Pc PollPoint => pc.role.waits async) waits with
        ⟨-, here⟩ | ⟨-, before⟩
      · rcases role with plain | ⟨-, held⟩ | ⟨registers, rfl⟩
        · rw [plain] at here
          cases here
        · exact absurd free held
        · rcases inTime here registers with held | served
          · exact absurd free held
          · exact served
      · exact attended free ⟨u, before⟩
    exact served.apart rfl (Or.inl plain)
  | remove _ plain _ _ plain' =>
    rintro free waiting
    simp only [Memory.remove] at free waiting
    rw [and_one_sub_two] at free
    obtain ⟨u, -, before⟩ := waits_before (by rw [plain']; rfl) waiting
    exact (attended free ⟨u, before⟩).apart rfl (Or.inl plain)
  | @unlock guard here =>
    rintro - waiting
    have leaves : (if state.memory.word > 1 then .post guard else rest guard :
        Pc PollPoint).role.waits async = false := by
      split
      · rfl
      · rw [(rest_standing guard).2.2]
        rfl
    obtain ⟨u, -, before⟩ := waits_before leaves waiting
    refine Or.inr (Or.inl ⟨t, ?_⟩)
    simp only [Function.update_self,
      if_pos (represented.unlock_posts few here (registered_of_waits before))]
    rfl

end Attended

/-- **Every run in which each asynchronous operation registers in time.** -/
theorem attended_of_reach {async : Bool}
    {allowed : EventfdState Actor → Action Actor Op Choice → Prop} (few : Fintype.card Actor ≤ 2 ^ 31)
    (inTime : async = true → ∀ state t choice, allowed state (.step t choice) →
      state.thread t = .guardAdd true → state.memory.word &&& 1 ≠ 0 ∨ Served state)
    {state : EventfdState Actor} (reached : (system eventfd 0 Actor).Reach allowed state) :
    Attended async state := by
  refine reached.invariant ?_ fun state action after before attended met taken => ?_
  · rintro - ⟨t, waits⟩
    cases waits
  · obtain ⟨memory, moved, rfl, ⟨op, -, rfl, inside⟩ | ⟨choice, steps, effect⟩⟩ := next_effect taken
    · exact attended.moves inside
    · rw [steps] at met
      exact attended.effect (represented_of_reachable before.reachable) few
        (fun counts => inTime counts _ _ _ met) effect

/-! ### The blocking operations -/

/-- On a free mutex an attending waiter neither blocks nor leaves: its next step keeps it attending, or
makes it the owner. -/
theorem attending_step {choice : Choice} {memory after : Memory Eventfd} {pc moved : Pc PollPoint}
    (attending : pc.role = .attending) (free : memory.word &&& 1 = 0)
    (effect : Effect eventfd choice memory pc after moved) :
    moved.role = .attending ∨ moved = .drainOwned := by
  cases effect with
  | moves inside =>
    rcases inside.role with same | ⟨awaiting, -⟩ | ⟨-, held⟩
    · exact Or.inl (same.trans attending)
    · rw [awaiting] at attending
      cases attending
    · exact absurd free held
  | consumeWoken => exact Or.inl rfl
  | takeOver => exact Or.inr rfl
  | acquire _ _ _ _ _ role =>
    rw [attending] at role
    rcases role with plain | awaiting
    · cases plain
    · cases awaiting
  | add _ _ plain | remove _ plain =>
    rw [attending] at plain
    cases plain
  | waits here | consumeOwned here | consumeAcquired here | post here | unlock here =>
    rw [here] at attending
    cases attending

/-- **The blocking operations lose no wakeup.** With at most `2 ^ 31` actors, while the lock bit is clear
and somebody is blocked in its poll, the counter is positive, or an `unlock` has yet to write its token,
or a registered waiter is past its poll: none of its steps blocks it or lets it leave but as the
owner. -/
theorem fastEventfdMutex_no_lost_wakeup (few : Fintype.card Actor ≤ 2 ^ 31)
    {state : EventfdState Actor} (reached : (system eventfd 0 Actor).Reachable state)
    (free : state.memory.word &&& 1 = 0) (sleeper : ∃ t, (state.thread t).role = .blocked) :
    1 ≤ state.memory.kernel ∨ (∃ t, (state.thread t).role = .posting) ∨
      ∃ t, (state.thread t).role = .attending ∧ ∀ choice after,
        (system eventfd 0 Actor).next state (.step t choice) = some after →
          (after.thread t).role = .attending ∨ after.thread t = .drainOwned := by
  obtain ⟨u, blocked⟩ := sleeper
  have attended : Attended false state := attended_of_reach few nofun reached
  rcases attended free ⟨u, by rw [blocked]; rfl⟩ with token | posting | ⟨t, attending⟩
  · exact Or.inl token
  · exact Or.inr (Or.inl posting)
  · refine Or.inr (Or.inr ⟨t, attending, fun choice after taken => ?_⟩)
    obtain ⟨⟨memory, moved⟩, stepped, rfl⟩ := Option.map_eq_some_iff.mp taken
    simp only [Function.update_self]
    exact attending_step attending free (step_effect stepped)

/-- Actor 0 has cleared the bit while actor 1 is blocked in `ppoll_for`. -/
theorem fastEventfdMutex_no_lost_wakeup_unlocked :
    ∃ state, (system eventfd 0 (Fin 2)).Reachable state ∧ state.memory.word = 2 ∧
      (1 ≤ state.memory.kernel ∨ (∃ t, (state.thread t).role = .posting) ∨
        ∃ t, (state.thread t).role = .attending) := by
  obtain ⟨state, reached, unlocked⟩ := System.exists_reachable_of_run (system eventfd 0 (Fin 2))
    [.call 0 .lock, .step 0 .go, .call 1 (.tryLockFor true), .step 1 .go, .call 0 .unlock, .step 0 .go]
    (fun state => decide (state.memory.word = 2 ∧ (state.thread 1).role = .blocked))
    (by decide +kernel)
  obtain ⟨word, blocked⟩ := of_decide_eq_true unlocked
  refine ⟨state, reached, word, ?_⟩
  rcases fastEventfdMutex_no_lost_wakeup (by decide) reached (by rw [word]; rfl) ⟨1, blocked⟩ with
    token | posting | ⟨t, attending, -⟩
  · exact Or.inl token
  · exact Or.inr (Or.inl posting)
  · exact Or.inr (Or.inr ⟨t, attending⟩)

section Overflow

/-- Actor 0 owns the mutex and the actors `1, …, k` are blocked in `try_lock_for`. -/
def crowd (n k : ℕ) : EventfdState (Fin (n + 1)) where
  memory := { word := BitVec.ofNat 32 (2 * k + 1), kernel := 0, added := k }
  thread i := if i.val = 0 then .owner false else if i.val ≤ k then .wait .relative .ppollFor else .idle

/-- The next actor calls `try_lock_for`. -/
theorem crowd_grows {n k : ℕ} (room : k + 1 < n + 1)
    (reached : (system eventfd 0 (Fin (n + 1))).Reachable (crowd n k)) :
    (system eventfd 0 (Fin (n + 1))).Reachable (crowd n (k + 1)) := by
  have word : BitVec.ofNat 32 (2 * k + 1) + 2 = BitVec.ofNat 32 (2 * (k + 1) + 1) := by bv_omega
  have idle : (crowd n k).thread ⟨k + 1, room⟩ = .idle := by simp [crowd]
  have parked : park eventfd .relative false (BitVec.ofNat 32 (2 * (k + 1) + 1)) =
      .wait .relative .ppollFor := dif_neg (ParkingMutex.odd_held (k + 1))
  have registers : (program eventfd).step .go (crowd n k).memory (.register .relative) =
      some ((crowd n (k + 1)).memory, .wait .relative .ppollFor) := by
    show some ((crowd n k).memory.add,
      park eventfd .relative false (BitVec.ofNat 32 (2 * k + 1) + 2)) = _
    rw [Memory.add, word, parked]
    simp only [crowd, word]
  have called : (program eventfd).call (.tryLockFor true) ((crowd n k).thread ⟨k + 1, room⟩) =
      some (.register .relative) := by
    rw [idle]
    rfl
  have here : (system eventfd 0 (Fin (n + 1))).Reachable ⟨(crowd n k).memory, (crowd n k).thread⟩ :=
    reached
  have after := Program.reachable_operation _ _ [.go] here called
    ((Program.alone_cons registers []).trans rfl)
  have same : crowd n (k + 1) = ⟨(crowd n (k + 1)).memory,
      Function.update (crowd n k).thread ⟨k + 1, room⟩ (.wait .relative .ppollFor)⟩ := by
    refine State.ext rfl (funext fun i => ?_)
    dsimp only
    by_cases joined : i = ⟨k + 1, room⟩
    · subst joined
      rw [Function.update_self]
      simp [crowd]
    · have apart : i.val ≠ k + 1 := fun equal => joined (Fin.ext equal)
      have older : i.val ≤ k + 1 ↔ i.val ≤ k := by omega
      rw [Function.update_of_ne joined]
      simp only [crowd, older]
  rw [same]
  exact after

theorem crowd_reachable (n k : ℕ) (room : k < n + 1) :
    (system eventfd 0 (Fin (n + 1))).Reachable (crowd n k) := by
  induction k with
  | zero =>
    have locked : (system eventfd 0 (Fin (n + 1))).run (system eventfd 0 (Fin (n + 1))).start
        [.call 0 .lock, .step 0 .go] = some ⟨{ word := 1, kernel := 0 }, Function.update
          (Function.update (fun _ => .idle) 0 .lockCas) 0 (.owner false)⟩ := rfl
    have first : crowd n 0 = ⟨{ word := 1, kernel := 0 }, Function.update
        (Function.update (fun _ => .idle) 0 .lockCas) 0 (.owner false)⟩ := by
      refine State.ext rfl (funext fun i => ?_)
      simp only [Function.update_idem]
      by_cases zero : i = 0
      · subst zero
        rw [Function.update_self]
        rfl
      · rw [Function.update_of_ne zero]
        simp [crowd, zero]
    rw [first]
    exact System.reach_of_run .start locked
  | succ k ih => exact crowd_grows room (ih (by omega))

/-- **`2 ^ 31` waiters are one too many.** Their count has wrapped to zero when the owner unlocks: no
token is written, nobody is awake, and the mutex is free. -/
theorem fastEventfdMutex_wakeup_lost :
    ¬ ∀ (Actor : Type) [DecidableEq Actor] [Fintype Actor] (state : EventfdState Actor),
      (system eventfd 0 Actor).Reachable state → state.memory.word &&& 1 = 0 →
        (∃ t, (state.thread t).role = .blocked) → Served state := by
  intro served
  generalize size : 2 ^ 31 = n
  have word : (crowd n n).memory.word = 1 := by
    show BitVec.ofNat 32 (2 * n + 1) = 1
    rw [← size]
    rfl
  have called : (program eventfd).call .unlock ((crowd n n).thread 0) = some (.unlock false) := rfl
  have cleared : (program eventfd).step .go (crowd n n).memory (.unlock false) =
      some ({ (crowd n n).memory with word := 0 }, .idle) := by
    show some ({ (crowd n n).memory with word := (crowd n n).memory.word &&& ~~~1 },
      if (crowd n n).memory.word > 1 then Pc.post false else rest false) = _
    rw [word]
    rfl
  have here : (system eventfd 0 (Fin (n + 1))).Reachable ⟨(crowd n n).memory, (crowd n n).thread⟩ :=
    crowd_reachable n n (Nat.lt_succ_self n)
  have reached := Program.reachable_operation _ _ [.go] here called
    ((Program.alone_cons cleared []).trans rfl)
  have asleep : ∀ i : Fin (n + 1), i ≠ 0 →
      Function.update (crowd n n).thread 0 .idle i = .wait .relative .ppollFor := by
    intro i nonzero
    have positive : i.val ≠ 0 := fun equal => nonzero (Fin.ext equal)
    rw [Function.update_of_ne nonzero]
    simp only [crowd, if_neg positive, if_pos (Nat.lt_succ_iff.mp i.isLt)]
  have resting : ∀ i : Fin (n + 1), (Function.update (crowd n n).thread 0 .idle i).role ≠ .posting ∧
      (Function.update (crowd n n).thread 0 .idle i).role ≠ .attending := by
    intro i
    by_cases zero : i = 0
    · subst zero
      rw [Function.update_self]
      exact ⟨nofun, nofun⟩
    · rw [asleep i zero]
      exact ⟨nofun, nofun⟩
  have blocked : (Function.update (crowd n n).thread 0 .idle ⟨1, by omega⟩).role = .blocked := by
    rw [asleep ⟨1, by omega⟩ (by simp [Fin.ext_iff])]
    rfl
  have free : (0 : Word) &&& 1 = 0 := rfl
  rcases served _ _ reached free ⟨⟨1, by omega⟩, blocked⟩ with token | ⟨t, posting⟩ | ⟨t, attending⟩
  · exact absurd token (Nat.lt_irrefl 0)
  · exact (resting t).1 posting
  · exact (resting t).2 attending

end Overflow

/-! ### Asynchronous operations -/

/-- **An asynchronous operation registers in time**: while the mutex is held, or with the next wakeup on
its way. -/
def InTime (state : EventfdState Actor) (t : Actor) : Prop :=
  state.thread t = .guardAdd true → state.memory.word &&& 1 ≠ 0 ∨ Served state

instance (state : EventfdState Actor) : DecidablePred (InTime state) :=
  fun t => inferInstanceAs (Decidable (state.thread t = .guardAdd true → _))

/-- **An armed asynchronous operation is notified of a free mutex**, where every asynchronous operation
registers in time: with everybody else outside the mutex's operations, the counter is positive. -/
theorem fastEventfdMutex_async_notified (few : Fintype.card Actor ≤ 2 ^ 31)
    {state : EventfdState Actor} (reached : (system eventfd 0 Actor).Reach (OnStep InTime) state)
    {t : Actor} (armed : state.thread t = .armed) (free : state.memory.word &&& 1 = 0)
    (outside : ∀ u, u ≠ t → (state.thread u).outside = true) : 1 ≤ state.memory.kernel := by
  have attended : Attended true state :=
    attended_of_reach few (fun _ _ _ _ met registers => met registers) reached
  have idle : ∀ u, (state.thread u).outside = true := by
    intro u
    by_cases same : u = t
    · rw [same, armed]
      rfl
    · exact outside u same
  have apart : ∀ pc : Pc PollPoint, pc.outside = true → pc.role ≠ .posting ∧ pc.role ≠ .attending := by
    intro pc rests
    cases pc with
    | idle | owner | manual | guard | dismissed | arming | armed | fired => exact ⟨nofun, nofun⟩
    | _ => cases rests
  rcases attended free ⟨t, by rw [armed]; rfl⟩ with token | ⟨u, posting⟩ | ⟨u, attending⟩
  · exact token
  · exact absurd posting (apart _ (idle u)).1
  · exact absurd attending (apart _ (idle u)).2

/-- Actor 1 registers while actor 0 holds the mutex, and actor 0 unlocks. -/
theorem fastEventfdMutex_async_notified_held :
    ∃ state, (system eventfd 0 (Fin 2)).Reach (OnStep InTime) state ∧ state.thread 1 = .armed ∧
      state.memory.word &&& 1 = 0 ∧ 1 ≤ state.memory.kernel := by
  obtain ⟨state, reached, unlocked⟩ := System.exists_reach_of_run (system eventfd 0 (Fin 2))
    (OnStep InTime)
    [.call 0 .lock, .step 0 .go, .call 1 .asyncAcquire, .step 1 .go, .step 1 .go, .step 1 .go,
      .call 0 .unlock, .step 0 .go, .step 0 .go]
    (fun state => decide (state.thread 1 = .armed ∧ state.memory.word &&& 1 = 0 ∧
      ∀ u, u ≠ 1 → (state.thread u).outside = true)) (by decide +kernel)
  obtain ⟨armed, free, outside⟩ := of_decide_eq_true unlocked
  exact ⟨state, reached, armed, free,
    fastEventfdMutex_async_notified (by decide) reached armed free outside⟩

/-- **An asynchronous operation registers too late.** Its `try_lock` fails; the owner unlocks, sees no
waiter and writes nothing; then the guard registers, without a look at the word, and the wait is armed on
a free mutex. -/
theorem fastEventfdMutex_async_stranded :
    ¬ ∀ (Actor : Type) [DecidableEq Actor] [Fintype Actor] (state : EventfdState Actor) (t : Actor),
      (system eventfd 0 Actor).Reachable state → state.thread t = .armed →
        state.memory.word &&& 1 = 0 → (∀ u, u ≠ t → (state.thread u).outside = true) →
          1 ≤ state.memory.kernel := by
  intro notified
  obtain ⟨state, reached, stranded⟩ := System.exists_reachable_of_run (system eventfd 0 (Fin 2))
    [.call 0 .lock, .step 0 .go, .call 1 .asyncAcquire, .step 1 .go, .call 0 .unlock, .step 0 .go,
      .step 1 .go, .step 1 .go]
    (fun state => decide (state.thread 1 = .armed ∧ state.memory.word &&& 1 = 0 ∧
      (∀ u, u ≠ 1 → (state.thread u).outside = true) ∧ state.memory.kernel = 0)) (by decide +kernel)
  obtain ⟨armed, free, outside, empty⟩ := of_decide_eq_true stranded
  have token := notified _ _ _ reached armed free outside
  rw [empty] at token
  exact absurd token (Nat.not_succ_le_zero 0)

/-! ### Stray notifications -/

/-- **Nobody is inside an operation or registered, and the mutex is free.** -/
def Quiescent (state : EventfdState Actor) : Prop :=
  state.memory.word &&& 1 = 0 ∧
    ∀ t, (state.thread t).outside = true ∧ (state.thread t).registered = false

instance (state : EventfdState Actor) : Decidable (Quiescent state) :=
  inferInstanceAs (Decidable (_ ∧ _))

/-- No token is in the eventfd or about to be written. -/
def Untouched (state : EventfdState Actor) : Prop :=
  state.memory.kernel = 0 ∧ ∀ t, (state.thread t).role ≠ .posting

instance (state : EventfdState Actor) : Decidable (Untouched state) :=
  inferInstanceAs (Decidable (_ ∧ _))

/-- **The last one out leaves nothing**: the drain of an acquirer with no registration left finds one
token at most and no token to come, and a removal of the last registration, with no acquirer about to
drain, finds none at all. -/
def LastOut (state : EventfdState Actor) (t : Actor) : Prop :=
  (state.thread t = .drainOwned → waiters state = 0 →
    state.memory.kernel ≤ 1 ∧ ∀ u, (state.thread u).role ≠ .posting) ∧
  ((state.thread t).removes = true → waiters state = 1 →
    (∀ u, (state.thread u).role ≠ .draining) → Untouched state)

instance (state : EventfdState Actor) : DecidablePred (LastOut state) :=
  fun _ => inferInstanceAs (Decidable ((_ → _ → _ ∧ _) ∧ (_ → _ → _ → Untouched state)))

/-- **With no registration left and nobody about to drain, nothing is left behind.** -/
def Clean (state : EventfdState Actor) : Prop :=
  waiters state = 0 → (∀ t, (state.thread t).role ≠ .draining) → Untouched state

section Clean

variable {state : EventfdState Actor} {t : Actor} {memory : Memory Eventfd} {moved : Pc PollPoint}

/-- Nobody plays a role that the mover does not come to play and nobody else did. -/
theorem forall_role_update {role : Role} (here : moved.role ≠ role)
    (before : ∀ u, (state.thread u).role ≠ role) (u : Actor) :
    (Function.update state.thread t moved u).role ≠ role :=
  (Function.forall_update_iff state.thread fun _ pc => pc.role ≠ role).mpr
    ⟨here, fun v _ => before v⟩ u

theorem forall_role_before {role : Role} (here : (state.thread t).role ≠ role)
    (after : ∀ u, (Function.update state.thread t moved u).role ≠ role) (u : Actor) :
    (state.thread u).role ≠ role := by
  by_cases same : u = t
  · rw [same]
    exact here
  · exact ((Function.forall_update_iff state.thread fun _ pc => pc.role ≠ role).mp after).2 u same

/-- A move that keeps the mover's registration. -/
theorem waiters_before (registered : moved.registered = (state.thread t).registered)
    (none : waiters (⟨memory, Function.update state.thread t moved⟩ : EventfdState Actor) = 0) :
    waiters state = 0 :=
  (count_update_same registered).symm.trans none

/-- **A step that leaves the counter and the registrations**, by an actor that neither posts nor drains,
before or after. -/
theorem Clean.keep (clean : Clean state) (counter : memory.kernel = state.memory.kernel)
    (registered : moved.registered = (state.thread t).registered)
    (drains : (state.thread t).role ≠ .draining) (posts : moved.role ≠ .posting) :
    Clean ⟨memory, Function.update state.thread t moved⟩ := by
  intro none nobody
  obtain ⟨empty, quiet⟩ := clean (waiters_before registered none) (forall_role_before drains nobody)
  exact ⟨counter.trans empty, forall_role_update posts quiet⟩

theorem Clean.moves (clean : Clean state) (inside : Moves state.memory.word (state.thread t) moved) :
    Clean ⟨state.memory, Function.update state.thread t moved⟩ := by
  refine clean.keep rfl inside.registered inside.source.2.1 ?_
  rcases inside.role with same | ⟨-, plain⟩ | ⟨blocked, -⟩
  · rw [same]
    exact inside.source.1
  · rw [plain]
    decide
  · rw [blocked]
    decide

/-- A registration is outstanding. -/
theorem Clean.of_registered (registered : moved.registered = true) :
    Clean ⟨memory, Function.update state.thread t moved⟩ := by
  intro none
  have positive : 0 < waiters (⟨memory, Function.update state.thread t moved⟩ : EventfdState Actor) :=
    count_pos (t := t) (by simp only [Function.update_self]; exact registered)
  omega

/-- **One step of one actor.** -/
theorem Clean.effect (clean : Clean state) (represented : Represented state) (lastOut : LastOut state t)
    {choice : Choice} (effect : Effect eventfd choice state.memory (state.thread t) memory moved) :
    Clean ⟨memory, Function.update state.thread t moved⟩ := by
  cases effect with
  | moves inside => exact clean.moves inside
  | waits => exact .of_registered (waited_standing _ _).1
  | consumeWoken => exact .of_registered rfl
  | add _ _ _ registered => exact .of_registered registered
  | takeOver =>
    intro _ nobody
    refine absurd ?_ (nobody t)
    simp only [Function.update_self]
    rfl
  | consumeOwned here consumed =>
    intro none nobody
    have before : waiters state = 0 := waiters_before (by rw [here]; rfl) none
    obtain ⟨single, quiet⟩ := lastOut.1 here before
    obtain ⟨-, rfl⟩ := ordinary_eq_some consumed
    exact ⟨Nat.sub_eq_zero_of_le single, forall_role_update (by decide) quiet⟩
  | @consumeAcquired active guard kernel here consumed =>
    cases active with
    | true => exact .of_registered rfl
    | false =>
      intro none nobody
      have plain : (state.thread t).role = .plain := by
        rw [here]
        rfl
      have before : waiters state = 0 := waiters_before (by rw [here]; rfl) none
      obtain ⟨empty, quiet⟩ := clean before (forall_role_before (by rw [plain]; decide) nobody)
      obtain ⟨-, rfl⟩ := ordinary_eq_some consumed
      refine ⟨?_, forall_role_update (show Role.plain ≠ .posting by decide) quiet⟩
      show state.memory.kernel - 1 = 0
      rw [empty]
  | @post guard here =>
    intro none nobody
    have posting : (state.thread t).role = .posting := by
      rw [here]
      rfl
    have before : waiters state = 0 :=
      waiters_before (by rw [here]; exact (rest_standing guard).1) none
    have quiet := (clean before (forall_role_before (by rw [posting]; decide) nobody)).2
    exact absurd posting (quiet t)
  | acquire _ _ _ registered plain role =>
    refine clean.keep rfl registered ?_ (by rw [plain]; decide)
    rcases role with plain' | awaiting
    · rw [plain']
      decide
    · rw [awaiting]
      decide
  | remove registered plain registered' _ plain' removes =>
    intro none nobody
    have zero : count Pc.registered (Function.update state.thread t moved) = 0 := none
    have last : waiters state = 1 := by
      rw [waiters, ← count_update_leave registered registered', zero]
    obtain ⟨empty, quiet⟩ :=
      lastOut.2 removes last (forall_role_before (by rw [plain]; decide) nobody)
    exact ⟨empty, forall_role_update (by rw [plain']; decide) quiet⟩
  | @unlock guard here =>
    intro none nobody
    have plain : (state.thread t).role = .plain := by
      rw [here]
      rfl
    have before : waiters state = 0 :=
      waiters_before (by rw [here]; exact (unlocked_standing _ guard).1) none
    obtain ⟨empty, quiet⟩ := clean before (forall_role_before (by rw [plain]; decide) nobody)
    have word := represented.word
    have single := represented.single
    have alone : ¬ state.memory.word > 1 := by bv_omega
    refine ⟨empty, forall_role_update ?_ quiet⟩
    rw [if_neg alone, (rest_standing guard).2.2]
    decide

end Clean

/-- **Every run in which the last one out leaves nothing.** -/
theorem clean_of_reach {state : EventfdState Actor}
    (reached : (system eventfd 0 Actor).Reach (OnStep LastOut) state) : Clean state := by
  refine reached.invariant ?_ fun state action after before clean met taken => ?_
  · intro _ _
    exact ⟨rfl, nofun⟩
  · obtain ⟨memory, moved, rfl, ⟨op, -, rfl, inside⟩ | ⟨choice, steps, effect⟩⟩ := next_effect taken
    · exact clean.moves inside
    · rw [steps] at met
      exact clean.effect (represented_of_reachable before.reachable) met effect

/-- **No notification is left behind**, in runs in which the last drain and the last removal leave
none: in a quiescent state the counter is zero. -/
theorem fastEventfdMutex_no_stray {state : EventfdState Actor}
    (reached : (system eventfd 0 Actor).Reach (OnStep LastOut) state) (quiescent : Quiescent state) :
    state.memory.kernel = 0 := by
  have none : waiters state = 0 := by
    by_contra some
    obtain ⟨t, registered⟩ := exists_of_count_pos (Nat.pos_of_ne_zero some)
    rw [(quiescent.2 t).2] at registered
    cases registered
  refine (clean_of_reach reached none fun t draining => ?_).1
  have rests := (quiescent.2 t).1
  generalize state.thread t = pc at rests draining
  cases pc with
  | idle | owner | manual | guard | dismissed | arming | armed | fired => cases draining
  | _ => cases rests

/-- Actor 1 waits in `try_lock_for`, is notified, takes the lock and unlocks. -/
theorem fastEventfdMutex_no_stray_cycle :
    ∃ state, (system eventfd 0 (Fin 2)).Reach (OnStep LastOut) state ∧ Quiescent state ∧
      state.memory.added = 1 ∧ state.memory.kernel = 0 := by
  obtain ⟨state, reached, settled⟩ := System.exists_reach_of_run (system eventfd 0 (Fin 2))
    (OnStep LastOut)
    [.call 0 .lock, .step 0 .go, .call 1 (.tryLockFor true), .step 1 .go, .call 0 .unlock, .step 0 .go,
      .step 0 .go, .step 1 .go, .step 1 .go, .step 1 .go, .step 1 .go, .step 1 .go, .call 1 .unlock,
      .step 1 .go]
    (fun state => decide (Quiescent state ∧ state.memory.added = 1)) (by decide +kernel)
  obtain ⟨quiescent, added⟩ := of_decide_eq_true settled
  exact ⟨state, reached, quiescent, added, fastEventfdMutex_no_stray reached quiescent⟩

/-- **A token is left behind.** Actor 1 times out in `try_lock_for`; before it gives its registration
back, actor 0 unlocks, counts a waiter and writes a token that nobody takes. -/
theorem fastEventfdMutex_stray :
    ¬ ∀ (Actor : Type) [DecidableEq Actor] [Fintype Actor] (state : EventfdState Actor),
      (system eventfd 0 Actor).Reachable state → Quiescent state → state.memory.kernel = 0 := by
  intro clean
  obtain ⟨state, reached, stray⟩ := System.exists_reachable_of_run (system eventfd 0 (Fin 2))
    [.call 0 .lock, .step 0 .go, .call 1 (.tryLockFor true), .step 1 .go, .step 1 .expired,
      .call 0 .unlock, .step 0 .go, .step 0 .go, .step 1 .go]
    (fun state => decide (Quiescent state ∧ state.memory.kernel = 1)) (by decide +kernel)
  obtain ⟨quiescent, token⟩ := of_decide_eq_true stray
  have empty := clean _ _ reached quiescent
  rw [token] at empty
  cases empty

end NovaSync.FastAsyncMutex
