/-
**The libdispatch operations without a handle: what they take, and that they are delivered.**

* `Balanced` — an activity changes the shared supply and the registrations by what it changes of its operation.
* `dispatchOperations_accounts` — what has been taken has been delivered or is on its way, the waiters are the
  registered operations, and a mutex has one holder at a time.
* `dispatchOperations_comes` — an operation is delivered by its own activities while something is available
  whenever it looks.
-/

import NovaSync.Support.DispatchOperations

set_option linter.unusedSectionVars false

namespace NovaSync.DispatchOperations

open Concurrency
open DispatchCancellable (Kind Source)

section Steps

variable {kind : Kind} {form : Form} {place : Place} {op after : Operation} {memory later : Memory}

/-! ### What has been taken -/

theorem At.inHand (here : At kind form place op) : op.inHand = place.inHand := by
  unfold Operation.inHand
  rw [here.running, here.completions]
  cases place with
  | cancelling found | submitting found => cases found <;> rfl
  | _ => rfl

theorem At.obtained (here : At kind form place op) : op.obtained = place.obtained := by
  unfold Operation.obtained Place.obtained
  rw [here.inHand, here.delivered]
  cases place <;> rfl

theorem At.holds (here : At kind form place op) (elsewhere : place ≠ .delivered) :
    op.holds = place.obtained := by
  have none : op.owns = false := Bool.eq_false_of_not_eq_true fun owns => elsewhere (here.owns owns)
  unfold Operation.holds Place.obtained
  rw [here.inHand, none, decide_eq_false elsewhere]

theorem cost_le (kind : Kind) : kind.cost ≤ 1 := by
  cases kind with
  | mutex | semaphore => exact Nat.le_refl 1
  | event autoReset => cases autoReset <;> decide

/-- **What an activity changes of the shared numbers, it changes of the operation's.** -/
structure Balanced (kind : Kind) (memory later : Memory) (op after : Operation) : Prop where
  tokens : later.available + later.taken + kind.cost * after.obtained.toNat + memory.given =
    memory.available + memory.taken + kind.cost * op.obtained.toNat + later.given
  waiters : later.waiters + op.registered.toNat = memory.waiters + after.registered.toNat
  owners : kind = .mutex → later.available + after.holds.toNat = memory.available + op.holds.toNat

/-- An activity of the operation itself. -/
theorem Moves.balanced {next : Place} (moves : Moves kind form memory later op after place next)
    (waiters : op.registered = true → 0 < memory.waiters) : Balanced kind memory later op after := by
  obtain ⟨here, there, -, effect, still, owns⟩ := moves
  have registered := here.registered
  have cost := cost_le kind
  constructor
  · rw [here.obtained, there.obtained]
    cases effect with
    | goes same | registers _ same | unregisters _ same => rw [same]
    | finds available empty full =>
      rw [empty, full, Bool.toNat_false, Bool.toNat_true, Nat.mul_zero, Nat.mul_one]
      simp only
      omega
  · rw [registered, there.registered]
    cases effect with
    | goes _ same | finds _ _ _ same =>
      by_cases mutex : kind = .mutex
      · rw [same mutex]
      · simp [mutex]
    | registers mutex _ idle waits =>
      simp only [mutex, idle, waits, decide_true, Bool.and_false, Bool.and_true, Bool.toNat_false,
        Bool.toNat_true]
    | unregisters mutex _ waits idle =>
      have positive := waiters (by rw [registered, mutex, waits]; rfl)
      simp only [mutex, idle, waits, decide_true, Bool.and_false, Bool.and_true, Bool.toNat_false,
        Bool.toNat_true]
      omega
  · intro mutex
    by_cases delivered : place = .delivered
    · obtain ⟨last, same⟩ := still delivered
      have holds : after.holds = op.holds := by
        rw [Operation.holds, Operation.holds, there.inHand, here.inHand, last, delivered, same]
      rw [holds]
      cases effect with
      | goes | registers | unregisters => rfl
      | finds _ empty =>
        rw [delivered] at empty
        cases empty
    · have holds : after.holds = next.obtained := by
        by_cases last : next = .delivered
        · rw [Operation.holds, owns delivered last, last, Bool.or_true]
          rfl
        · exact there.holds last
      rw [holds, here.holds delivered]
      cases effect with
      | goes same | registers _ same | unregisters _ same => rw [same]
      | finds available empty full =>
        rw [empty, full, mutex]
        show memory.available - 1 + 1 = memory.available + 0
        omega

/-- Who has been given the mutex is not about to give it to someone. -/
theorem Sound.inHand_of_owns (sound : Sound kind op) (owns : op.owns = true) : op.inHand = false := by
  cases called : op.form with
  | none =>
    rw [sound.unstarted called]
    rfl
  | some form =>
    obtain ⟨place, here⟩ := sound.carried form called
    rw [here.inHand, here.owns owns]
    rfl

/-- **Every activity is balanced.** -/
theorem Sound.balanced (sound : Sound kind op) {activity : Activity}
    (stepped : DispatchOperations.step kind activity memory op = some (later, after))
    (waiters : op.registered = true → 0 < memory.waiters)
    (signalled : kind = .event false → memory.available ≤ 1)
    (exclusive : kind = .mutex → memory.available + op.holds.toNat ≤ 1) :
    Balanced kind memory later op after := by
  cases foreign : activity.foreign with
  | false =>
    obtain ⟨form, place, next, moves⟩ := sound.moves foreign stepped
    exact moves.balanced waiters
  | true =>
    rcases foreign_cases foreign stepped with ⟨none, positive, rfl, rfl⟩ | ⟨allowed, rfl, rfl⟩
    · have obtained : Operation.obtained { op with owns := true } = op.obtained := rfl
      refine ⟨?_, rfl, fun mutex => ?_⟩
      · rw [obtained]
        simp only
        omega
      · have free : op.inHand = false := by
          rw [sound.unstarted none]
          rfl
        have single := exclusive mutex
        have holds : op.holds = op.owns := by rw [Operation.holds, free, Bool.false_or]
        have held : Operation.holds { op with owns := true } = true := Bool.or_true _
        rw [holds] at single
        rw [held, holds, Bool.toNat_true]
        simp only
        omega
    · have obtained : Operation.obtained { op with owns := false } = op.obtained := rfl
      have grows : memory.available ≤ give kind memory.available := by
        cases kind with
        | mutex | semaphore => exact Nat.le_succ _
        | event autoReset =>
          cases autoReset with
          | true => exact Nat.le_succ _
          | false => exact signalled rfl
      refine ⟨?_, rfl, fun mutex => ?_⟩
      · rw [obtained]
        simp only
        omega
      · have owns := allowed mutex
        have hand := sound.inHand_of_owns owns
        have held : op.holds = true := by rw [Operation.holds, owns, Bool.or_true]
        have free : Operation.holds { op with owns := false } = false := by
          rw [Operation.holds, Bool.or_false]
          exact hand
        rw [held, free, mutex]
        rfl

end Steps

/-! ### Runs -/

section Runs

variable {kind : Kind} {tokens : ℕ} {Thread : Type*} [DecidableEq Thread] [Fintype Thread]
  {state : State Thread Memory Operation} {form : Form} {op : Operation} {memory : Memory}

/-- **The shared numbers and those of the operations.** -/
structure Shares (kind : Kind) (tokens : ℕ) (state : State Thread Memory Operation) : Prop where
  tokens : state.memory.available + state.memory.taken + kind.cost * count Operation.obtained state.thread =
    supply kind tokens + state.memory.given
  waiters : state.memory.waiters = count Operation.registered state.thread
  signalled : kind = .event false → state.memory.available ≤ 1
  owners : kind = .mutex → state.memory.available + count Operation.holds state.thread = 1

theorem signalled_step {activity : Activity} {memory later : Memory} {op after : Operation}
    (stepped : step (.event false) activity memory op = some (later, after)) (sound : Sound (.event false) op)
    (signalled : memory.available ≤ 1) : later.available ≤ 1 := by
  cases foreign : activity.foreign with
  | false =>
    obtain ⟨form, place, next, moves⟩ := sound.moves foreign stepped
    cases moves.effect with
    | goes | registers | unregisters => exact signalled
    | finds => exact le_trans (Nat.sub_le _ _) signalled
  | true =>
    rcases foreign_cases foreign stepped with ⟨-, -, rfl, -⟩ | ⟨-, rfl, -⟩
    · exact le_trans (Nat.sub_le _ _) signalled
    · exact Nat.le_refl 1

theorem shares_of_reachable (reached : (system kind tokens Thread).Reachable state) :
    Shares kind tokens state := by
  have blank : ∀ {place : Operation → Bool}, place {} = false →
      count place (system kind tokens Thread).start.thread = 0 := count_const
  refine reached.invariant (P := Shares kind tokens) ⟨?_, ?_, ?_, ?_⟩ ?_
  · rw [blank rfl]
    rfl
  · rw [blank rfl]
    rfl
  · rintro rfl
    exact Nat.min_le_right _ _
  · rintro rfl
    rw [blank rfl]
    rfl
  intro state action after before shares _ taken
  rcases (program_silent kind).next_cases taken with ⟨t, form, moved, -, called, rfl⟩ |
    ⟨t, activity, memory, moved, -, stepped, rfl⟩
  · simp only [program, call, Option.ite_none_right_eq_some, Option.some.injEq] at called
    obtain ⟨⟨none, free⟩, rfl⟩ := called
    have blank := (sound_of_reachable before t).unstarted none
    have same : ∀ place : Operation → Bool,
        place { state.thread t with form := some form, running := .tryAcquire } = place (state.thread t) →
        count place (Function.update state.thread t
          { state.thread t with form := some form, running := .tryAcquire }) = count place state.thread :=
      fun place => count_update_same
    refine ⟨?_, ?_, shares.signalled, fun mutex => ?_⟩
    · rw [same _ (by rw [blank]; rfl)]
      exact shares.tokens
    · rw [same _ (by rw [blank]; rfl)]
      exact shares.waiters
    · rw [same _ (by rw [blank]; rfl)]
      exact shares.owners mutex
  · have sound := sound_of_reachable before t
    have waiters : (state.thread t).registered = true → 0 < state.memory.waiters := fun registered => by
      rw [shares.waiters]
      exact count_pos registered
    have exclusive : kind = .mutex → state.memory.available + (state.thread t).holds.toNat ≤ 1 := by
      intro mutex
      have owners := shares.owners mutex
      cases holds : (state.thread t).holds with
      | false => exact le_trans (Nat.le_add_right _ _) (Nat.le_of_eq owners)
      | true =>
        have positive := count_pos holds
        rw [Bool.toNat_true]
        omega
    have balanced := sound.balanced stepped waiters shares.signalled exclusive
    have obtained := count_update Operation.obtained state.thread t moved
    have registered := count_update Operation.registered state.thread t moved
    have holds := count_update Operation.holds state.thread t moved
    refine ⟨?_, ?_, fun manual => ?_, fun mutex => ?_⟩
    · have before := shares.tokens
      have moves := balanced.tokens
      have scaled := congrArg (kind.cost * ·) obtained
      simp only [Nat.mul_add] at scaled
      simp only
      omega
    · have before := shares.waiters
      have moves := balanced.waiters
      simp only
      omega
    · subst manual
      exact signalled_step stepped sound (shares.signalled rfl)
    · have before := shares.owners mutex
      have moves := balanced.owners mutex
      simp only
      omega

/-- **What has been taken has been delivered, or is on its way.** What is available, what others have taken and
what the operations have obtained add up to the supply and what has been given; the waiters of a mutex are the
registered operations; and a mutex has one holder, if it is not available. -/
theorem dispatchOperations_accounts (reached : (system kind tokens Thread).Reachable state) :
    state.memory.available + state.memory.taken + kind.cost * count Operation.obtained state.thread =
        supply kind tokens + state.memory.given ∧
      state.memory.waiters = count Operation.registered state.thread ∧
      (kind = .mutex → state.memory.available + count Operation.holds state.thread = 1) :=
  have shares := shares_of_reachable reached
  ⟨shares.tokens, shares.waiters, shares.owners⟩

/-- Two tokens of three have been taken: one is delivered, the other is on its way, and a fourth is given. -/
theorem dispatchOperations_accounts_semaphore :
    ∃ state, (system .semaphore 3 (Fin 3)).Reachable state ∧ (state.thread 0).delivered = 1 ∧
      (state.thread 1).completions = 1 ∧ state.memory.available = 2 ∧ state.memory.given = 1 ∧
      state.memory.available + state.memory.taken + count Operation.obtained state.thread =
        3 + state.memory.given ∧
      state.memory.waiters = count Operation.registered state.thread := by
  obtain ⟨state, reached, computed⟩ := System.exists_reachable_of_run (system .semaphore 3 (Fin 3))
    [.call 0 .future, .step 0 (.step true), .call 1 .handler, .step 1 (.step true), .step 1 (.step true),
      .step 2 .give]
    (fun state => decide ((state.thread 0).delivered = 1 ∧ (state.thread 1).completions = 1 ∧
      state.memory.available = 2 ∧ state.memory.given = 1)) (by decide +kernel)
  obtain ⟨delivered, posted, available, given⟩ := of_decide_eq_true computed
  obtain ⟨tokens, waiters, -⟩ := dispatchOperations_accounts reached
  rw [show Kind.semaphore.cost = 1 from rfl, Nat.one_mul] at tokens
  exact ⟨state, reached, delivered, posted, available, given, tokens, waiters⟩

/-! ### The delivery comes -/

/-- What an operation does next of itself, where its descriptor is readable. -/
def Operation.next (op : Operation) : Activity :=
  if 0 < op.completions then .complete
  else if 0 < op.retries then .retry
  else if op.running = .idle then .fire
  else .step true

/-- The operations, each doing what it does next. -/
def eager (kind : Kind) : Program Memory Operation Form Unit where
  idle := {}
  call := call
  step := fun _ memory op => step kind op.next memory op
  wake := fun _ => none
  asleep := fun _ => false
  woken := id

theorem exists_advance (busy : op.running ≠ .idle) (lucky : Bool) :
    ∃ later after, advance kind form lucky memory op = some (later, after) := by
  have goes : (advance kind form lucky memory op).isSome = true := by
    cases running : op.running with
    | idle => exact absurd running busy
    | submit found => cases found <;> simp [advance, running]
    | _ => simp [advance, running]
  obtain ⟨⟨later, after⟩, stepped⟩ := Option.isSome_iff_exists.mp goes
  exact ⟨later, after, stepped⟩

/-- **One step on the way to the delivery.** -/
theorem At.step_next {place : Place} (here : At kind form place op) (elsewhere : place ≠ .delivered)
    (memory : Memory) :
    ∃ later after, (eager kind).step () memory op = some (later, after) ∧
      At kind form (place.onward kind form (decide (0 < memory.available))) after ∧
      (later.available = memory.available ∨
        (place.onward kind form (decide (0 < memory.available))).obtained = true) := by
  have running := here.running
  have retries := here.retries
  have completions := here.completions
  have live := here.live
  cases place with
  | delivered => exact absurd rfl elsewhere
  | completing =>
    refine ⟨memory, _, ?_, here.completes, Or.inl rfl⟩
    simp [eager, Operation.next, step, completions]
  | retrying =>
    refine ⟨memory, _, ?_, here.retries_run, Or.inl rfl⟩
    simp [eager, Operation.next, step, completions, retries]
  | armed =>
    refine ⟨memory, _, ?_, here.fires, Or.inl rfl⟩
    have first : op.sources.head? = some .active := of_decide_eq_true live
    simp [eager, Operation.next, step, completions, retries, running, Place.running, first, Point.handling]
  | starting | registering | creating | attempting | unregistering | cancelling | submitting =>
    have going : op.next = .step true := by
      simp [Operation.next, completions, retries, running, Place.running]
    have busy : op.running ≠ .idle := by
      rw [running]
      exact Point.noConfusion
    obtain ⟨later, after, stepped⟩ :
        ∃ later after, DispatchOperations.advance kind form true memory op = some (later, after) :=
      exists_advance busy true
    obtain ⟨next, onward, there, effect, -⟩ := here.advance stepped
    rw [Bool.true_and] at onward
    refine ⟨later, after, ?_, onward ▸ there, ?_⟩
    · simp only [eager, going, step, here.called, Option.bind_some, stepped]
    · rw [← onward]
      cases effect with
      | goes | registers | unregisters => exact Or.inl rfl
      | finds _ _ obtained => exact Or.inr obtained

/-- How far the delivery is. -/
def Place.rank : Place → ℕ
  | .delivered => 0
  | .completing => 1
  | .submitting true => 2
  | .cancelling true => 3
  | .unregistering => 4
  | .attempting => 5
  | .armed => 6
  | .creating => 7
  | .retrying => 8
  | .submitting false => 9
  | .cancelling false | .registering => 10
  | .starting => 11

theorem rank_onward {place : Place} {found : Bool} (elsewhere : place ≠ .delivered)
    (ready : place.obtained = true ∨ found = true) : (place.onward kind form found).rank < place.rank := by
  cases place with
  | delivered => exact absurd rfl elsewhere
  | starting | attempting =>
    have lucky : found = true := ready.resolve_left Bool.noConfusion
    subst lucky
    cases form <;> simp only [Place.onward, if_true] <;> first | decide | (split <;> decide)
  | registering => cases form <;> simp [Place.onward, Place.waits, Place.rank]
  | cancelling taken | submitting taken => cases taken <;> simp [Place.onward, Place.rank]
  | creating | armed | unregistering | retrying | completing => simp [Place.onward, Place.rank]

/-- What has been taken is not let go of before the delivery. -/
theorem obtained_onward {place : Place} {found : Bool} (obtained : place.obtained = true) :
    (place.onward kind form found).obtained = true := by
  cases place with
  | cancelling taken | submitting taken =>
    cases taken
    · cases obtained
    · rfl
  | unregistering | completing | delivered => rfl
  | _ => cases obtained

/-- **The delivery comes**, once something has been taken, or while something is available. -/
theorem At.comes {place : Place} (here : At kind form place op)
    (ready : place.obtained = true ∨ 0 < memory.available) :
    (eager kind).Comes () (fun memory => decide (0 < memory.available)) (fun op => op.delivered = 1)
      memory op := by
  induction far : place.rank using Nat.strong_induction_on generalizing place op memory with
  | _ n ih =>
    subst far
    by_cases last : place = .delivered
    · have delivered : op.delivered = 1 := by rw [here.delivered, last]; rfl
      exact .arrived delivered
    · obtain ⟨between, after, stepped, there, kept⟩ := here.step_next last memory
      refine Program.Comes.after stepped fun later same => ih _ ?_ there ?_ rfl
      · exact rank_onward last (ready.imp_right decide_eq_true)
      · rcases ready with obtained | positive
        · exact Or.inl (obtained_onward obtained)
        · rcases kept with kept | obtained
          · rw [kept, decide_eq_true positive] at same
            exact Or.inr (of_decide_eq_true same)
          · exact Or.inl obtained

/-- **The delivery comes.** In every run, while something is available whenever it looks, an operation that has
been started comes to its delivery by its own activities, each attempt being made when the descriptor is readable;
and one that has something in hand comes to it in any case. -/
theorem dispatchOperations_comes (reached : (system kind tokens Thread).Reachable state) {t : Thread}
    (called : (state.thread t).form = some form)
    (ready : 0 < state.memory.available ∨ (state.thread t).inHand = true) :
    (eager kind).Comes () (fun memory => decide (0 < memory.available)) (fun op => op.delivered = 1)
      state.memory (state.thread t) := by
  obtain ⟨place, here⟩ := (sound_of_reachable reached t).carried form called
  refine here.comes (ready.symm.imp_left fun hand => ?_)
  rw [← here.obtained, Operation.obtained, hand, Bool.true_or]

/-- A future waits for the mutex, which has just been unlocked. -/
theorem dispatchOperations_comes_unlocked :
    ∃ state, (system .mutex 0 (Fin 2)).Reachable state ∧ (state.thread 0).form = some .future ∧
      0 < state.memory.available ∧
      (eager .mutex).Comes () (fun memory => decide (0 < memory.available)) (fun op => op.delivered = 1)
        state.memory (state.thread 0) := by
  obtain ⟨state, reached, computed⟩ := System.exists_reachable_of_run (system .mutex 0 (Fin 2))
    [.step 1 .take, .call 0 .future, .step 0 (.step true), .step 0 (.step true), .step 0 (.step true),
      .step 1 .give]
    (fun state => decide ((state.thread 0).form = some .future ∧ 0 < state.memory.available)) (by decide +kernel)
  obtain ⟨called, available⟩ := of_decide_eq_true computed
  exact ⟨state, reached, called, available, dispatchOperations_comes reached called (Or.inl available)⟩

end Runs

end NovaSync.DispatchOperations
