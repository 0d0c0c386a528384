/-
**The cancellable libdispatch operations: delivery, conservation, and the released source.**

* `Balance` — every lock or token that the operation takes is given back, in hand, or on its way to the handler.
* `Registered` — the guard of the mutex operation is given up before the handler is called.
* `dispatchCancellable_delivers_once` — at most one call of the handler, one if cancelled, and nothing lost.
* `dispatchCancellable_releases_once` — the source goes with its cancel handler, once.
* `dispatchCancellable_touches_released` — a `cancel()` uses a released source or a null pointer if and only if the
  cancel handler releases it after the test of `src_`, or the test comes before `src_` is cleared.
-/

import NovaSync.Support.DispatchCancellable

namespace NovaSync.DispatchCancellable

open Concurrency

variable {kind : Kind} {tokens : ℕ}

/-! ### Who holds what -/

/-- The running call holds the lock or a token. -/
def Point.inHand : Point → Bool
  | .startRecheck | .startGiveBack | .unregister | .recheck | .giveBack => true
  | .startMark .acquired | .startSubmit .acquired | .mark .acquired => true
  | .cancelSource .acquired | .submit .acquired => true
  | _ => false

/-- **Every lock or token taken is given back, in hand, or on its way to the handler.** -/
structure Balance (kind : Kind) (tokens : ℕ) (op : Operation) : Prop where
  ledger : op.obtained =
    op.returned + op.running.inHand.toNat + op.successes + op.delivered.count .acquired
  supply : op.available + op.taken + kind.cost * op.obtained =
    kind.units tokens + op.given + op.returned
  lent : kind = .mutex → op.given ≤ op.taken + op.delivered.count .acquired

theorem balance_start : Balance kind tokens (system kind tokens).start where
  ledger := rfl
  supply := rfl
  lent _ := Nat.zero_le _

section Hands

variable {op after : Operation} {point : Point} {outcome : Outcome}

theorem Kind.cost_le (kind : Kind) : kind.cost ≤ 1 := by
  cases kind with
  | mutex | semaphore => exact Nat.le_refl 1
  | event autoReset => cases autoReset <;> decide

/-- A call that goes on with what it holds. -/
theorem Balance.goes (balance : Balance kind tokens op) (hand : point.inHand = op.running.inHand)
    {source : Option Source} {src handlerInvoked : Bool} {waiterGuard : Option Bool}
    {waiters releases stale : ℕ} :
    Balance kind tokens { op with
      running := point, source := source, src := src, handlerInvoked := handlerInvoked,
      waiterGuard := waiterGuard, waiters := waiters, releases := releases, stale := stale } :=
  { balance with
    ledger := by
      have ledger := balance.ledger
      rw [← hand] at ledger
      exact ledger }

/-- An attempt takes the lock or a token, or goes on without. -/
theorem Balance.tryAcquire (balance : Balance kind tokens op) {lucky : Bool} {found missed : Point}
    (hands : op.running.inHand = false ∧ found.inHand = true ∧ missed.inHand = false) :
    Balance kind tokens (tryAcquire kind lucky op found missed) := by
  obtain ⟨empty, hand, unheld⟩ := hands
  unfold DispatchCancellable.tryAcquire
  split
  · rename_i taken
    have positive := taken.2
    have least := kind.cost_le
    have ledger := balance.ledger
    have supply := balance.supply
    rw [empty, Bool.toNat_false] at ledger
    refine { balance with
      ledger := ?_
      supply := ?_ }
    · simp only [hand, Bool.toNat_true]
      omega
    · simp only [Nat.mul_succ]
      omega
  · exact balance.goes (unheld.trans empty.symm)

/-- A call that has seen the flag gives back what it took. -/
theorem Balance.unlock (balance : Balance kind tokens op)
    (hands : op.running.inHand = true ∧ point.inHand = false) :
    Balance kind tokens (unlock op point) := by
  have ledger := balance.ledger
  have supply := balance.supply
  rw [hands.1, Bool.toNat_true] at ledger
  refine { balance with
    ledger := ?_
    supply := ?_ }
  · simp only [DispatchCancellable.unlock, hands.2, Bool.toNat_false]
    omega
  · simp only [DispatchCancellable.unlock]
    omega

/-- **The exchange never fails in a call that holds something.** -/
theorem Balance.marks (balance : Balance kind tokens op) (delivery : Delivery op)
    (fresh : op.running.inHand = true → op.running.fresh = true)
    (hand : point.inHand = op.running.inHand) : Balance kind tokens (tryMarkInvoked op point) := by
  unfold tryMarkInvoked
  split
  · rename_i invoked
    refine balance.goes ?_
    cases holding : op.running.inHand with
    | false => rfl
    | true =>
      rw [delivery.fresh (fresh holding)] at invoked
      cases invoked
  · exact balance.goes hand

/-- The submission hands over what the call holds. -/
theorem Balance.submits (balance : Balance kind tokens op)
    (hand : op.running.inHand = decide (outcome = .acquired)) :
    Balance kind tokens (submit op outcome) := by
  have ledger := balance.ledger
  rw [hand] at ledger
  cases outcome with
  | acquired =>
    refine { balance with ledger := ?_ }
    simp only [decide_true, Bool.toNat_true] at ledger
    show op.obtained = op.returned + 0 + (op.successes + 1) + op.delivered.count .acquired
    omega
  | cancelled =>
    refine { balance with ledger := ?_ }
    simpa [submit, Point.inHand] using ledger

/-- **The running call keeps the balance.** -/
theorem Balance.advance (balance : Balance kind tokens op) (delivery : Delivery op) {lucky : Bool}
    (stepped : advance kind lucky op = some after) : Balance kind tokens after := by
  unfold DispatchCancellable.advance at stepped
  cases here : op.running with
  | idle =>
    rw [here] at stepped
    cases stepped
  | startFlag | recheck | closeFlag =>
    rw [here] at stepped
    cases stepped
    refine balance.goes ?_
    rw [here]
    split <;> rfl
  | flag =>
    rw [here] at stepped
    cases stepped
    refine balance.goes ?_
    rw [here]
    cases kind <;> split <;> rfl
  | startRecheck =>
    -- nobody can have cancelled yet, so that an event does not swallow the signal here
    rw [here] at stepped
    cases stepped
    obtain ⟨-, -, -, -, unset⟩ := delivery.early (by rw [here]; rfl)
    refine balance.goes ?_
    rw [here, if_neg (by simp [unset])]
    rfl
  | startAttempt | attempt =>
    rw [here] at stepped
    cases stepped
    refine balance.tryAcquire ?_
    rw [here]
    cases kind <;> exact ⟨rfl, rfl, rfl⟩
  | startGiveBack | giveBack =>
    rw [here] at stepped
    cases stepped
    refine balance.unlock ?_
    rw [here]
    exact ⟨rfl, rfl⟩
  | create | register =>
    rw [here] at stepped
    cases stepped
    refine balance.goes ?_
    rw [here]
    rfl
  | unregister | resetGuard | closeReset =>
    rw [here] at stepped
    cases stepped
    obtain ⟨waiterGuard, waiters, released⟩ := release_eq op
    rw [released]
    refine balance.goes ?_
    rw [here]
    rfl
  | startMark outcome | mark outcome =>
    rw [here] at stepped
    cases stepped
    refine balance.marks delivery (fun _ => ?_) ?_ <;> rw [here]
    · rfl
    · cases outcome <;> rfl
  | markReset =>
    rw [here] at stepped
    cases stepped
    refine balance.marks delivery (fun _ => ?_) ?_ <;> rw [here] <;> rfl
  | closeMark =>
    rw [here] at stepped
    cases stepped
    refine balance.marks delivery (fun hand => ?_) ?_
    · rw [here] at hand
      cases hand
    · rw [here]
      split <;> rfl
  | startSubmit outcome | submit outcome =>
    rw [here] at stepped
    cases stepped
    refine balance.submits ?_
    rw [here]
    cases outcome <;> rfl
  | cancelSource outcome =>
    rw [here] at stepped
    cases stepped
    refine balance.goes ?_
    rw [here]
    cases outcome <;> rfl
  | release =>
    rw [here] at stepped
    cases stepped
    split <;> refine balance.goes ?_ <;> rw [here] <;> rfl
  | clear =>
    rw [here] at stepped
    cases stepped
    refine balance.goes ?_
    rw [here]
    rfl

/-- **Every action keeps the balance.** -/
theorem Balance.next (balance : Balance kind tokens op) (delivery : Delivery op) {action : Action}
    (taken : DispatchCancellable.next kind op action = some after) : Balance kind tokens after := by
  have ledger := balance.ledger
  have supply := balance.supply
  have lent := balance.lent
  cases action with
  | step lucky => exact balance.advance delivery taken
  | fire | close =>
    simp only [DispatchCancellable.next, Option.ite_none_right_eq_some, Option.some.injEq] at taken
    obtain ⟨⟨idle, -⟩, rfl⟩ := taken
    refine balance.goes ?_
    rw [idle]
    rfl
  | cancel | ask | read | call =>
    simp only [DispatchCancellable.next, Option.ite_none_right_eq_some, Option.some.injEq] at taken
    obtain ⟨-, rfl⟩ := taken
    exact { balance with }
  | runHandler outcome =>
    cases outcome with
    | acquired =>
      simp only [DispatchCancellable.next, Option.ite_none_right_eq_some, Option.some.injEq] at taken
      obtain ⟨positive, rfl⟩ := taken
      refine { balance with
        ledger := ?_
        lent := fun mutex => ?_ }
      · simp only [List.count_cons_self]
        omega
      · have before := lent mutex
        simp only [List.count_cons_self]
        omega
    | cancelled =>
      simp only [DispatchCancellable.next, Option.ite_none_right_eq_some, Option.some.injEq] at taken
      obtain ⟨positive, rfl⟩ := taken
      have same : (Outcome.cancelled :: op.delivered).count .acquired = op.delivered.count .acquired :=
        List.count_cons_of_ne (by decide)
      refine { balance with
        ledger := ?_
        lent := fun mutex => ?_ }
      · rw [same]
        exact ledger
      · rw [same]
        exact lent mutex
  | take =>
    simp only [DispatchCancellable.next, Option.ite_none_right_eq_some, Option.some.injEq] at taken
    obtain ⟨positive, rfl⟩ := taken
    refine { balance with
      supply := ?_
      lent := fun mutex => ?_ }
    · dsimp only
      omega
    · have before := lent mutex
      dsimp only
      omega
  | give =>
    simp only [DispatchCancellable.next, Option.ite_none_right_eq_some, Option.some.injEq] at taken
    obtain ⟨owed, rfl⟩ := taken
    refine { balance with
      supply := ?_
      lent := fun mutex => owed mutex }
    dsimp only
    omega

end Hands

/-! ### The registration with the mutex -/

/-- `start()` has not registered, or the guard has given its registration back. -/
def Point.unregistered : Point → Bool
  | .startFlag | .startAttempt | .startRecheck | .startGiveBack | .register => true
  | .startMark _ | .startSubmit _ => true
  | .recheck | .giveBack | .mark _ | .cancelSource _ | .submit _ => true
  | _ => false

/-- **The guard of the mutex operation is given up before the handler is called.** -/
structure Registered (kind : Kind) (op : Operation) : Prop where
  waiters : op.waiters = (decide (op.waiterGuard = some true)).toNat
  others : kind ≠ .mutex → op.waiterGuard = none ∧ op.running ≠ .register
  early : op.running.starting = true → op.running = .create ∨ op.waiterGuard = none
  inactive : op.running.unregistered = true → op.waiterGuard ≠ some true
  withdrawn : op.handlerInvoked = true →
    op.running = .resetGuard ∨ op.running = .closeReset ∨ op.waiterGuard ≠ some true

theorem registered_start : Registered kind (system kind tokens).start where
  waiters := rfl
  others _ := ⟨rfl, nofun⟩
  early _ := Or.inr rfl
  inactive _ := nofun
  withdrawn invoked := by cases invoked

section Guard

variable {op after : Operation} {point : Point} {outcome : Outcome}

/-- `release` takes the registration away with the guard, and touches nothing else. -/
theorem Registered.release (registered : Registered kind op) :
    ∃ waiterGuard, DispatchCancellable.release op = { op with waiterGuard := waiterGuard, waiters := 0 } ∧
      waiterGuard ≠ some true ∧ (op.waiterGuard = none → waiterGuard = none) := by
  have waiters := registered.waiters
  unfold DispatchCancellable.release
  split
  · rename_i active
    rw [active] at waiters
    refine ⟨some false, ?_, by simp, fun none => ?_⟩
    · rw [waiters]
      rfl
    · rw [none] at active
      cases active
  · rename_i inactive
    refine ⟨op.waiterGuard, ?_, inactive, id⟩
    rw [decide_eq_false inactive] at waiters
    rw [← Bool.toNat_false, ← waiters]

/-- A call that leaves the guard alone. -/
theorem Registered.moves (registered : Registered kind op)
    (early : point.starting = true → op.running.starting = true ∧ op.running ≠ .create)
    (inactive : point.unregistered = true → op.waiterGuard ≠ some true)
    (resets : op.running ≠ .resetGuard ∧ op.running ≠ .closeReset)
    (registers : point = .register → kind = .mutex) {source : Option Source} {src : Bool}
    {available obtained returned successes cancellations releases stale : ℕ} :
    Registered kind { op with
      running := point, source := source, src := src, available := available, obtained := obtained,
      returned := returned, successes := successes, cancellations := cancellations,
      releases := releases, stale := stale } where
  waiters := registered.waiters
  others other := ⟨(registered.others other).1, fun here => other (registers here)⟩
  early starting := by
    obtain ⟨before, here⟩ := early starting
    exact Or.inr ((registered.early before).resolve_left here)
  inactive := inactive
  withdrawn invoked := Or.inr (Or.inr
    (((registered.withdrawn invoked).resolve_left resets.1).resolve_left resets.2))

/-- A move after which the guard is as inactive, and `start()` as early, as before. -/
def Point.keeps (before after : Point) : Bool :=
  (!after.starting || before.starting && decide (before ≠ .create)) &&
    (!after.unregistered || before.unregistered) && decide (after ≠ .register) &&
    decide (before ≠ .resetGuard ∧ before ≠ .closeReset)

/-- **A call that goes on** by such a move. -/
theorem Registered.goes (registered : Registered kind op) (keeps : op.running.keeps point = true)
    {source : Option Source} {src : Bool}
    {available obtained returned successes cancellations releases stale : ℕ} :
    Registered kind { op with
      running := point, source := source, src := src, available := available, obtained := obtained,
      returned := returned, successes := successes, cancellations := cancellations,
      releases := releases, stale := stale } := by
  simp only [Point.keeps, Bool.and_eq_true, Bool.or_eq_true, Bool.not_eq_true', decide_eq_true_eq] at keeps
  obtain ⟨⟨⟨early, inactive⟩, elsewhere⟩, resets⟩ := keeps
  refine registered.moves (fun starting => ?_) (fun unregistered => registered.inactive ?_) resets
    fun here => absurd here elsewhere
  · exact early.resolve_left (by simp [starting])
  · exact inactive.resolve_left (by simp [unregistered])

/-- The exchange comes with an active guard only where the guard is reset next. -/
theorem Registered.marks (registered : Registered kind op)
    (early : point.starting = true → op.running.starting = true ∧ op.running ≠ .create)
    (resets : op.running ≠ .resetGuard ∧ op.running ≠ .closeReset)
    (inactive : point = .resetGuard ∨ point = .closeReset ∨ op.waiterGuard ≠ some true)
    (unregistered : point.unregistered = true → op.waiterGuard ≠ some true) (elsewhere : point ≠ .register) :
    Registered kind (tryMarkInvoked op point) := by
  unfold tryMarkInvoked
  split
  · refine registered.moves (fun starting => ?_) (fun idle => ?_) resets fun registering => ?_
    · cases starting
    · cases idle
    · cases registering
  · exact {
      waiters := registered.waiters
      others := fun other => ⟨(registered.others other).1, elsewhere⟩
      early := fun starting =>
        Or.inr ((registered.early (early starting).1).resolve_left (early starting).2)
      inactive := unregistered
      withdrawn := fun _ => inactive }

/-- The guard gives its registration back. -/
theorem Registered.resets (registered : Registered kind op) (started : point.starting = false)
    {waiterGuard : Option Bool} (inactive : waiterGuard ≠ some true)
    (others : op.waiterGuard = none → waiterGuard = none) :
    Registered kind { op with waiterGuard := waiterGuard, waiters := 0, running := point } where
  waiters := by
    rw [decide_eq_false inactive]
    rfl
  others other := ⟨others (registered.others other).1, fun here => by
    rw [show point = .register from here] at started
    cases started⟩
  early starting := by
    change point.starting = true at starting
    rw [started] at starting
    cases starting
  inactive _ := inactive
  withdrawn _ := Or.inr (Or.inr inactive)

/-- **The running call keeps the registration.** -/
theorem Registered.advance (registered : Registered kind op) (delivery : Delivery op) {lucky : Bool}
    (stepped : advance kind lucky op = some after) : Registered kind after := by
  unfold DispatchCancellable.advance at stepped
  cases here : op.running with
  | idle =>
    rw [here] at stepped
    cases stepped
  | startFlag | recheck | closeFlag =>
    rw [here] at stepped
    cases stepped
    refine registered.goes ?_
    rw [here]
    split <;> rfl
  | startRecheck =>
    rw [here] at stepped
    cases stepped
    refine registered.goes ?_
    rw [here]
    cases kind <;> split <;> rfl
  | flag =>
    rw [here] at stepped
    cases stepped
    by_cases mutex : kind = .mutex
    · refine registered.goes ?_
      rw [here, if_pos mutex]
      split <;> rfl
    · obtain ⟨none, -⟩ := registered.others mutex
      refine registered.moves (fun starting => ?_) (fun _ => ?_) ?_ fun registering => ?_
      · rw [if_neg mutex] at starting
        split at starting <;> cases starting
      · rw [none]
        nofun
      · rw [here]
        exact ⟨nofun, nofun⟩
      · rw [if_neg mutex] at registering
        split at registering <;> cases registering
  | startAttempt =>
    rw [here] at stepped
    cases stepped
    unfold tryAcquire
    split
    · refine registered.goes ?_
      rw [here]
      rfl
    · have inactive := registered.inactive (by rw [here]; rfl)
      refine registered.moves (fun _ => ?_) (fun _ => inactive) ?_ fun registering => ?_
      · rw [here]
        exact ⟨rfl, nofun⟩
      · rw [here]
        exact ⟨nofun, nofun⟩
      · by_contra other
        rw [if_neg other] at registering
        cases registering
  | attempt =>
    rw [here] at stepped
    cases stepped
    unfold tryAcquire
    split
    · by_cases mutex : kind = .mutex
      · refine registered.goes ?_
        rw [here, if_pos mutex]
        rfl
      · obtain ⟨none, -⟩ := registered.others mutex
        rw [if_neg mutex]
        refine registered.moves (fun starting => ?_) (fun _ => ?_) ?_ fun registering => ?_
        · cases starting
        · rw [none]
          nofun
        · rw [here]
          exact ⟨nofun, nofun⟩
        · cases registering
    · refine registered.goes ?_
      rw [here]
      rfl
  | startGiveBack | giveBack | create =>
    rw [here] at stepped
    cases stepped
    refine registered.goes ?_
    rw [here]
    rfl
  | register =>
    rw [here] at stepped
    cases stepped
    have clear := delivery.fresh (by rw [here]; rfl)
    have waiters := registered.waiters
    have none : op.waiterGuard = none := (registered.early (by rw [here]; rfl)).resolve_left fun same => by
      rw [here] at same
      cases same
    rw [none] at waiters
    refine ⟨?_, fun other => ?_, fun _ => Or.inl rfl, nofun, fun invoked => ?_⟩
    · rw [waiters]
      rfl
    · exact absurd here (registered.others other).2
    · change op.handlerInvoked = true at invoked
      rw [clear] at invoked
      cases invoked
  | unregister =>
    rw [here] at stepped
    cases stepped
    obtain ⟨waiterGuard, released, inactive, others⟩ := registered.release
    rw [released]
    exact registered.resets rfl inactive others
  | resetGuard | closeReset =>
    rw [here] at stepped
    cases stepped
    obtain ⟨waiterGuard, released, -⟩ := registered.release
    rw [released]
    exact registered.resets rfl nofun fun _ => rfl
  | startMark outcome | mark outcome =>
    rw [here] at stepped
    cases stepped
    have inactive := registered.inactive (by rw [here]; rfl)
    refine registered.marks (fun starting => ?_) ?_ (Or.inr (Or.inr inactive)) (fun _ => inactive)
      nofun <;> rw [here]
    · first
        | exact ⟨rfl, nofun⟩
        | cases starting
    · exact ⟨nofun, nofun⟩
  | markReset =>
    rw [here] at stepped
    cases stepped
    refine registered.marks (fun starting => by cases starting) ?_ (Or.inl rfl)
      (fun unregistered => by cases unregistered) nofun
    rw [here]
    exact ⟨nofun, nofun⟩
  | closeMark =>
    rw [here] at stepped
    cases stepped
    have resets : op.running ≠ .resetGuard ∧ op.running ≠ .closeReset := by
      rw [here]
      exact ⟨nofun, nofun⟩
    by_cases mutex : kind = .mutex
    · rw [if_pos mutex]
      exact registered.marks (fun starting => by cases starting) resets (Or.inr (Or.inl rfl))
        (fun unregistered => by cases unregistered) nofun
    · rw [if_neg mutex]
      have inactive : op.waiterGuard ≠ some true := by
        rw [(registered.others mutex).1]
        nofun
      exact registered.marks (fun starting => by cases starting) resets (Or.inr (Or.inr inactive))
        (fun _ => inactive) nofun
  | startSubmit outcome | submit outcome =>
    rw [here] at stepped
    cases stepped
    cases outcome <;> refine registered.goes ?_ <;> rw [here] <;> rfl
  | cancelSource outcome =>
    rw [here] at stepped
    cases stepped
    refine registered.goes ?_
    rw [here]
    rfl
  | release =>
    rw [here] at stepped
    cases stepped
    split <;> refine registered.goes ?_ <;> rw [here] <;> rfl
  | clear =>
    rw [here] at stepped
    cases stepped
    refine registered.goes ?_
    rw [here]
    rfl

/-- **Every action keeps the registration.** -/
theorem Registered.next (registered : Registered kind op) (delivery : Delivery op) {action : Action}
    (taken : DispatchCancellable.next kind op action = some after) : Registered kind after := by
  cases action with
  | step lucky => exact registered.advance delivery taken
  | fire | close =>
    simp only [DispatchCancellable.next, Option.ite_none_right_eq_some, Option.some.injEq] at taken
    obtain ⟨⟨idle, -⟩, rfl⟩ := taken
    refine registered.goes ?_
    rw [idle]
    rfl
  | cancel | ask | read | call | take | give =>
    simp only [DispatchCancellable.next, Option.ite_none_right_eq_some, Option.some.injEq] at taken
    obtain ⟨-, rfl⟩ := taken
    exact { registered with }
  | runHandler outcome =>
    cases outcome <;>
      simp only [DispatchCancellable.next, Option.ite_none_right_eq_some, Option.some.injEq] at taken <;>
      obtain ⟨-, rfl⟩ := taken <;>
      exact { registered with }

end Guard

/-! ### Whole runs -/

/-- The three invariants together. -/
structure Sound (kind : Kind) (tokens : ℕ) (op : Operation) : Prop where
  delivery : Delivery op
  balance : Balance kind tokens op
  registered : Registered kind op

theorem Sound.next {op after : Operation} (sound : Sound kind tokens op) {action : Action}
    (taken : DispatchCancellable.next kind op action = some after) : Sound kind tokens after where
  delivery := sound.delivery.next taken
  balance := sound.balance.next sound.delivery taken
  registered := sound.registered.next sound.delivery taken

theorem sound_of_reachable {op : Operation} (reached : (system kind tokens).Reachable op) :
    Sound kind tokens op :=
  reached.invariant ⟨delivery_start, balance_start, registered_start⟩ fun _ _ _ _ sound _ taken =>
    sound.next taken

/-- No call is running, no `cancel()` is on its way, every submitted block has been run, and a cancelled source
has run its cancel handler. -/
structure Settled (op : Operation) : Prop where
  running : op.running = .idle
  asking : op.asking = 0
  testing : op.testing = 0
  calling : op.calling = 0
  successes : op.successes = 0
  cancellations : op.cancellations = 0
  source : op.source ≠ some .cancelled

section Runs

variable {op : Operation}

/-- The handler has been called: the call that submitted it holds nothing, and no other block is queued. -/
theorem Sound.called (sound : Sound kind tokens op) (called : op.delivered ≠ []) :
    op.handlerInvoked = true ∧ op.running.posting = false ∧ op.running.inHand = false ∧
      op.successes = 0 := by
  have once := sound.delivery.once
  have least := Bool.toNat_le op.handlerInvoked
  have positive := List.length_pos_iff.mpr called
  have invoked : op.handlerInvoked = true := by
    by_contra clear
    rw [Bool.eq_false_iff.mpr clear, Bool.toNat_false] at once
    omega
  have unposted : op.running.posting = false := by
    by_contra posting
    rw [eq_true_of_ne_false posting, Bool.toNat_true] at once
    omega
  refine ⟨invoked, unposted, ?_, by omega⟩
  have stale : op.running.fresh ≠ true := fun fresh => by
    rw [sound.delivery.fresh fresh] at invoked
    cases invoked
  cases here : op.running with
  | startSubmit outcome | cancelSource outcome | submit outcome =>
    rw [here] at unposted
    cases unposted
  | startMark outcome | mark outcome => exact absurd (by rw [here]; rfl) stale
  | startRecheck | startGiveBack | unregister | recheck | giveBack =>
    exact absurd (by rw [here]; rfl) stale
  | _ => rfl

/-- A handler that is called with `operation_canceled` is not called with a success. -/
theorem Sound.count_acquired (sound : Sound kind tokens op) :
    (.acquired ∈ op.delivered → op.delivered.count .acquired = 1) ∧
    (.cancelled ∈ op.delivered → op.delivered.count .acquired = 0) := by
  have once := sound.delivery.once
  have least := Bool.toNat_le op.handlerInvoked
  match delivered : op.delivered with
  | [] => simp
  | [outcome] => cases outcome <;> simp
  | first :: second :: rest =>
    rw [delivered] at once
    simp only [List.length_cons] at once
    omega

/-- Once the flag is set, the handler has been called when all has settled. -/
theorem Sound.reaches (sound : Sound kind tokens op) (cancelled : op.cancelled = true)
    (settled : Settled op) : op.delivered.length = 1 := by
  have invoked : op.handlerInvoked = true := by
    rcases sound.delivery.asked cancelled with asking | testing | calling | invoked | source | source
    · rw [settled.asking] at asking
      cases asking
    · rw [settled.testing] at testing
      cases testing
    · rw [settled.calling] at calling
      cases calling
    · exact invoked
    · exact absurd source settled.source
    · refine sound.delivery.finished source ?_
      rw [settled.running]
      rfl
  have once := sound.delivery.once
  rw [settled.running, settled.successes, settled.cancellations, invoked] at once
  simpa [Point.posting] using once

/-- A source that `src_` points to has not been released, unless the cancel handler is about to clear `src_`. -/
theorem Delivery.unreleased (delivery : Delivery op) (held : op.src = true) (apart : op.running ≠ .clear) :
    op.releases = 0 := by
  have releases := delivery.releases
  rw [held, Point.dangling_eq_false apart, Bool.toNat_true, Bool.toNat_false] at releases
  have most := Bool.toNat_le op.source.isSome
  omega

/-- The cancel handler that is about to clear `src_` has released the source. -/
theorem Delivery.released (delivery : Delivery op) (here : op.running = .clear) : op.releases = 1 := by
  have releases := delivery.releases
  have closed := delivery.closing (by rw [here]; rfl)
  rw [delivery.src_of_clearing (by rw [here]; rfl), here, closed] at releases
  exact Nat.add_right_cancel releases

/-- The event handler has a source. -/
theorem Delivery.held (delivery : Delivery op) (handling : op.running.handling = true) : op.src = true := by
  rcases delivery.handling handling with source | source
  · exact delivery.src.mpr (Or.inl source)
  · exact delivery.src.mpr (Or.inr (Or.inl source))

/-- **Delivered once, and nothing lost.** In every run of a cancellable operation:

* the handler is called at most once, and once `cancel()` has stored the flag and all has settled, it has been
  called; by then the registration with the mutex is gone;
* a handler that was told of success owns the one thing that the operation took and did not give back, and
  for one that was told of the cancellation all has been given back, a signal included; the supply is what
  others and the operation have left in it;
* the exchange before a success does not fail; when the lock is on its way to the handler no one else
  holds it. -/
theorem dispatchCancellable_delivers_once (reached : (system kind tokens).Reachable op) :
    (op.delivered.length ≤ 1 ∧
      (op.cancelled = true → Settled op → op.delivered.length = 1) ∧
      (op.delivered ≠ [] → op.waiters = 0)) ∧
    ((.acquired ∈ op.delivered → op.obtained = op.returned + 1) ∧
      (.cancelled ∈ op.delivered → op.obtained = op.returned) ∧
      op.available + op.taken + kind.cost * op.obtained =
        kind.units tokens + op.given + op.returned) ∧
    (op.running = .mark .acquired ∨ op.running = .startMark .acquired → op.handlerInvoked = false) ∧
    (kind = .mutex → 0 < op.successes → op.available = 0 ∧ op.taken = op.given) := by
  have sound := sound_of_reachable reached
  have once := sound.delivery.once
  have ledger := sound.balance.ledger
  have least := Bool.toNat_le op.handlerInvoked
  refine ⟨⟨by omega, fun cancelled => sound.reaches cancelled, fun called => ?_⟩,
    ⟨fun acquired => ?_, fun cancelled => ?_, sound.balance.supply⟩, fun here => ?_,
    fun mutex positive => ?_⟩
  · obtain ⟨invoked, unposted, -⟩ := sound.called called
    have inactive : op.waiterGuard ≠ some true := by
      rcases sound.registered.withdrawn invoked with here | here | inactive
      · rw [here] at unposted
        cases unposted
      · rw [here] at unposted
        cases unposted
      · exact inactive
    rw [sound.registered.waiters, decide_eq_false inactive]
    rfl
  · obtain ⟨-, -, hand, successes⟩ := sound.called (List.ne_nil_of_mem acquired)
    rw [hand, successes, sound.count_acquired.1 acquired] at ledger
    exact ledger
  · obtain ⟨-, -, hand, successes⟩ := sound.called (List.ne_nil_of_mem cancelled)
    rw [hand, successes, sound.count_acquired.2 cancelled] at ledger
    exact ledger
  · rcases here with here | here <;> exact sound.delivery.fresh (by rw [here]; rfl)
  · have supply := sound.balance.supply
    have lent := sound.balance.lent mutex
    have none : op.delivered = [] := List.length_eq_zero_iff.mp (by omega)
    rw [mutex] at supply
    rw [none] at ledger lent
    simp only [Kind.units, Kind.cost, List.count_nil] at supply ledger lent
    omega

/-- A handler fires, the lock is taken, and `cancel()` stores the flag before the operation looks again: it gives
the lock back, cancels the source itself, and tells the handler. -/
theorem dispatchCancellable_delivers_once_late_cancel :
    ∃ op, (system .mutex 0).Reachable op ∧ op.obtained = 1 ∧ op.delivered = [.cancelled] ∧
      op.obtained = op.returned ∧ op.waiters = 0 := by
  obtain ⟨op, reached, computed⟩ := System.exists_reachable_of_run (system .mutex 0)
    [.take, .step true, .step true, .step true, .step true, .give, .fire, .step true, .step true, .step true,
      .cancel, .step true, .step true, .step true, .step true, .step true, .runHandler .cancelled]
    (fun op => decide (op.obtained = 1 ∧ op.delivered = [.cancelled]))
    (by decide +kernel)
  obtain ⟨obtained, delivered⟩ := of_decide_eq_true computed
  obtain ⟨⟨-, -, withdrawn⟩, ⟨-, returned, -⟩, -⟩ := dispatchCancellable_delivers_once reached
  exact ⟨op, reached, obtained, delivered, returned (by simp [delivered]), withdrawn (by simp [delivered])⟩

/-! ### The source -/

/-- The cancel handler does not release the source between a `cancel()`'s test of `src_` and its
`dispatch_source_cancel`, and no `cancel()` tests `src_` between the release and `src_ = nullptr`. -/
def Spared (op : Operation) : Action → Prop
  | .step _ => op.running = .release → op.testing = 0 ∧ op.calling = 0
  | .ask => op.running ≠ .clear
  | _ => True

/-- A `cancel()` that has found `src_` set finds it set again, and its source is not released. -/
structure Untouched (op : Operation) : Prop where
  delivery : Delivery op
  stale : op.stale = 0
  nulls : op.nulls = 0
  calls : 0 < op.testing ∨ 0 < op.calling → op.src = true ∧ op.releases = 0

/-- What the running call does to the source: only the event handler cancels it, and only the cancel handler
releases it and clears `src_`. -/
theorem advance_source {after : Operation} {lucky : Bool} (stepped : advance kind lucky op = some after) :
    (after.testing = op.testing ∧ after.calling = op.calling ∧ after.nulls = op.nulls) ∧
      (after.stale = op.stale ∨ op.running.handling = true ∧ 0 < op.releases) ∧
      (after.releases = op.releases ∨ op.running = .release) ∧
      (op.src = true → after.src = true ∨ op.running = .clear) := by
  unfold advance at stepped
  cases here : op.running with
  | idle =>
    rw [here] at stepped
    cases stepped
  | startAttempt | attempt =>
    rw [here] at stepped
    cases stepped
    unfold tryAcquire
    split <;> exact ⟨⟨rfl, rfl, rfl⟩, Or.inl rfl, Or.inl rfl, Or.inl⟩
  | startMark outcome | mark outcome | markReset | closeMark =>
    rw [here] at stepped
    cases stepped
    unfold tryMarkInvoked
    split <;> exact ⟨⟨rfl, rfl, rfl⟩, Or.inl rfl, Or.inl rfl, Or.inl⟩
  | startSubmit outcome | submit outcome =>
    rw [here] at stepped
    cases stepped
    cases outcome <;> exact ⟨⟨rfl, rfl, rfl⟩, Or.inl rfl, Or.inl rfl, Or.inl⟩
  | unregister | resetGuard | closeReset =>
    rw [here] at stepped
    cases stepped
    obtain ⟨waiterGuard, waiters, released⟩ := release_eq op
    rw [released]
    exact ⟨⟨rfl, rfl, rfl⟩, Or.inl rfl, Or.inl rfl, Or.inl⟩
  | create =>
    rw [here] at stepped
    cases stepped
    exact ⟨⟨rfl, rfl, rfl⟩, Or.inl rfl, Or.inl rfl, fun _ => Or.inl rfl⟩
  | cancelSource outcome =>
    rw [here] at stepped
    cases stepped
    refine ⟨⟨rfl, rfl, rfl⟩, ?_, Or.inl rfl, Or.inl⟩
    simp only [cancelSource]
    split
    · rename_i released
      exact Or.inr ⟨rfl, released⟩
    · exact Or.inl rfl
  | release =>
    rw [here] at stepped
    cases stepped
    split <;> exact ⟨⟨rfl, rfl, rfl⟩, Or.inl rfl, Or.inr rfl, Or.inl⟩
  | clear =>
    rw [here] at stepped
    cases stepped
    exact ⟨⟨rfl, rfl, rfl⟩, Or.inl rfl, Or.inl rfl, fun _ => Or.inr rfl⟩
  | _ =>
    rw [here] at stepped
    cases stepped
    exact ⟨⟨rfl, rfl, rfl⟩, Or.inl rfl, Or.inl rfl, Or.inl⟩

/-- **A step of the running call**, which clears `src_` only after the release: by then no `cancel()` has it. -/
theorem Untouched.advance {after : Operation} (untouched : Untouched op) {lucky : Bool}
    (spared : op.running = .release → op.testing = 0 ∧ op.calling = 0)
    (stepped : advance kind lucky op = some after) : Untouched after := by
  have delivery := untouched.delivery
  obtain ⟨⟨testing, calling, nulls⟩, stale, releases, src⟩ := advance_source stepped
  refine ⟨delivery.advance stepped, ?_, nulls.trans untouched.nulls, fun positive => ?_⟩
  · rcases stale with same | ⟨handling, released⟩
    · exact same.trans untouched.stale
    · have unreleased := delivery.unreleased (delivery.held handling) fun here => by
        rw [here] at handling
        cases handling
      omega
  · rw [testing, calling] at positive
    obtain ⟨held, unreleased⟩ := untouched.calls positive
    constructor
    · rcases src held with still | here
      · exact still
      · rw [delivery.released here] at unreleased
        cases unreleased
    · rcases releases with same | here
      · exact same.trans unreleased
      · obtain ⟨untested, uncalled⟩ := spared here
        omega

/-- **Every step that spares them** keeps the `cancel()` calls on a source that is theirs. -/
theorem Untouched.next {after : Operation} (untouched : Untouched op) {action : Action}
    (spared : Spared op action) (taken : DispatchCancellable.next kind op action = some after) :
    Untouched after := by
  have delivery := untouched.delivery
  have later := delivery.next taken
  cases action with
  | step lucky => exact untouched.advance spared taken
  | ask =>
    simp only [DispatchCancellable.next, Option.ite_none_right_eq_some, Option.some.injEq] at taken
    obtain ⟨-, rfl⟩ := taken
    refine ⟨later, untouched.stale, untouched.nulls, fun positive => ?_⟩
    cases held : op.src with
    | true => exact ⟨rfl, delivery.unreleased held spared⟩
    | false =>
      simp only [held] at positive
      rw [(untouched.calls positive).1] at held
      cases held
  | read =>
    simp only [DispatchCancellable.next, Option.ite_none_right_eq_some, Option.some.injEq] at taken
    obtain ⟨testing, rfl⟩ := taken
    obtain ⟨held, unreleased⟩ := untouched.calls (Or.inl testing)
    refine ⟨later, untouched.stale, ?_, fun _ => ⟨held, unreleased⟩⟩
    simpa [held] using untouched.nulls
  | call =>
    simp only [DispatchCancellable.next, Option.ite_none_right_eq_some, Option.some.injEq] at taken
    obtain ⟨calling, rfl⟩ := taken
    have kept := untouched.calls (Or.inr calling)
    refine ⟨later, ?_, untouched.nulls, fun _ => kept⟩
    simpa [cancelSource, kept.2] using untouched.stale
  | runHandler outcome =>
    cases outcome <;>
      simp only [DispatchCancellable.next, Option.ite_none_right_eq_some, Option.some.injEq] at taken <;>
      obtain ⟨-, rfl⟩ := taken <;>
      exact ⟨later, untouched.stale, untouched.nulls, untouched.calls⟩
  | fire | close | cancel | take | give =>
    simp only [DispatchCancellable.next, Option.ite_none_right_eq_some, Option.some.injEq] at taken
    obtain ⟨-, rfl⟩ := taken
    exact ⟨later, untouched.stale, untouched.nulls, untouched.calls⟩

/-- A `cancel()` that has found `src_` set while its source is released goes on to the released source, or to a
null pointer. -/
theorem touches_of_released (released : 0 < op.releases) (found : 0 < op.testing ∨ 0 < op.calling) :
    ∃ later, ((system kind tokens).resume op).Reach (fun _ _ => True) later ∧
      ¬ (later.stale = 0 ∧ later.nulls = 0) := by
  have begun : ((system kind tokens).resume op).Reachable op := System.Reach.start
  have called : ∀ {state : Operation}, ((system kind tokens).resume op).Reachable state →
      0 < state.releases → 0 < state.calling →
      ∃ later, ((system kind tokens).resume op).Reachable later ∧ ¬ (later.stale = 0 ∧ later.nulls = 0) := by
    intro state reached released calling
    have taken : ((system kind tokens).resume op).next state .call = some _ := if_pos calling
    refine ⟨_, reached.step trivial taken, fun clean => ?_⟩
    have stale := clean.1
    simp only [cancelSource, if_pos released] at stale
    cases stale
  rcases found with testing | calling
  · have taken : ((system kind tokens).resume op).next op .read = some _ := if_pos testing
    have reached := begun.step trivial taken
    cases held : op.src with
    | true => exact called reached released (by simp [held])
    | false =>
      refine ⟨_, reached, fun clean => ?_⟩
      have nulls := clean.2
      rw [held] at nulls
      cases nulls
  · exact called begun released calling

/-- **When `cancel()` touches a released source.** As long as the cancel handler does not release the source
between a `cancel()`'s test of `src_` and its call of `dispatch_source_cancel`, and no `cancel()` tests `src_`
between that release and the clearing of `src_`, no `cancel()` uses a released source or a null pointer; and
after a step that does either, one goes on to do so. -/
theorem dispatchCancellable_touches_released :
    (system kind tokens).Sharp (fun _ => True) Spared fun op => op.stale = 0 ∧ op.nulls = 0 := by
  have start : Untouched (system kind tokens).start :=
    ⟨delivery_start, rfl, rfl, fun positive => absurd positive (by simp [system])⟩
  have fails : ∀ op : Operation, 0 < op.releases ∧ (0 < op.testing ∨ 0 < op.calling) →
      ∃ later, ((system kind tokens).resume op).Reach (fun _ _ => True) later ∧
        ¬ (later.stale = 0 ∧ later.nulls = 0) := fun _ lost => touches_of_released lost.1 lost.2
  refine System.Sharp.of_invariant start ?_ ?_ ?_ fails
  · intro op action after untouched _ spared taken
    exact untouched.next spared taken
  · intro op untouched
    exact ⟨untouched.stale, untouched.nulls⟩
  · intro op action after _ untouched breach taken
    have delivery := untouched.delivery
    cases action with
    | step lucky =>
      simp only [Spared, Classical.not_imp, not_and_or] at breach
      obtain ⟨here, busy⟩ := breach
      have held := delivery.src_of_clearing (by rw [here]; rfl)
      have stepped : advance kind lucky op = some after := taken
      simp only [advance, here, if_pos held, Option.some.injEq] at stepped
      subst stepped
      exact ⟨Nat.succ_pos _, busy.imp Nat.pos_of_ne_zero Nat.pos_of_ne_zero⟩
    | ask =>
      have here : op.running = .clear := not_not.mp breach
      have held := delivery.src_of_clearing (by rw [here]; rfl)
      have released : 0 < op.releases := (delivery.released here).symm ▸ Nat.one_pos
      have asked : DispatchCancellable.next kind op .ask = some after := taken
      simp only [DispatchCancellable.next, if_pos held, Option.ite_none_right_eq_some,
        Option.some.injEq] at asked
      obtain ⟨-, rfl⟩ := asked
      exact ⟨released, Or.inl (Nat.succ_pos _)⟩
    | _ => exact absurd trivial breach

/-- A `cancel()` reads `src_` before the event handler sees the flag, and uses it after the cancel handler. -/
example : ((system .semaphore 0).run (system .semaphore 0).start
    [.step true, .step true, .step true, .cancel, .ask, .read, .fire, .step true, .step true, .step true,
      .step true, .close, .step true, .call]).any (fun op => op.stale = 1) = true := by
  decide +kernel

/-- A `cancel()` tests `src_` after the release and before `src_` is cleared, and passes on a null pointer. -/
example : ((system .semaphore 0).run (system .semaphore 0).start
    [.step true, .step true, .step true, .cancel, .fire, .step true, .step true, .step true, .step true,
      .close, .step true, .ask, .step true, .read]).any (fun op => op.nulls = 1) = true := by
  decide +kernel

end Runs

end NovaSync.DispatchCancellable
