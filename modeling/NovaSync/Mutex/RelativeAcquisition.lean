/-
**The relative acquisitions and their one deadline.**

`try_lock_for` of `eventfd_mutex`, `fast_eventfd_mutex` and `fast_kqueue_mutex`, and `try_acquire_for` of
`eventfd_semaphore`, wait in a loop: after a wakeup they try again, and if another thread has been there first
they call `ppoll_for` or `kevent_for` once more. One call runs while the clock goes on; what it finds at each look
at the lock, and how its system calls return, is left to the environment.

* `Call` — the call, the clock, and the history of its waits.
* `relativeAcquisition_within_deadline` — every wait is given the whole duration, so that it stays within what is
  left of it if and only if no time has passed; a wait after the first follows a wakeup.
* `relativeAcquisition_extends` — two lost races, and the call goes on waiting beyond its deadline.
-/

import NovaSync.Concurrency.Transition
import NovaSync.Detail.TimedWait

set_option linter.unusedSectionVars false

namespace NovaSync.RelativeAcquisition

open Concurrency Detail

/-! ### One call -/

/-- `eventfd_mutex::try_lock_for`, `eventfd_semaphore::try_acquire_for`, and `try_lock_for` of
`fast_eventfd_mutex` and `fast_kqueue_mutex`. -/
inductive Kind
  | eventfdMutex
  | eventfdSemaphore
  | fastEventfdMutex
  | fastKqueueMutex
deriving DecidableEq, Repr

/-- A look at the lock or the tokens: the caller has taken it, has seen it free and not got it (an exchange that
fails), or has seen it held. -/
inductive Look
  | taken
  | free
  | held
deriving DecidableEq, Repr

/-- The next step of the call.

* `attempt`, `lastAttempt`: `try_lock()` or `try_acquire()` at the head of the loop of the two plain classes, and
  after a timeout; `lastAttempt` is also the only attempt where `rel` is not positive.
* `firstCas`: the `compare_exchange_weak` of 0 of `fast_kqueue_mutex`; `register`: `add_async_waiter`;
  `acquireCas`: the `compare_exchange_weak` to `(s - 2) | 1`; `drainOwned`: the `consume_lock` after it.
* `wait`: `ppoll_for` or `kevent_for`; `drain`, `reload`: the `consume_lock` and the load after a wakeup.
* `unregister`: the guard's `remove_async_waiter` after a timeout. -/
inductive Pc
  | attempt
  | lastAttempt
  | firstCas
  | register
  | acquireCas
  | drainOwned
  | wait (point : WaitFor)
  | drain
  | reload
  | unregister
  | returned (acquired : Bool)
deriving DecidableEq, Repr

/-- A call of `ppoll_for` or `kevent_for`: the duration it is given, and the time since the acquisition was
entered. -/
structure Wait where
  timeout : ℤ
  elapsed : ℤ
deriving DecidableEq, Repr

/-- The call: its clock reading at the entry is `entry`. `waits` and `wakeups` are history. -/
structure Call where
  entry : ℤ
  now : ℤ
  pc : Pc
  waits : List Wait := []
  wakeups : ℕ := 0
deriving DecidableEq, Repr

/-- The clock goes on, the caller looks, or a system call returns. -/
inductive Action
  | tick (d : ℕ)
  | look (look : Look)
  | answer (answer : Answer)
deriving DecidableEq, Repr

/-- The first step. -/
def begin (kind : Kind) (rel : ℤ) : Pc :=
  if rel ≤ 0 then .lastAttempt
  else
    match kind with
    | .eventfdMutex | .eventfdSemaphore => .attempt
    | .fastEventfdMutex => .register
    | .fastKqueueMutex => .firstCas

/-- `ppoll_for( evfd_, rel )` or `kevent_for( kqfd_, rel )`. -/
def Call.waitFor (call : Call) (rel : ℤ) : Call :=
  { call with
    pc := .wait .enter
    waits := { timeout := rel, elapsed := call.now - call.entry } :: call.waits }

/-- After the helper has returned. -/
def Call.waited (kind : Kind) (call : Call) (ready : Bool) : Call :=
  match kind, ready with
  | .eventfdMutex, true | .eventfdSemaphore, true =>
      { call with pc := .attempt, wakeups := call.wakeups + 1 }
  | .fastEventfdMutex, true | .fastKqueueMutex, true =>
      { call with pc := .drain, wakeups := call.wakeups + 1 }
  | .eventfdMutex, false | .eventfdSemaphore, false => { call with pc := .lastAttempt }
  | .fastEventfdMutex, false | .fastKqueueMutex, false => { call with pc := .unregister }

/-- The test of `s` in the waiting loop of the fast mutexes. -/
def Call.examine (call : Call) (rel : ℤ) : Look → Option Call
  | .taken => none
  | .free => some { call with pc := .acquireCas }
  | .held => some (call.waitFor rel)

/-- The call after an action. -/
def next (kind : Kind) (rel : ℤ) (call : Call) : Action → Option Call
  | .tick d => some { call with now := call.now + d }
  | .look look =>
      match call.pc with
      | .attempt =>
          match look with
          | .taken => some { call with pc := .returned true }
          | .free => none
          | .held => some (call.waitFor rel)
      | .lastAttempt =>
          match look with
          | .taken => some { call with pc := .returned true }
          | .free => some call
          | .held => some { call with pc := .returned false }
      | .firstCas => some { call with pc := if look = .taken then .returned true else .register }
      | .register | .reload => call.examine rel look
      | .acquireCas =>
          if look = .taken then some { call with pc := .drainOwned } else call.examine rel look
      | _ => none
  | .answer answer =>
      match call.pc with
      | .wait point =>
          some (match point.step rel call.now answer with
            | .inl onward => { call with pc := .wait onward }
            | .inr ready => call.waited kind ready)
      | .drain => some { call with pc := .reload }
      | .drainOwned => some { call with pc := .returned true }
      | .unregister => some { call with pc := .returned false }
      | _ => none

/-- A call that is entered at a clock reading. -/
def system (kind : Kind) (rel entry : ℤ) : System Call Action where
  start := { entry := entry, now := entry, pc := begin kind rel }
  next := next kind rel

/-! ### The waits -/

variable {kind : Kind} {rel entry : ℤ}

/-- The next step of the call decides whether it waits, for the first time or after a wakeup. -/
def Pc.deciding : Pc → Bool
  | .attempt | .firstCas | .register | .acquireCas | .drain | .reload => true
  | _ => false

/-- **Every wait is given the whole duration**; and all but one of them have been answered by a wakeup. -/
structure Sound (rel : ℤ) (call : Call) : Prop where
  whole : ∀ wait ∈ call.waits, wait.timeout = rel
  passed : ∀ wait ∈ call.waits, 0 ≤ wait.elapsed
  monotone : call.entry ≤ call.now
  woken : call.waits.length + call.pc.deciding.toNat ≤ call.wakeups + 1

theorem sound_start : Sound rel (system kind rel entry).start where
  whole wait member := by cases member
  passed wait member := by cases member
  monotone := Int.le_refl entry
  woken := by
    have least := Bool.toNat_le (begin kind rel).deciding
    show 0 + (begin kind rel).deciding.toNat ≤ 0 + 1
    omega

variable {call after : Call}

/-- A step that neither waits nor returns from a wait. -/
theorem Sound.moves (sound : Sound rel call) {pc : Pc}
    (decides : pc.deciding = true → call.pc.deciding = true) : Sound rel { call with pc := pc } := by
  refine { sound with woken := ?_ }
  have before := sound.woken
  have fewer : pc.deciding.toNat ≤ call.pc.deciding.toNat := by
    cases there : pc.deciding with
    | false => exact Nat.zero_le _
    | true => rw [decides there]
  show call.waits.length + pc.deciding.toNat ≤ call.wakeups + 1
  omega

/-- **A call of the helper.** -/
theorem Sound.waitFor (sound : Sound rel call) (deciding : call.pc.deciding = true) :
    Sound rel (call.waitFor rel) where
  whole wait member := by
    rcases List.mem_cons.mp member with rfl | before
    · rfl
    · exact sound.whole wait before
  passed wait member := by
    rcases List.mem_cons.mp member with rfl | before
    · exact Int.sub_nonneg_of_le sound.monotone
    · exact sound.passed wait before
  monotone := sound.monotone
  woken := by
    have before := sound.woken
    rw [deciding, Bool.toNat_true] at before
    exact before

/-- The helper returns. -/
theorem Sound.waited (sound : Sound rel call) {point : WaitFor} (here : call.pc = .wait point) (ready : Bool) :
    Sound rel (call.waited kind ready) := by
  have before := sound.woken
  rw [here] at before
  change call.waits.length + 0 ≤ call.wakeups + 1 at before
  cases ready with
  | false => cases kind <;> exact sound.moves fun deciding => by cases deciding
  | true =>
    have woken : call.waits.length + 1 ≤ call.wakeups + 1 + 1 := by omega
    cases kind <;> exact { sound with woken := woken }

theorem Sound.examine (sound : Sound rel call) (deciding : call.pc.deciding = true) {look : Look}
    (taken : call.examine rel look = some after) : Sound rel after := by
  cases look with
  | taken => cases taken
  | free =>
    cases taken
    exact sound.moves fun _ => deciding
  | held =>
    cases taken
    exact sound.waitFor deciding

/-- **Every look of the caller.** -/
theorem Sound.looks (sound : Sound rel call) (kind : Kind) {look : Look}
    (taken : next kind rel call (.look look) = some after) : Sound rel after := by
  unfold next at taken
  cases here : call.pc with
  | attempt =>
    simp only [here] at taken
    cases look with
    | taken =>
      cases taken
      exact sound.moves fun deciding => by cases deciding
    | free => cases taken
    | held =>
      cases taken
      exact sound.waitFor (by rw [here]; rfl)
  | lastAttempt =>
    simp only [here] at taken
    cases look with
    | taken | held =>
      cases taken
      exact sound.moves fun deciding => by cases deciding
    | free =>
      cases taken
      exact sound
  | firstCas =>
    simp only [here] at taken
    cases taken
    exact sound.moves fun _ => by rw [here]; rfl
  | register | reload =>
    simp only [here] at taken
    exact sound.examine (by rw [here]; rfl) taken
  | acquireCas =>
    simp only [here] at taken
    split at taken
    · cases taken
      exact sound.moves fun deciding => by cases deciding
    · exact sound.examine (by rw [here]; rfl) taken
  | drainOwned | wait | drain | unregister | returned =>
    simp only [here] at taken
    cases taken

/-- **Every system call that returns.** -/
theorem Sound.answers (sound : Sound rel call) (kind : Kind) {answer : Answer}
    (taken : next kind rel call (.answer answer) = some after) : Sound rel after := by
  unfold next at taken
  cases here : call.pc with
  | wait point =>
    simp only [here] at taken
    split at taken
    · cases taken
      exact sound.moves fun deciding => by cases deciding
    · cases taken
      exact sound.waited here _
  | drain =>
    simp only [here] at taken
    cases taken
    exact sound.moves fun _ => by rw [here]; rfl
  | drainOwned | unregister =>
    simp only [here] at taken
    cases taken
    exact sound.moves fun deciding => by cases deciding
  | attempt | lastAttempt | firstCas | register | acquireCas | reload | returned =>
    simp only [here] at taken
    cases taken

theorem sound_of_reachable (reached : (system kind rel entry).Reachable call) : Sound rel call := by
  refine reached.invariant sound_start fun call action after _ sound _ taken => ?_
  cases action with
  | tick d =>
    cases taken
    refine { sound with monotone := ?_ }
    have before := sound.monotone
    show call.entry ≤ call.now + d
    omega
  | look look => exact sound.looks kind taken
  | answer answer => exact sound.answers kind taken

/-- **The waits and the deadline.** Every wait of a relative acquisition is given the whole duration: all stay
within what is left of it if and only if no time had passed since the entry when any of them began. Every wait
but the first follows a wakeup after which the lock or the token was gone. -/
theorem relativeAcquisition_within_deadline (reached : (system kind rel entry).Reachable call) :
    ((∀ wait ∈ call.waits, wait.timeout ≤ rel - wait.elapsed) ↔ ∀ wait ∈ call.waits, wait.elapsed = 0) ∧
    (∀ wait ∈ call.waits, wait.timeout = rel) ∧ call.waits.length ≤ call.wakeups + 1 := by
  have sound := sound_of_reachable reached
  refine ⟨forall₂_congr fun wait member => ?_, sound.whole, ?_⟩
  · have whole := sound.whole wait member
    have passed := sound.passed wait member
    omega
  · have woken := sound.woken
    omega

/-- The clock stands still, and a race is lost. -/
theorem relativeAcquisition_within_deadline_still :
    ∃ call, (system .fastEventfdMutex 10 100).Reachable call ∧ call.waits.length = 2 ∧
      ∀ wait ∈ call.waits, wait.timeout ≤ 10 - wait.elapsed := by
  obtain ⟨call, reached, computed⟩ := System.exists_reachable_of_run (system .fastEventfdMutex 10 100)
    [.look .held, .answer .ready, .answer .ready, .answer .ready, .answer .ready, .look .free, .look .held]
    (fun call => decide (call.waits.length = 2 ∧ ∀ wait ∈ call.waits, wait.elapsed = 0)) (by decide +kernel)
  obtain ⟨twice, still⟩ := of_decide_eq_true computed
  exact ⟨call, reached, twice, (relativeAcquisition_within_deadline reached).1.mpr still⟩

/-- **Two lost races.** A call for 10 ns has been woken after 9 ns and again after 18, and each time another
thread was there first: it begins a wait of 10 ns, 18 ns after its entry. -/
theorem relativeAcquisition_extends :
    ∃ call, (system .eventfdMutex 10 100).Reachable call ∧ call.pc = .wait (.wait 118 0 ⟨0, 10⟩) ∧
      call.now - call.entry = 18 ∧
      ¬ ∀ wait ∈ call.waits, wait.timeout ≤ 10 - wait.elapsed := by
  obtain ⟨call, reached, computed⟩ := System.exists_reachable_of_run (system .eventfdMutex 10 100)
    [.look .held, .answer .ready, .answer .ready, .tick 9, .answer .ready,
      .look .held, .answer .ready, .answer .ready, .tick 9, .answer .ready,
      .look .held, .answer .ready, .answer .ready]
    (fun call => decide (call.pc = .wait (.wait 118 0 ⟨0, 10⟩) ∧ call.now - call.entry = 18 ∧
      ¬ ∀ wait ∈ call.waits, wait.timeout ≤ 10 - wait.elapsed)) (by decide +kernel)
  exact ⟨call, reached, of_decide_eq_true computed⟩

end NovaSync.RelativeAcquisition
