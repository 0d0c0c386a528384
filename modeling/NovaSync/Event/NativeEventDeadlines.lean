/-
**The native events on Linux: the three ways to wait for a set event.**

`native_manual_reset_event` and `native_auto_reset_event` keep an eventfd. `try_wait` polls or reads it,
`try_wait_for` goes through `ppoll_for`, and `try_wait_until` through `ppoll_until`, which looks at the deadline
before it looks at the event. One call runs while the clocks move; the poll of a readable descriptor reports that
it is readable.

* `Late` — `ppoll_until` has found the deadline reached.
* `nativeEvent_waits_on_set` — on an event that stays set, where no system call fails, a call returns, and returns
  `true` unless it is late; `nativeEvent_deadline_passed` is such a call.
-/

import NovaSync.Concurrency.Transition
import NovaSync.Detail.Eventfd
import NovaSync.Detail.Kevent
import NovaSync.Detail.TimedWait

set_option linter.unusedSectionVars false

namespace NovaSync.NativeEventDeadlines

open Concurrency Detail

/-! ### One call -/

/-- `native_manual_reset_event`, `native_auto_reset_event`. -/
inductive Kind
  | manual
  | auto
deriving DecidableEq, Repr

inductive Op
  | tryWait
  | tryWaitFor (timeout : ℤ)
  | tryWaitUntil (clock : Clock) (deadline : ℤ)
deriving DecidableEq, Repr

/-- The next step of the call: the `poll` without waiting or the `read` of `try_wait`; `ppoll_for`; the clock
reading of `try_wait_until` on another clock than the two; `ppoll_until`. -/
inductive Pc
  | tryWait
  | waitFor (rel : ℤ) (point : WaitFor)
  | relative (deadline : ℤ)
  | waitUntil (clock : Clock) (deadline : ℤ) (point : WaitUntil)
  | returned (success : Bool)
deriving DecidableEq, Repr

/-- The eventfd, the clocks, and the call. `reading` is history: what `ppoll_until` has read. -/
structure Call where
  counter : Eventfd
  clocks : Clock → ℤ
  pc : Pc
  reading : Option ℤ := none

/-- The others leave the eventfd with this counter, the clocks move, or the call takes its next step. -/
inductive Action
  | others (counter : Eventfd)
  | clocks (readings : Clock → ℤ)
  | answer (answer : Answer)

/-- `try_wait_for`. -/
def tryWaitFor (timeout : ℤ) : Pc := if timeout ≤ 0 then .tryWait else .waitFor timeout .enter

def begin : Op → Pc
  | .tryWait => .tryWait
  | .tryWaitFor timeout => tryWaitFor timeout
  | .tryWaitUntil .other deadline => .relative deadline
  | .tryWaitUntil clock deadline => .waitUntil clock deadline .create

/-- What a step can answer: a poll or a read is `ready` on a positive counter only, and finds nothing, or the
timer alone, on zero only; any system call may fail. -/
def Pc.admits (counter : Eventfd) : Pc → Answer → Bool
  | .tryWait, answer | .waitFor _ (.wait _ _ _), answer =>
      match answer with
      | .ready => 0 < counter
      | .nothing => counter = 0
      | .interrupted | .failed => true
      | .timer => false
  | .waitUntil _ _ .poll, answer =>
      match answer with
      | .ready => 0 < counter
      | .timer | .nothing => counter = 0
      | .interrupted | .failed => true
  | .waitUntil _ _ .create, answer | .waitUntil _ _ (.settime _), answer => answer = .ready ∨ answer = .failed
  | .waitFor _ _, answer | .relative _, answer | .waitUntil _ _ .clock, answer => answer = .ready
  | .returned _, _ => false

/-- `try_wait`: the manual event polls, the other one reads; `read_intr` goes round after an `EINTR`. -/
def tryWait (kind : Kind) (call : Call) : Answer → Call
  | .ready =>
      { call with
        counter := if kind = .auto then call.counter.read else call.counter
        pc := .returned true }
  | .interrupted => { call with pc := if kind = .auto then .tryWait else .returned false }
  | .timer | .nothing | .failed => { call with pc := .returned false }

/-- The next step of the call. -/
def step (kind : Kind) (call : Call) (answer : Answer) : Call :=
  match call.pc with
  | .tryWait => tryWait kind call answer
  | .waitFor rel point =>
      match point.step rel (call.clocks .steady) answer with
      | .inl onward => { call with pc := .waitFor rel onward }
      | .inr ready => { call with pc := if ready then .tryWait else .returned false }
  | .relative deadline => { call with pc := tryWaitFor (deadline - call.clocks .other) }
  | .waitUntil clock deadline point =>
      let call := if point = .clock then { call with reading := some (call.clocks clock) } else call
      match point.step deadline (call.clocks clock) answer with
      | .inl onward => { call with pc := .waitUntil clock deadline onward }
      | .inr ready =>
          { call with pc := if ready && kind = .auto then .tryWait else .returned ready }
  | .returned _ => call

def next (kind : Kind) (call : Call) : Action → Option Call
  | .others counter => some { call with counter := counter }
  | .clocks readings => some { call with clocks := readings }
  | .answer answer => if call.pc.admits call.counter answer then some (step kind call answer) else none

/-- A call that is entered with the eventfd and the clocks as they are. -/
def system (kind : Kind) (op : Op) (counter : Eventfd) (clocks : Clock → ℤ) : System Call Action where
  start := { counter := counter, clocks := clocks, pc := begin op }
  next := next kind

/-- The event stays set for the caller, and no system call fails. -/
def Undisturbed (_call : Call) : Action → Prop
  | .others counter => 0 < counter
  | .clocks _ => True
  | .answer answer => answer ≠ .interrupted ∧ answer ≠ .failed

instance (call : Call) : DecidablePred (Undisturbed call)
  | .others counter => inferInstanceAs (Decidable (0 < counter))
  | .clocks _ => inferInstanceAs (Decidable True)
  | .answer answer => inferInstanceAs (Decidable (answer ≠ .interrupted ∧ answer ≠ .failed))

/-! ### The result of a call -/

/-- `ppoll_until` has read its clock at the deadline or later. -/
def Late (op : Op) (reading : Option ℤ) : Prop :=
  match op with
  | .tryWaitUntil .other _ => False
  | .tryWaitUntil _ deadline => ∃ now, reading = some now ∧ deadline ≤ now
  | .tryWait | .tryWaitFor _ => False

/-- How many steps a call still takes at most. -/
def Pc.left : Pc → ℕ
  | .returned _ => 0
  | .tryWait => 1
  | .waitFor _ (.wait _ _ _) => 2
  | .waitFor _ (.head _ _) => 3
  | .waitFor _ .enter => 4
  | .relative _ => 5
  | .waitUntil _ _ .poll => 2
  | .waitUntil _ _ (.settime _) => 3
  | .waitUntil _ _ .clock => 4
  | .waitUntil _ _ .create => 5

/-- Where a call for `op` may be that has not been interrupted. -/
def Pc.At (op : Op) : Pc → Prop
  | .waitFor rel (.head _ elapsed) => 0 < rel ∧ elapsed = none
  | .waitFor rel _ => 0 < rel
  | .waitUntil clock deadline _ => op = .tryWaitUntil clock deadline ∧ clock ≠ .other
  | .tryWait | .relative _ | .returned _ => True

/-- **The call is on time as long as it runs, and returns `true` if it was.** -/
structure Sound (op : Op) (call : Call) : Prop where
  place : call.pc.At op
  running : (∀ success, call.pc ≠ .returned success) → 0 < call.counter ∧ ¬ Late op call.reading
  result : ∀ success, call.pc = .returned success → (success = true ↔ ¬ Late op call.reading)

variable {kind : Kind} {op : Op} {counter : Eventfd} {clocks : Clock → ℤ} {call after : Call}

theorem not_late_none (op : Op) : ¬ Late op none := by
  unfold Late
  split <;> simp

theorem at_tryWaitFor (op : Op) (timeout : ℤ) : (tryWaitFor timeout).At op := by
  unfold tryWaitFor
  split
  · trivial
  · rename_i positive
    exact Int.not_le.mp positive

theorem tryWaitFor_ne_returned (timeout : ℤ) (success : Bool) : tryWaitFor timeout ≠ .returned success := by
  unfold tryWaitFor
  split <;> simp

theorem sound_start (set : 0 < counter) : Sound op (system kind op counter clocks).start where
  place := by
    cases op with
    | tryWait => trivial
    | tryWaitFor timeout => exact at_tryWaitFor _ timeout
    | tryWaitUntil clock deadline => cases clock <;> simp [system, begin, Pc.At]
  running _ := ⟨set, not_late_none op⟩
  result success returned := by
    cases op with
    | tryWait => cases returned
    | tryWaitFor timeout => exact absurd returned (tryWaitFor_ne_returned timeout success)
    | tryWaitUntil clock deadline => cases clock <;> cases returned

/-- On a set event every step that does not fail is answered at once. -/
theorem ready_of_admits {pc : Pc} {answer : Answer} (set : 0 < counter)
    (admitted : pc.admits counter answer = true) (succeeds : answer ≠ .interrupted ∧ answer ≠ .failed) :
    answer = .ready := by
  have nonzero : counter ≠ 0 := Nat.pos_iff_ne_zero.mp set
  cases answer with
  | ready => rfl
  | interrupted => exact absurd rfl succeeds.1
  | failed => exact absurd rfl succeeds.2
  | timer | nothing =>
    cases pc with
    | tryWait | relative | returned => simp [Pc.admits, nonzero] at admitted
    | waitFor rel point => cases point <;> simp [Pc.admits, nonzero] at admitted
    | waitUntil clock deadline point => cases point <;> simp [Pc.admits, nonzero] at admitted

/-- A step inside the call. -/
theorem Sound.moves (sound : Sound op call) {pc : Pc} (running : ∀ success, call.pc ≠ .returned success)
    (place : pc.At op) (onward : ∀ success, pc = .returned success → success = true) :
    Sound op { call with pc := pc } where
  place := place
  running _ := sound.running running
  result success returned := by
    rw [onward success returned]
    exact iff_of_true rfl (sound.running running).2

/-- `ppoll_until` reads its clock. -/
theorem Sound.reads (sound : Sound op call) {clock : Clock} {deadline : ℤ}
    (here : call.pc = .waitUntil clock deadline .clock) :
    Sound op (step kind call .ready) ∧ (step kind call .ready).pc.left < call.pc.left := by
  have place := sound.place
  have running := sound.running (by rw [here]; simp)
  rw [here] at place
  obtain ⟨rfl, known⟩ := place
  have late : Late (.tryWaitUntil clock deadline) (some (call.clocks clock)) ↔
      deadline - call.clocks clock ≤ 0 := by
    cases clock with
    | other => exact absurd rfl known
    | system | steady =>
      simp only [Late, Option.some.injEq, exists_eq_left']
      omega
  by_cases passed : deadline - call.clocks clock ≤ 0
  · have stepped : step kind call .ready =
        { call with reading := some (call.clocks clock), pc := .returned false } := by
      simp [step, here, WaitUntil.step, passed]
    rw [stepped, here]
    refine ⟨⟨trivial, fun unreturned => absurd rfl (unreturned false), fun success returned => ?_⟩,
      by simp [Pc.left]⟩
    cases returned
    exact iff_of_false (by decide) (not_not.mpr (late.mpr passed))
  · have stepped : step kind call .ready = { call with
        reading := some (call.clocks clock)
        pc := .waitUntil clock deadline (.settime (asTimespec (deadline - call.clocks clock))) } := by
      simp [step, here, WaitUntil.step, passed]
    rw [stepped, here]
    refine ⟨⟨⟨rfl, known⟩, fun _ => ⟨running.1, mt late.mp passed⟩, fun success returned => ?_⟩,
      by simp [Pc.left]⟩
    cases returned

/-- **Every step answered at once keeps the invariant, and is one less to take.** -/
theorem Sound.step (sound : Sound op call) (running : ∀ success, call.pc ≠ .returned success) :
    Sound op (step kind call .ready) ∧ (NativeEventDeadlines.step kind call .ready).pc.left < call.pc.left := by
  have place := sound.place
  cases here : call.pc with
  | returned success => exact absurd here (running success)
  | tryWait =>
    have stepped : NativeEventDeadlines.step kind call .ready = tryWait kind call .ready := by
      rw [NativeEventDeadlines.step, here]
    rw [stepped]
    refine ⟨⟨trivial, fun unreturned => absurd rfl (unreturned true), fun success returned => ?_⟩,
      Nat.one_pos⟩
    cases returned
    exact iff_of_true rfl (sound.running running).2
  | relative deadline =>
    have stepped : NativeEventDeadlines.step kind call .ready =
        { call with pc := tryWaitFor (deadline - call.clocks .other) } := by
      rw [NativeEventDeadlines.step, here]
    rw [stepped]
    refine ⟨sound.moves running (at_tryWaitFor op _) fun success returned => ?_, ?_⟩
    · exact absurd returned (tryWaitFor_ne_returned _ success)
    · show (tryWaitFor _).left < 5
      unfold tryWaitFor
      split <;> simp [Pc.left]
  | waitFor rel point =>
    rw [here] at place
    cases point with
    | enter =>
      have stepped : NativeEventDeadlines.step kind call .ready =
          { call with pc := .waitFor rel (.head (call.clocks .steady) none) } := by
        rw [NativeEventDeadlines.step, here]
        rfl
      rw [stepped]
      exact ⟨sound.moves running ⟨place, rfl⟩ (by simp), by simp [Pc.left]⟩
    | head begun elapsed =>
      obtain ⟨positive, rfl⟩ := place
      have stepped : NativeEventDeadlines.step kind call .ready =
          { call with pc := .waitFor rel (.wait begun 0 (asTimespec rel)) } := by
        simp [NativeEventDeadlines.step, here, WaitFor.step, Int.not_le.mpr positive]
      rw [stepped]
      exact ⟨sound.moves running positive (by simp), by simp [Pc.left]⟩
    | wait begun elapsed timeout =>
      have stepped : NativeEventDeadlines.step kind call .ready = { call with pc := .tryWait } := by
        rw [NativeEventDeadlines.step, here]
        rfl
      rw [stepped]
      exact ⟨sound.moves running trivial (by simp), by simp [Pc.left]⟩
  | waitUntil clock deadline point =>
    rw [here] at place
    cases point with
    | create =>
      have stepped : NativeEventDeadlines.step kind call .ready =
          { call with pc := .waitUntil clock deadline .clock } := by
        simp [NativeEventDeadlines.step, here, WaitUntil.step]
      rw [stepped]
      exact ⟨sound.moves running place (by simp), by simp [Pc.left]⟩
    | clock =>
      rw [← here]
      exact sound.reads here
    | settime value =>
      have stepped : NativeEventDeadlines.step kind call .ready =
          { call with pc := .waitUntil clock deadline .poll } := by
        simp [NativeEventDeadlines.step, here, WaitUntil.step]
      rw [stepped]
      exact ⟨sound.moves running place (by simp), by simp [Pc.left]⟩
    | poll =>
      have stepped : NativeEventDeadlines.step kind call .ready =
          { call with pc := if kind = .auto then .tryWait else .returned true } := by
        simp [NativeEventDeadlines.step, here, WaitUntil.step]
      rw [stepped]
      cases kind with
      | manual => exact ⟨sound.moves running trivial (by simp), by simp [Pc.left]⟩
      | auto => exact ⟨sound.moves running trivial (by simp), by simp [Pc.left]⟩

/-- **Every undisturbed action keeps the invariant.** -/
theorem Sound.next (sound : Sound op call) {action : Action} (undisturbed : Undisturbed call action)
    (taken : next kind call action = some after) : Sound op after := by
  cases action with
  | others counter =>
    cases taken
    exact ⟨sound.place, fun running => ⟨undisturbed, (sound.running running).2⟩, sound.result⟩
  | clocks readings =>
    cases taken
    exact ⟨sound.place, sound.running, sound.result⟩
  | answer answer =>
    simp only [NativeEventDeadlines.next, Option.ite_none_right_eq_some, Option.some.injEq] at taken
    obtain ⟨admitted, rfl⟩ := taken
    have running : ∀ success, call.pc ≠ .returned success := by
      intro success returned
      rw [returned] at admitted
      cases admitted
    rw [ready_of_admits (sound.running running).1 admitted undisturbed]
    exact (sound.step running).1

theorem sound_of_reach (set : 0 < counter)
    (reached : (system kind op counter clocks).Reach Undisturbed call) : Sound op call :=
  reached.invariant (sound_start set) fun _ _ _ _ sound undisturbed taken => sound.next undisturbed taken

/-- On a set event a step that succeeds is always possible. -/
theorem admits_ready {pc : Pc} (set : 0 < counter) (running : ∀ success, pc ≠ .returned success) :
    pc.admits counter .ready = true := by
  cases pc with
  | returned success => exact absurd rfl (running success)
  | tryWait => simp [Pc.admits, set]
  | relative deadline => rfl
  | waitFor rel point => cases point <;> simp [Pc.admits, set]
  | waitUntil clock deadline point => cases point <;> simp [Pc.admits, set]

/-- **The waits on a set event.** While the event is set and no system call fails,

* a call that has returned has returned `true` if and only if it was not late: `try_wait` and `try_wait_for`
  always, and `try_wait_until` if `ppoll_until` has read its clock before the deadline;
* a call that has not returned can take its next step, and every step of it is one less to take. -/
theorem nativeEvent_waits_on_set (set : 0 < counter)
    (reached : (system kind op counter clocks).Reach Undisturbed call) :
    (∀ success, call.pc = .returned success → (success = true ↔ ¬ Late op call.reading)) ∧
    ((∀ success, call.pc ≠ .returned success) →
      (∃ after, next kind call (.answer .ready) = some after) ∧
      ∀ answer after, Undisturbed call (.answer answer) → next kind call (.answer answer) = some after →
        after.pc.left < call.pc.left) := by
  have sound := sound_of_reach set reached
  refine ⟨sound.result, fun running => ⟨?_, fun answer after undisturbed taken => ?_⟩⟩
  · exact ⟨_, if_pos (admits_ready (sound.running running).1 running)⟩
  · simp only [next, Option.ite_none_right_eq_some, Option.some.injEq] at taken
    obtain ⟨admitted, rfl⟩ := taken
    rw [ready_of_admits (sound.running running).1 admitted undisturbed]
    exact (sound.step running).2

/-- A deadline in the future, on a manual-reset event. -/
theorem nativeEvent_waits_on_set_future :
    ∃ call, (system .manual (.tryWaitUntil .steady 5) 1 fun _ => 0).Reach Undisturbed call ∧
      ∃ success, call.pc = .returned success ∧ call.reading = some 0 ∧ success = true := by
  obtain ⟨call, reached, computed⟩ := System.exists_reach_of_run
    (system .manual (.tryWaitUntil .steady 5) 1 fun _ => 0) Undisturbed
    [.answer .ready, .answer .ready, .others 2, .answer .ready, .answer .ready]
    (fun call => decide ((∃ success, call.pc = .returned success) ∧ call.reading = some 0)) (by decide +kernel)
  obtain ⟨⟨success, returned⟩, reading⟩ := of_decide_eq_true computed
  refine ⟨call, reached, success, returned, reading, ?_⟩
  refine ((nativeEvent_waits_on_set Nat.one_pos reached).1 success returned).mpr ?_
  rw [reading]
  rintro ⟨now, same, passed⟩
  cases same
  exact absurd passed (by decide)

/-- **A deadline that has passed.** On an event that is set, `try_wait` and `try_wait_for` with no time left
return `true`, and `try_wait_until` at the moment of its deadline returns `false`. -/
theorem nativeEvent_deadline_passed :
    (∃ call, (system .manual .tryWait 1 fun _ => 5).Reach Undisturbed call ∧ call.pc = .returned true) ∧
    (∃ call, (system .manual (.tryWaitFor 0) 1 fun _ => 5).Reach Undisturbed call ∧ call.pc = .returned true) ∧
    ∃ call, (system .manual (.tryWaitUntil .steady 5) 1 fun _ => 5).Reach Undisturbed call ∧
      call.pc = .returned false := by
  have run : ∀ (op : Op) (actions : List Action) (success : Bool),
      (((system .manual op 1 fun _ => 5).restrict Undisturbed).run (system .manual op 1 fun _ => 5).start
        actions).any (fun call => decide (call.pc = .returned success)) = true →
      ∃ call, (system .manual op 1 fun _ => 5).Reach Undisturbed call ∧ call.pc = .returned success := by
    intro op actions success computed
    obtain ⟨call, reached, checked⟩ := System.exists_reach_of_run _ Undisturbed actions _ computed
    exact ⟨call, reached, of_decide_eq_true checked⟩
  refine ⟨run .tryWait [.answer .ready] true (by decide +kernel),
    run (.tryWaitFor 0) [.answer .ready] true (by decide +kernel),
    run (.tryWaitUntil .steady 5) [.answer .ready, .answer .ready] false (by decide +kernel)⟩

end NovaSync.NativeEventDeadlines
