/-
**`ppoll_for` and `kevent_for` across interruptions.**

Both helpers read the clock once at their entry and, after an `EINTR`, once more before each further wait. One
call runs while the clock goes on; how its kernel waits are answered is left to the environment.

* `Given` — what the `k`-th kernel wait is given: what is left of the duration, as a normal `timespec`.
* `Sound` — the invariant of a call; a wait is begun by one step, `Sound.go`, and answered by another.
* `Progress` — the call goes on until it returns: with time left it begins a wait, and otherwise it gives up.
* `timedWait_keeps_deadline` — every wait is given what is left, the call returns what its waits have reported,
  and where the duration has passed at most one more wait begins.
-/

import NovaSync.Concurrency.Transition
import NovaSync.Detail.TimedWait

namespace NovaSync.InterruptedWait

open Concurrency Detail

/-! ### One call -/

/-- A call of `ppoll` or `kevent`: its timeout, and the clock when the timeout was computed. -/
structure Wait where
  now : ℤ
  timeout : Timespec
deriving DecidableEq, Repr

/-- The clock, and where the call stands or what it has returned. `waits` and `answers` are history, in the order
in which they came. -/
structure Call where
  now : ℤ
  pc : WaitFor ⊕ Bool
  waits : List Wait := []
  answers : List Answer := []
deriving DecidableEq, Repr

/-- The clock goes on, the call goes on, or the kernel wait returns. -/
inductive Action
  | tick (d : ℕ)
  | go
  | answer (answer : Answer)
deriving DecidableEq, Repr

/-- The wait that begins with a step to this point. -/
def begun (now : ℤ) : WaitFor ⊕ Bool → List Wait
  | .inl (.wait _ _ timeout) => [⟨now, timeout⟩]
  | _ => []

/-- The clock goes on while the call runs. -/
def Call.tick (call : Call) (d : ℕ) : Option Call :=
  match call.pc with
  | .inl _ => some { call with now := call.now + d }
  | .inr _ => none

/-- The head of the loop. -/
def Call.go (rel : ℤ) (call : Call) : Option Call :=
  match call.pc with
  | .inl (.head start elapsed) =>
      let pc := (WaitFor.head start elapsed).step rel call.now .ready
      some { call with pc := pc, waits := call.waits ++ begun call.now pc }
  | _ => none

/-- The kernel wait returns. The only descriptor is the lock's, so that it does not report a timer. -/
def Call.answer (rel : ℤ) (call : Call) (answer : Answer) : Option Call :=
  match call.pc with
  | .inl (.wait start elapsed timeout) =>
      if answer = .timer then none
      else
        some { call with
          pc := (WaitFor.wait start elapsed timeout).step rel call.now answer
          answers := call.answers ++ [answer] }
  | _ => none

/-- The call after an action. -/
def next (rel : ℤ) (call : Call) : Action → Option Call
  | .tick d => call.tick d
  | .go => call.go rel
  | .answer answer => call.answer rel answer

/-- The loop of both helpers, from the reading that `start` keeps. -/
def loop (rel entry : ℤ) : System Call Action where
  start := { now := entry, pc := WaitFor.enter.step rel entry .ready }
  next := next rel

/-- `ppoll_for( fd, rel )`, entered at a clock reading. -/
def ppollFor (rel entry : ℤ) : System Call Action := loop rel entry

/-- `kevent_for( kqfd, rel_ns )`, entered at a clock reading. -/
def keventFor (relNs entry : ℤ) : System Call Action := loop relNs entry

/-! ### The waits and the result -/

variable {rel entry : ℤ} {call after : Call}

/-- **What the `k`-th wait is given**: the duration, less the time since the entry (none for the first wait). It
is positive, and the `timespec` is this number of nanoseconds, split in seconds and less than a second. -/
def Given (rel entry : ℤ) (k : ℕ) (wait : Wait) : Prop :=
  0 < rel - (if k = 0 then 0 else wait.now - entry) ∧
    wait.timeout.sec * 1000000000 + wait.timeout.nsec = rel - (if k = 0 then 0 else wait.now - entry) ∧
    0 ≤ wait.timeout.nsec ∧ wait.timeout.nsec < 1000000000

/-- The duration has passed, a wait has timed out, or one has failed. -/
def Call.Over (rel entry : ℤ) (call : Call) : Prop :=
  rel ≤ call.now - entry ∨ .nothing ∈ call.answers ∨ .failed ∈ call.answers

/-- What is left of the duration, where the call looks at it: all of it before the first wait. -/
def Call.left (rel entry : ℤ) (call : Call) : ℤ := rel - if call.waits = [] then 0 else call.now - entry

/-- The waits of the call so far were interrupted. -/
def Call.Interrupted (call : Call) : Prop := ∀ answer ∈ call.answers, answer = .interrupted

/-- **The call goes on until it returns.** All its waits have been answered and it is about to look at the clock, or
it is inside a wait, which may return in any way; and as it looks it begins another wait if there is time left, and
returns `false` if there is none. -/
structure Progress (helper : System Call Action) (rel entry : ℤ) (call : Call) : Prop where
  runs : ∀ point, call.pc = .inl point → call.Interrupted ∧
    (call.waits.length = call.answers.length ∧ (∃ after, helper.next call .go = some after) ∨
      call.waits.length = call.answers.length + 1 ∧
        ∀ answer, answer ≠ .timer → ∃ after, helper.next call (.answer answer) = some after)
  answers : ∀ answer after, helper.next call (.answer answer) = some after →
    after.answers = call.answers ++ [answer] ∧ after.waits = call.waits
  goes : ∀ after, helper.next call .go = some after →
    0 < call.left rel entry ∧ (∃ point, after.pc = .inl point) ∧ (∃ wait, after.waits = call.waits ++ [wait]) ∨
      call.left rel entry ≤ 0 ∧ after.pc = .inr false ∧ after.waits = call.waits

/-- Where the call stands: `elapsed` is empty before the first wait, and only then. -/
def Call.Standing (rel entry : ℤ) (call : Call) : Prop :=
  match call.pc with
  | .inl .enter => False
  | .inl (.head start elapsed) =>
      start = entry ∧ (elapsed.isSome = true ↔ call.waits ≠ []) ∧ call.Interrupted ∧
        call.waits.length = call.answers.length
  | .inl (.wait start _ _) => start = entry ∧ call.Interrupted ∧ call.waits.length = call.answers.length + 1
  | .inr true => .ready ∈ call.answers
  | .inr false => .ready ∉ call.answers ∧ call.Over rel entry

structure Sound (rel entry : ℤ) (call : Call) : Prop where
  monotone : entry ≤ call.now
  given : ∀ k wait, call.waits[k]? = some wait → Given rel entry k wait
  standing : call.Standing rel entry

theorem sound_start : Sound rel entry (loop rel entry).start where
  monotone := Int.le_refl entry
  given k wait found := by cases found
  standing := by simp [loop, WaitFor.step, Call.Standing, Call.Interrupted]

theorem Call.Interrupted.unready (interrupted : call.Interrupted) : .ready ∉ call.answers := by
  intro ready
  cases interrupted .ready ready

theorem given_asTimespec {k : ℕ} {now remaining : ℤ} (positive : 0 < remaining)
    (left : remaining = rel - (if k = 0 then 0 else now - entry)) :
    Given rel entry k ⟨now, asTimespec remaining⟩ := by
  refine ⟨left ▸ positive, ?_, asTimespec_nsec (Int.le_of_lt positive)⟩
  exact (asTimespec_total remaining).trans left

/-- **The head of the loop**: the call returns, or it begins a wait for what is left. -/
theorem Sound.go_cases (sound : Sound rel entry call) (taken : call.go rel = some after) :
    (call.Interrupted ∧ call.waits.length = call.answers.length) ∧
    (call.left rel entry ≤ 0 ∧ after = { call with pc := .inr false } ∨
      0 < call.left rel entry ∧ ∃ elapsed, after = { call with
        pc := .inl (.wait entry elapsed (asTimespec (call.left rel entry)))
        waits := call.waits ++ [⟨call.now, asTimespec (call.left rel entry)⟩] }) := by
  unfold Call.go at taken
  split at taken
  · rename_i start elapsed here
    have standing := sound.standing
    rw [Call.Standing, here] at standing
    obtain ⟨rfl, later, known⟩ := standing
    have left : rel - (if elapsed.isSome then call.now - start else 0) = call.left rel start := by
      unfold Call.left
      by_cases first : call.waits = []
      · have absent : ¬ elapsed.isSome = true := fun some => later.mp some first
        rw [if_neg absent, if_pos first]
      · rw [if_pos (later.mpr first), if_neg first]
    refine ⟨known, ?_⟩
    cases taken
    by_cases spent : call.left rel start ≤ 0
    · refine Or.inl ⟨spent, ?_⟩
      simp only [WaitFor.step, left, if_pos spent, begun, List.append_nil]
    · refine Or.inr ⟨Int.not_le.mp spent, if elapsed.isSome then call.now - start else 0, ?_⟩
      simp only [WaitFor.step, left, if_neg spent, begun]
  · cases taken

theorem Sound.go (sound : Sound rel entry call) (taken : call.go rel = some after) :
    Sound rel entry after := by
  have monotone := sound.monotone
  obtain ⟨⟨interrupted, answered⟩, ⟨spent, rfl⟩ | ⟨positive, elapsed, rfl⟩⟩ := sound.go_cases taken
  · refine ⟨monotone, sound.given, interrupted.unready, Or.inl ?_⟩
    show rel ≤ call.now - entry
    unfold Call.left at spent
    split at spent <;> omega
  · refine ⟨monotone, fun k wait found => ?_, rfl, interrupted, by simp [answered]⟩
    simp only [List.getElem?_append] at found
    split at found
    · exact sound.given k wait found
    · rename_i outside
      obtain ⟨position, rfl⟩ := List.getElem?_eq_some_iff.mp found
      have last : k = call.waits.length := by
        simp only [List.length_singleton] at position
        omega
      subst last
      simp only [Nat.sub_self, List.getElem_cons_zero]
      refine given_asTimespec positive ?_
      simp only [Call.left, List.length_eq_zero_iff]

/-- **A kernel wait returns.** -/
theorem Sound.answer (sound : Sound rel entry call) {answer : Answer}
    (taken : call.answer rel answer = some after) : Sound rel entry after := by
  unfold Call.answer at taken
  split at taken
  · rename_i start elapsed timeout here
    have standing := sound.standing
    rw [Call.Standing, here] at standing
    obtain ⟨rfl, interrupted, unanswered⟩ := standing
    have unready := interrupted.unready
    cases answer with
    | timer => cases taken
    | ready =>
      cases taken
      exact ⟨sound.monotone, sound.given, List.mem_append_right _ (List.mem_singleton.mpr rfl)⟩
    | interrupted =>
      cases taken
      have begun : call.waits ≠ [] := List.ne_nil_of_length_eq_add_one unanswered
      refine ⟨sound.monotone, sound.given, rfl, iff_of_true rfl begun, fun answer member => ?_, by
        simp [unanswered]⟩
      rcases List.mem_append.mp member with before | last
      · exact interrupted answer before
      · exact List.mem_singleton.mp last
    | nothing =>
      cases taken
      exact ⟨sound.monotone, sound.given, by simpa using unready,
        Or.inr (Or.inl (List.mem_append_right _ (List.mem_singleton.mpr rfl)))⟩
    | failed =>
      cases taken
      exact ⟨sound.monotone, sound.given, by simpa using unready,
        Or.inr (Or.inr (List.mem_append_right _ (List.mem_singleton.mpr rfl)))⟩
  · cases taken

/-- The clock goes on while the call runs. -/
theorem Sound.tick (sound : Sound rel entry call) {d : ℕ}
    (taken : call.tick d = some after) : Sound rel entry after := by
  unfold Call.tick at taken
  split at taken
  · rename_i point here
    cases taken
    have monotone := sound.monotone
    have standing := sound.standing
    rw [Call.Standing, here] at standing
    refine ⟨?_, sound.given, ?_⟩
    · show entry ≤ call.now + d
      omega
    · rw [Call.Standing, here]
      cases point <;> exact standing
  · cases taken

theorem Sound.next (sound : Sound rel entry call) {action : Action}
    (taken : InterruptedWait.next rel call action = some after) : Sound rel entry after := by
  cases action with
  | tick d => exact sound.tick taken
  | go => exact sound.go taken
  | answer answer => exact sound.answer taken

theorem sound_of_reachable (reached : (loop rel entry).Reachable call) : Sound rel entry call :=
  reached.invariant sound_start fun _ _ _ _ sound _ taken => sound.next taken

/-- Where the duration has passed, only the first wait can still begin. -/
theorem Sound.few (sound : Sound rel entry call) (passed : rel ≤ call.now - entry) {action : Action}
    (taken : InterruptedWait.next rel call action = some after) :
    rel ≤ after.now - entry ∧ after.waits.length ≤ max 1 call.waits.length := by
  cases action with
  | tick d =>
    simp only [InterruptedWait.next, Call.tick] at taken
    split at taken
    · cases taken
      refine ⟨?_, Nat.le_max_right _ _⟩
      show rel ≤ call.now + d - entry
      omega
    · cases taken
  | answer answer =>
    simp only [InterruptedWait.next, Call.answer] at taken
    split at taken
    · split at taken
      · cases taken
      · cases taken
        exact ⟨passed, Nat.le_max_right _ _⟩
    · cases taken
  | go =>
    obtain ⟨-, ⟨-, rfl⟩ | ⟨positive, elapsed, rfl⟩⟩ := sound.go_cases taken
    · exact ⟨passed, Nat.le_max_right _ _⟩
    · refine ⟨passed, ?_⟩
      have first : call.waits = [] := by
        by_contra waited
        rw [Call.left, if_neg waited] at positive
        omega
      simp [first]

/-- **A call past its duration**: whatever comes, at most one wait more, and that one only if it is the first. -/
theorem waits_of_passed (reached : (loop rel entry).Reachable call) (passed : rel ≤ call.now - entry)
    {later : Call} (resumed : ((loop rel entry).resume call).Reachable later) :
    later.waits.length ≤ max 1 call.waits.length := by
  have both : rel ≤ later.now - entry ∧ later.waits.length ≤ max 1 call.waits.length := by
    refine resumed.invariant (P := fun later => rel ≤ later.now - entry ∧
      later.waits.length ≤ max 1 call.waits.length) ⟨passed, Nat.le_max_right _ _⟩ ?_
    intro between action after before ⟨spent, few⟩ _ taken
    obtain ⟨onward, fewer⟩ := (sound_of_reachable (reached.resume before)).few spent taken
    exact ⟨onward, by omega⟩
  exact both.2

/-- **The call goes on** from every state that it has not returned in. -/
theorem Sound.progress (sound : Sound rel entry call) : Progress (loop rel entry) rel entry call where
  runs point here := by
    have standing := sound.standing
    rw [Call.Standing, here] at standing
    cases point with
    | enter => exact standing.elim
    | head start elapsed =>
      refine ⟨standing.2.2.1, Or.inl ⟨standing.2.2.2, ?_⟩⟩
      simp only [loop, InterruptedWait.next, Call.go, here]
      exact ⟨_, rfl⟩
    | wait start elapsed timeout =>
      refine ⟨standing.2.1, Or.inr ⟨standing.2.2, fun answer untimed => ?_⟩⟩
      simp only [loop, InterruptedWait.next, Call.answer, here, if_neg untimed]
      exact ⟨_, rfl⟩
  answers answer after taken := by
    simp only [loop, InterruptedWait.next, Call.answer] at taken
    split at taken
    · split at taken <;> cases taken
      exact ⟨rfl, rfl⟩
    · cases taken
  goes after taken := by
    obtain ⟨-, ⟨spent, rfl⟩ | ⟨positive, elapsed, rfl⟩⟩ := sound.go_cases taken
    · exact Or.inr ⟨spent, rfl, rfl⟩
    · exact Or.inl ⟨positive, ⟨_, rfl⟩, _, rfl⟩

/-- **One deadline across interruptions.** In every state of a call of `ppoll_for` or `kevent_for`, whatever its
duration,

* the `k`-th kernel wait has been given the duration less the time since the entry, which is positive, as a
  normal `timespec`;
* the call has returned `true` if and only if a wait has reported readiness;
* where it has returned `false`, the duration has passed, a wait has timed out, or one has failed;
* where it has not returned, its waits have been interrupted, and it goes on: with time left (for the first
  wait, of a positive duration) it begins a wait, and otherwise it returns `false`;
* where the clock has come to the end of the duration, no run makes more than one wait in addition, and none if
  there has been one: a call has finitely many waits. -/
theorem timedWait_keeps_deadline {helper : System Call Action}
    (named : helper = ppollFor rel entry ∨ helper = keventFor rel entry) (reached : helper.Reachable call) :
    (∀ k wait, call.waits[k]? = some wait → Given rel entry k wait) ∧
    (call.pc = .inr true ↔ .ready ∈ call.answers) ∧
    (call.pc = .inr false → call.Over rel entry) ∧
    Progress helper rel entry call ∧
    (rel ≤ call.now - entry → ∀ later, (helper.resume call).Reachable later →
      later.waits.length ≤ max 1 call.waits.length) := by
  obtain rfl : helper = loop rel entry := named.elim id id
  have sound := sound_of_reachable reached
  have standing := sound.standing
  refine ⟨sound.given, ?_, fun returned => ?_, sound.progress, fun passed later => waits_of_passed reached passed⟩
  · unfold Call.Standing at standing
    split at standing
    · exact standing.elim
    · rename_i here
      exact iff_of_false (by simp [here]) standing.2.2.1.unready
    · rename_i here
      exact iff_of_false (by simp [here]) standing.2.1.unready
    · rename_i here
      exact iff_of_true here standing
    · rename_i here
      exact iff_of_false (by simp [here]) standing.1
  · rw [Call.Standing, returned] at standing
    exact standing.2

/-- Calls for 5 s that are interrupted after 2 s and once more 1.5 s later: the waits of `ppoll_for` are given 5 s,
3 s and 1.5 s, and the last of them finds the descriptor readable; `kevent_for` is interrupted for the second time
after 6 s, and looks at the clock before it returns `false`. -/
theorem timedWait_keeps_deadline_interrupted :
    (∃ call, (ppollFor 5000000000 100).Reachable call ∧ call.pc = .inr true ∧
      call.waits.map Wait.timeout = [⟨5, 0⟩, ⟨3, 0⟩, ⟨1, 500000000⟩] ∧
      ∀ k wait, call.waits[k]? = some wait → Given 5000000000 100 k wait) ∧
    ∃ call after, (keventFor 5000000000 100).Reachable call ∧
      call.waits.map Wait.timeout = [⟨5, 0⟩, ⟨3, 0⟩] ∧
      (∀ k wait, call.waits[k]? = some wait → Given 5000000000 100 k wait) ∧
      (keventFor 5000000000 100).next call .go = some after ∧ after.pc = .inr false := by
  constructor
  · obtain ⟨call, reached, computed⟩ := System.exists_reachable_of_run (ppollFor 5000000000 100)
      [.go, .tick 2000000000, .answer .interrupted, .go, .tick 1500000000, .answer .interrupted, .go,
        .answer .ready]
      (fun call => decide (call.pc = .inr true ∧
        call.waits.map Wait.timeout = [⟨5, 0⟩, ⟨3, 0⟩, ⟨1, 500000000⟩]))
      (by decide +kernel)
    obtain ⟨returned, timeouts⟩ := of_decide_eq_true computed
    exact ⟨call, reached, returned, timeouts, (timedWait_keeps_deadline (Or.inl rfl) reached).1⟩
  · obtain ⟨call, reached, computed⟩ := System.exists_reachable_of_run (keventFor 5000000000 100)
      [.go, .tick 2000000000, .answer .interrupted, .go, .tick 4000000000, .answer .interrupted]
      (fun call => decide (call.pc = .inl (.head 100 (some 2000000000)) ∧ call.now = 6000000100 ∧
        call.waits.map Wait.timeout = [⟨5, 0⟩, ⟨3, 0⟩]))
      (by decide +kernel)
    obtain ⟨here, now, timeouts⟩ := of_decide_eq_true computed
    obtain ⟨given, -, -, progress, -⟩ := timedWait_keeps_deadline (Or.inr rfl) reached
    obtain ⟨after, taken⟩ : ∃ after, (keventFor 5000000000 100).next call .go = some after := by
      simp only [keventFor, loop, next, Call.go, here]
      exact ⟨_, rfl⟩
    refine ⟨call, after, reached, timeouts, given, taken, ?_⟩
    rcases progress.goes after taken with ⟨positive, -⟩ | ⟨-, returned, -⟩
    · have waited : call.waits ≠ [] := by
        intro none
        rw [none] at timeouts
        cases timeouts
      rw [Call.left, if_neg waited, now] at positive
      omega
    · exact returned

end NovaSync.InterruptedWait
