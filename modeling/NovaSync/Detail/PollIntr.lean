/-
**`poll_intr` with a timeout: what an interruption takes off.**

After an `EINTR` the function takes the time since its entry off a timeout from which it may have taken time
before, and what is left goes to `::poll` as an `int`. One call runs while the clock goes on; how `::poll`
returns is left to the environment.

* `Kept` — every `::poll` is given what is left of the timeout, and the call does not give up early.
* `Spared` — the timeout is an `int`, and no interruption within it follows one after the first millisecond.
* `pollIntr_keeps_timeout_iff` — the one holds exactly where the other does; `pollIntr_gives_up_early` is a call
  with two interruptions.
-/

import NovaSync.Concurrency.Transition
import NovaSync.Detail.Atomic

namespace NovaSync.PollIntr

open Concurrency Detail

/-! ### One call -/

/-- Where the call stands: in `try_poll`, in `::poll` with a timeout, or after an `EINTR`; or what it has
returned, and whether this is what `::poll` has returned. -/
inductive Pc
  | tryPoll
  | poll (rem : ℤ)
  | interrupted
  | returned (rc : ℤ) (polled : Bool)
deriving DecidableEq, Repr

/-- A call of `::poll`: its timeout, and the nanoseconds since the entry when that was computed. -/
structure Poll where
  elapsed : ℤ
  rem : ℤ
deriving DecidableEq, Repr

/-- The clock, in nanoseconds, its reading at the entry, and the variable `timeout`, in milliseconds. `polls` is
history, and so is `readings`, the nanoseconds since the entry that were read after each `EINTR`. -/
structure Call where
  start : ℤ
  now : ℤ
  timeout : ℤ
  pc : Pc
  polls : List Poll
  readings : List ℤ := []
deriving DecidableEq, Repr

/-- The clock goes on, `::poll` returns, with or without `errno == EINTR`, or the call reads the clock. -/
inductive Action
  | tick (d : ℕ)
  | answer (rc : ℤ) (eintr : Bool)
  | read
deriving DecidableEq, Repr

/-- `duration_cast< milliseconds >`; the division of C++ truncates. -/
def milliseconds (ns : ℤ) : ℤ := ns.tdiv 1000000

/-- The clock goes on while the call runs. -/
def Call.tick (call : Call) (d : ℕ) : Option Call :=
  match call.pc with
  | .returned _ _ => none
  | _ => some { call with now := call.now + d }

/-- `::poll` returns. -/
def Call.answer (call : Call) (rc : ℤ) (eintr : Bool) : Option Call :=
  match call.pc with
  | .tryPoll => some { call with pc := .returned rc true }
  | .poll _ => some { call with pc := if rc < 0 ∧ eintr = true then .interrupted else .returned rc true }
  | _ => none

/-- `timeout -= duration_cast< milliseconds >( clock::now() - start )`, and what follows it. -/
def Call.read (call : Call) : Option Call :=
  match call.pc with
  | .interrupted =>
      let elapsed := call.now - call.start
      let timeout := call.timeout - milliseconds elapsed
      let readings := call.readings ++ [elapsed]
      some (if timeout ≤ 0 then
          { call with timeout := timeout, pc := .returned 0 false, readings := readings }
        else
          { call with
            timeout := timeout
            pc := .poll (int32 timeout)
            polls := call.polls ++ [⟨elapsed, int32 timeout⟩]
            readings := readings })
  | _ => none

def next (call : Call) : Action → Option Call
  | .tick d => call.tick d
  | .answer rc eintr => call.answer rc eintr
  | .read => call.read

/-- `poll_intr( fds, timeout )`, entered at a clock reading; it calls `::poll` at once. -/
def system (timeout start : ℤ) : System Call Action where
  start :=
    if timeout ≤ 0 then { start, now := start, timeout, pc := .tryPoll, polls := [⟨0, 0⟩] }
    else { start, now := start, timeout, pc := .poll (int32 timeout), polls := [⟨0, int32 timeout⟩] }
  next := next

/-! ### The timeout -/

variable {requested start : ℤ} {call after : Call}

/-- **Every `::poll` is given what is left of the timeout**, less whole milliseconds; and where the call returns 0
without a timeout of `::poll`, the timeout has passed. -/
def Kept (requested : ℤ) (call : Call) : Prop :=
  (∀ poll ∈ call.polls, poll.rem = requested - milliseconds poll.elapsed) ∧
    (call.pc = .returned 0 false → requested * 1000000 ≤ call.now - call.start)

/-- **The timeout is an `int`**, and an interruption a whole millisecond or more after the entry is not followed
by another one before the timeout has passed. -/
def Spared (requested : ℤ) (call : Call) : Prop :=
  requested < 2 ^ 31 ∧
    call.readings.Pairwise fun earlier later => earlier < 1000000 ∨ requested * 1000000 ≤ later

/-- The timeout is whole as long as all interruptions come within the first millisecond. -/
structure Sound (requested : ℤ) (call : Call) : Prop where
  monotone : call.start ≤ call.now
  first : ⟨0, int32 requested⟩ ∈ call.polls
  below : call.timeout ≤ requested
  whole : call.timeout = requested ↔ ∀ reading ∈ call.readings, reading < 1000000
  exact : Kept requested call ↔ Spared requested call

theorem milliseconds_le {ns : ℤ} (nonnegative : 0 ≤ ns) :
    0 ≤ milliseconds ns ∧ milliseconds ns * 1000000 ≤ ns ∧ ns < (milliseconds ns + 1) * 1000000 := by
  have floor : milliseconds ns = ns / 1000000 := Int.tdiv_eq_ediv_of_nonneg nonnegative
  rw [floor]
  omega

/-- A timeout that does not fit is not handed over. -/
theorem lt_of_kept (first : ⟨0, int32 requested⟩ ∈ call.polls) (kept : Kept requested call) :
    requested < 2 ^ 31 := by
  have same : int32 requested = requested - milliseconds 0 := kept.1 _ first
  have inside := (inInt32_int32 requested).2
  rw [same] at inside
  simpa [milliseconds] using inside

theorem sound_start (positive : 0 < requested) : Sound requested (system requested start).start := by
  have begun : (system requested start).start = ⟨start, start, requested, .poll (int32 requested),
      [⟨0, int32 requested⟩], []⟩ := if_neg (Int.not_le.mpr positive)
  rw [begun]
  refine ⟨Int.le_refl start, List.mem_singleton.mpr rfl, Int.le_refl requested,
    iff_of_true rfl (fun _ member => by cases member), fun kept => ?_, fun spared => ⟨?_, fun returned => ?_⟩⟩
  · exact ⟨lt_of_kept (List.mem_singleton.mpr rfl) kept, List.Pairwise.nil⟩
  · intro poll member
    cases List.mem_singleton.mp member
    have inside : InInt32 requested := ⟨by omega, spared.1⟩
    simpa [milliseconds] using int32_eq_self inside
  · cases returned

/-- A step that computes no timeout. -/
theorem Sound.moves (sound : Sound requested call) {now : ℤ} {pc : Pc} (later : call.now ≤ now)
    (running : call.pc ≠ .returned 0 false) (polled : pc ≠ .returned 0 false) :
    Sound requested { call with now := now, pc := pc } where
  monotone := Int.le_trans sound.monotone later
  first := sound.first
  below := sound.below
  whole := sound.whole
  exact := by
    refine Iff.trans ?_ sound.exact
    exact and_congr_right fun _ => iff_of_true (fun early => absurd early polled) fun early => absurd early running

theorem spared_append {reading : ℤ} {later : Call} (appended : later.readings = call.readings ++ [reading]) :
    Spared requested later ↔ Spared requested call ∧
      ∀ earlier ∈ call.readings, earlier < 1000000 ∨ requested * 1000000 ≤ reading := by
  unfold Spared
  rw [appended, List.pairwise_append, and_assoc]
  simp

/-- **An interruption** within the timeout is harmless if and only if nothing was taken off the timeout before. -/
theorem Sound.harmless (sound : Sound requested call) {reading : ℤ} :
    (∀ earlier ∈ call.readings, earlier < 1000000 ∨ requested * 1000000 ≤ reading) ↔
      call.timeout = requested ∨ requested * 1000000 ≤ reading := by
  rw [sound.whole]
  by_cases passed : requested * 1000000 ≤ reading <;> simp [passed]

/-- **The call goes on after an interruption.** -/
theorem Sound.read (sound : Sound requested call) (taken : call.read = some after) : Sound requested after := by
  unfold Call.read at taken
  split at taken
  · rename_i here
    have monotone := sound.monotone
    have below := sound.below
    have elapsed : 0 ≤ call.now - call.start := Int.sub_nonneg_of_le monotone
    obtain ⟨nonnegative, floor, ceiling⟩ := milliseconds_le elapsed
    have whole : call.timeout - milliseconds (call.now - call.start) = requested ↔
        ∀ reading ∈ call.readings ++ [call.now - call.start], reading < 1000000 := by
      simp only [List.forall_mem_append, List.forall_mem_singleton, ← sound.whole]
      omega
    have kept : Kept requested call ↔
        ∀ poll ∈ call.polls, poll.rem = requested - milliseconds poll.elapsed :=
      and_iff_left fun returned => by rw [here] at returned; cases returned
    by_cases spent : call.timeout - milliseconds (call.now - call.start) ≤ 0
    · simp only [if_pos spent, Option.some.injEq] at taken
      subst taken
      refine ⟨monotone, sound.first, by show _ - _ ≤ _; omega, whole, ?_⟩
      rw [spared_append rfl, sound.harmless, ← sound.exact, kept]
      refine and_congr_right fun _ => ⟨fun passed => Or.inr (passed rfl), fun harmless _ => ?_⟩
      rcases harmless with untouched | passed
      · show requested * 1000000 ≤ call.now - call.start
        omega
      · exact passed
    · simp only [if_neg spent, Option.some.injEq] at taken
      subst taken
      refine ⟨monotone, List.mem_append_left _ sound.first, by show _ - _ ≤ _; omega, whole, ?_⟩
      have unpassed : ¬ requested * 1000000 ≤ call.now - call.start := by omega
      rw [spared_append rfl, sound.harmless, or_iff_left unpassed, ← sound.exact, kept]
      simp only [Kept, List.forall_mem_append, List.forall_mem_singleton]
      constructor
      · rintro ⟨⟨before, given⟩, -⟩
        refine ⟨before, ?_⟩
        have fits := lt_of_kept sound.first (kept.mpr before)
        have inside : InInt32 (call.timeout - milliseconds (call.now - call.start)) := ⟨by omega, by omega⟩
        rw [int32_eq_self inside] at given
        omega
      · rintro ⟨before, untouched⟩
        have fits := lt_of_kept sound.first (kept.mpr before)
        have inside : InInt32 (call.timeout - milliseconds (call.now - call.start)) := ⟨by omega, by omega⟩
        refine ⟨⟨before, ?_⟩, nofun⟩
        rw [int32_eq_self inside, untouched]
  · cases taken

theorem Sound.next (sound : Sound requested call) {action : Action}
    (taken : PollIntr.next call action = some after) : Sound requested after := by
  cases action with
  | tick d =>
    simp only [PollIntr.next, Call.tick] at taken
    split at taken
    · cases taken
    · rename_i running
      cases taken
      exact sound.moves (by omega) (running 0 false) (running 0 false)
  | answer rc eintr =>
    simp only [PollIntr.next, Call.answer] at taken
    split at taken
    · rename_i here
      cases taken
      exact sound.moves (Int.le_refl _) (by simp [here]) (by simp)
    · rename_i here
      cases taken
      refine sound.moves (Int.le_refl _) (by simp [here]) ?_
      split <;> simp
    · cases taken
  | read => exact sound.read taken

/-- **When `poll_intr` keeps its timeout.** In every state of every call with a positive timeout, the `::poll`
calls have been given what was left of it, and the call has not given up before it had passed, if and only if
the timeout is an `int` and no interruption within it has followed one a whole millisecond or more after the
entry. -/
theorem pollIntr_keeps_timeout_iff (positive : 0 < requested)
    (reached : (system requested start).Reachable call) : Kept requested call ↔ Spared requested call := by
  have sound : Sound requested call :=
    reached.invariant (sound_start positive) fun _ _ _ _ sound _ taken => sound.next taken
  exact sound.exact

/-- A call for 10 ms that is interrupted at once and after 4 ms: the second `::poll` is given 10 ms and the
third 6. -/
theorem pollIntr_keeps_timeout_iff_once :
    ∃ call, (system 10 0).Reachable call ∧ call.polls.map Poll.rem = [10, 10, 6] ∧ Kept 10 call := by
  obtain ⟨call, reached, computed⟩ := System.exists_reachable_of_run (system 10 0)
    [.answer (-1) true, .read, .tick 4000000, .answer (-1) true, .read]
    (fun call => decide (call.polls.map Poll.rem = [10, 10, 6] ∧ call.readings = [0, 4000000]))
    (by decide +kernel)
  obtain ⟨polls, readings⟩ := of_decide_eq_true computed
  have spared : Spared 10 call := by
    refine ⟨by decide, ?_⟩
    rw [readings]
    decide
  exact ⟨call, reached, polls, (pollIntr_keeps_timeout_iff (by decide) reached).mpr spared⟩

/-- **Early by 4 ms.** A call for 10 ms is interrupted after 4 ms and after 6: it takes off 4 and then 6, and
returns 0 after 6 ms, with no timeout of `::poll`. -/
theorem pollIntr_gives_up_early :
    ∃ call, (system 10 0).Reachable call ∧ call.pc = .returned 0 false ∧ call.now - call.start = 6000000 ∧
      ¬ Kept 10 call := by
  obtain ⟨call, reached, computed⟩ := System.exists_reachable_of_run (system 10 0)
    [.tick 4000000, .answer (-1) true, .read, .tick 2000000, .answer (-1) true, .read]
    (fun call => decide (call.pc = .returned 0 false ∧ call.now - call.start = 6000000))
    (by decide +kernel)
  obtain ⟨returned, passed⟩ := of_decide_eq_true computed
  refine ⟨call, reached, returned, passed, fun kept => ?_⟩
  have late := kept.2 returned
  omega

/-- The first `::poll` of a timeout of 2^32 ms is given none. -/
example : (system (2 ^ 32) 0).start.polls = [⟨0, 0⟩] := by decide

end NovaSync.PollIntr
