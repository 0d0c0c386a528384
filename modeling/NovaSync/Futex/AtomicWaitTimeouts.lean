/-
**The timed waits of `futex/atomic_wait.cpp` on Linux, Windows and Apple: when they give up.**

One call of `atomic_wait_for` or of an overload of `atomic_wait_until` runs while others write the word and the
clocks move. The steady clock never goes back; the system clock may be set to any time. What `WaitOnAddress` and
`os_sync_wait_on_address_with_timeout` return is ignored, and both may return for no reason.

* `atomicWait_timeouts` — a call answers what its last load has found. It answers `false` before its deadline in
  exactly these cases: on Linux the futex call fails; the only wait of `atomic_wait_for` on Windows and Apple, and
  of `atomic_wait_until` for the system clock on Windows, is left before the deadline. The steady overload of
  `atomic_wait_until`, which loops, has no such case.
* `atomicWait_system_apple` — the conversion of a system deadline to the steady clock is as good as the clocks:
  no early answer, as long as the system clock does not fall behind the steady one.
* `atomicWait_windows_early` — the milliseconds of `WaitOnAddress` are rounded down, which is less than one
  millisecond early.
-/

import NovaSync.Concurrency.Transition
import Mathlib.Algebra.Ring.Int.Defs

set_option linter.unusedSectionVars false

namespace NovaSync.AtomicWaitTimeouts

open Concurrency

/-! ### One call -/

inductive Platform
  | linux
  | windows
  | apple
deriving DecidableEq, Repr

/-- `atomic_wait_for`, and the two overloads of `atomic_wait_until`. Times are nanoseconds. -/
inductive Op
  | waitFor (rel : ℤ)
  | untilSteady (deadline : ℤ)
  | untilSystem (deadline : ℤ)
deriving DecidableEq, Repr

/-- What follows a first load that finds nothing: the wait, the clock reading of a loop, or that of
`system_clock_to_steady`. -/
inductive Stage
  | wait
  | remaining
  | convert
deriving DecidableEq, Repr

/-- The next access to the word, clock reading or system call.

* `once`: the load of a call without time left.
* `readSystem`, `readSteady`: the clock readings outside a loop.
* `probe`: a load before a wait.
* `remaining`, `late`: `deadline - now()` and `now() >= deadline` in a loop.
* `wait`: the call of the kernel, which compares the word; `asleep time`: the sleep, with its time out.
* `check`: the load after it; `reload`: the one of `atomic_wait_until` after its `atomic_wait_for`.
* `last`: the load after `ETIMEDOUT`. -/
inductive Pc
  | once
  | readSystem
  | readSteady
  | probe (stage : Stage)
  | remaining
  | wait
  | asleep (time : ℤ)
  | check
  | reload
  | late
  | last
  | returned (result : Bool)
deriving DecidableEq, Repr

def Stage.pc : Stage → Pc
  | .wait => .wait
  | .remaining => .remaining
  | .convert => .readSystem

/-- The word and the clocks, and the call. `rel` is `rel` or `remaining`, `limit` the deadline of a loop or of the
futex call.

`passed` and `seen` are history: whether the deadline of the call has been reached, and whether its last load has
found the word changed. -/
structure Call (Word : Type*) where
  word : Word
  steady : ℤ
  system : ℤ
  pc : Pc
  rel : ℤ
  limit : ℤ
  passed : Bool
  seen : Option Bool := none
deriving DecidableEq, Repr

/-- The others write the word; the clocks move; or the call goes on. A sleep ends by a wake or for no reason, by a
signal, or by its timeout; a system call may fail. -/
inductive Action (Word : Type*)
  | store (word : Word)
  | clocks (steady system : ℤ)
  | go
  | wake
  | interrupt
  | expire
  | fail
deriving DecidableEq, Repr

/-- The deadline of a call that was entered when the steady clock showed `begun`. -/
def reached (op : Op) (begun steady system : ℤ) : Bool :=
  match op with
  | .waitFor rel => begun + rel ≤ steady
  | .untilSteady deadline => deadline ≤ steady
  | .untilSystem deadline => deadline ≤ system

/-- The milliseconds of `WaitOnAddress`, as nanoseconds. `INFINITE` is 0xFFFFFFFF. -/
def timeoutMs (rel : ℤ) : ℤ :=
  let ms := rel / 1000000
  let ms := if ms = 0 ∧ 0 < rel then 1 else ms
  min ms (0xFFFFFFFF - 1) * 1000000

/-- The calls that loop until the steady clock has reached a deadline. -/
def looping : Platform → Op → Bool
  | .windows, .untilSteady _ | .apple, .untilSteady _ | .apple, .untilSystem _ => true
  | _, _ => false

/-- The calls that wait once. -/
def single : Platform → Op → Bool
  | .windows, .waitFor _ | .windows, .untilSystem _ | .apple, .waitFor _ => true
  | _, _ => false

/-- The calls that convert a system deadline to the steady clock. -/
def converts : Platform → Op → Bool
  | .apple, .untilSystem _ => true
  | _, _ => false

/-- The first step of a call. -/
def begin : Platform → Op → Pc
  | .linux, .waitFor rel => if rel ≤ 0 then .once else .readSteady
  | .windows, .waitFor rel | .apple, .waitFor rel => if rel ≤ 0 then .once else .probe .wait
  | .linux, .untilSteady _ | .linux, .untilSystem _ => .probe .wait
  | .windows, .untilSteady _ => .remaining
  | .windows, .untilSystem _ => .readSystem
  | .apple, .untilSteady _ => .probe .remaining
  | .apple, .untilSystem _ => .probe .convert

def Op.rel : Op → ℤ
  | .waitFor rel => rel
  | .untilSteady _ | .untilSystem _ => 0

def Op.deadline : Op → ℤ
  | .waitFor _ => 0
  | .untilSteady deadline | .untilSystem deadline => deadline

section Step

variable {Word : Type*} [DecidableEq Word]

/-- A load that is followed by `return true` where it finds the word changed. -/
def load (old : Word) (call : Call Word) (unchanged : Pc) : Call Word :=
  if call.word ≠ old then { call with pc := .returned true, seen := some true }
  else { call with pc := unchanged, seen := some false }

/-- When a sleep that begins now times out. -/
def timeout (platform : Platform) (call : Call Word) : ℤ :=
  match platform with
  | .linux => call.limit
  | .windows => call.steady + timeoutMs call.rel
  | .apple => call.steady + call.rel

/-- What follows the load after a wait that has found nothing. -/
def unchanged (platform : Platform) (op : Op) : Pc :=
  match platform with
  | .linux => .wait
  | .windows => if looping .windows op then .reload else .returned false
  | .apple => if looping .apple op then .late else .returned false

/-- The next step of the code. -/
def advance (platform : Platform) (op : Op) (old : Word) (call : Call Word) : Option (Call Word) :=
  match call.pc with
  | .once | .last => some (load old call (.returned false))
  | .readSystem =>
      let rel := call.limit - call.system
      some { call with
        rel := rel
        pc := if platform = .windows then if rel ≤ 0 then .once else .probe .wait else .readSteady }
  | .readSteady =>
      some { call with
        limit := call.steady + call.rel
        pc := .probe (if looping platform op then .remaining else .wait) }
  | .probe stage => some (load old call stage.pc)
  | .remaining =>
      let rel := call.limit - call.steady
      some { call with
        rel := rel
        pc := if rel ≤ 0 then .once else if platform = .windows then .probe .wait else .wait }
  | .wait =>
      some { call with pc := if call.word ≠ old then .check else .asleep (timeout platform call) }
  | .check => some (load old call (unchanged platform op))
  | .reload => some (load old call .late)
  | .late => some { call with pc := if call.limit ≤ call.steady then .returned false else .remaining }
  | .asleep _ | .returned _ => none

/-- The clock of a timeout. -/
def clock (platform : Platform) (op : Op) (call : Call Word) : ℤ :=
  match platform, op with
  | .linux, .untilSystem _ => call.system
  | _, _ => call.steady

/-- The end of a sleep. -/
def leave (platform : Platform) (op : Op) (call : Call Word) (time : ℤ) : Action Word → Option (Call Word)
  | .wake => some { call with pc := .check }
  | .interrupt => some { call with pc := if platform = .linux then .wait else .check }
  | .expire =>
      if time ≤ clock platform op call then
        some { call with pc := if platform = .linux then .last else .check }
      else none
  | .store _ | .clocks _ _ | .go | .fail => none

def next (platform : Platform) (op : Op) (begun : ℤ) (old : Word) (call : Call Word) :
    Action Word → Option (Call Word)
  | .store word => some { call with word := word }
  | .clocks steady system =>
      if call.steady ≤ steady then
        some { call with
          steady := steady
          system := system
          passed := call.passed || reached op begun steady system }
      else none
  | .go => advance platform op old call
  | .fail =>
      if call.pc = .wait then
        some { call with pc := if platform = .linux then .returned false else .check }
      else none
  | action =>
      match call.pc with
      | .asleep time => leave platform op call time action
      | _ => none

/-- A call that is entered with the word and the clocks as they are. -/
def system (platform : Platform) (op : Op) (old word : Word) (steady system : ℤ) :
    System (Call Word) (Action Word) where
  start :=
    { word := word, steady := steady, system := system, pc := begin platform op, rel := op.rel,
      limit := op.deadline, passed := reached op steady steady system }
  next := next platform op steady old

/-! ### Where a call stands -/

/-- The limit is the deadline of the call, or later. -/
def Due (platform : Platform) (op : Op) (begun : ℤ) (call : Call Word) : Prop :=
  match platform, op with
  | .apple, .untilSystem deadline => deadline - call.system ≤ call.limit - call.steady
  | _, .waitFor rel => begun + rel ≤ call.limit
  | _, .untilSteady deadline | _, .untilSystem deadline => deadline ≤ call.limit

/-- What a call knows at each of its steps. -/
def At (platform : Platform) (op : Op) (begun : ℤ) (call : Call Word) : Prop :=
  match call.pc with
  | .once | .last => call.passed = true
  | .readSystem => platform ≠ .linux ∧ ∃ deadline, op = .untilSystem deadline ∧ call.limit = deadline
  | .readSteady =>
      (platform = .linux ∧ ∃ rel, op = .waitFor rel ∧ call.rel = rel) ∨
        (platform = .apple ∧ ∃ deadline, op = .untilSystem deadline ∧ deadline - call.rel ≤ call.system)
  | .probe .convert => platform = .apple ∧ ∃ deadline, op = .untilSystem deadline ∧ call.limit = deadline
  | .probe .remaining => platform = .apple ∧ looping platform op = true ∧ Due platform op begun call
  | .probe .wait => single platform op = true ∨ Due platform op begun call
  | .remaining =>
      looping platform op = true ∧ Due platform op begun call ∧ (platform = .apple → call.seen = some false)
  | .wait => (single platform op = true ∨ Due platform op begun call) ∧ call.seen = some false
  | .asleep time =>
      (single platform op = true ∨ Due platform op begun call) ∧ call.seen = some false ∧
        (platform = .linux → time = call.limit)
  | .check => if single platform op then call.passed = true else Due platform op begun call
  | .reload => looping platform op = true ∧ Due platform op begun call
  | .late => looping platform op = true ∧ Due platform op begun call ∧ call.seen = some false
  | .returned result => call.seen = some result ∧ (result = false → call.passed = true)

/-- **The deadline of a call is noted, and its limit is not earlier.** -/
structure Sound (platform : Platform) (op : Op) (begun : ℤ) (call : Call Word) : Prop where
  past : reached op begun call.steady call.system = true → call.passed = true
  since : begun ≤ call.steady
  place : At platform op begun call

/-- The system clock does not fall behind the steady clock, where one is converted to the other. -/
def Aligned (platform : Platform) (op : Op) (call : Call Word) : Action Word → Prop
  | .clocks steady system => converts platform op = true → steady - call.steady ≤ system - call.system
  | .store _ | .go | .wake | .interrupt | .expire | .fail => True

instance (platform : Platform) (op : Op) (call : Call Word) : DecidablePred (Aligned platform op call)
  | .clocks steady system =>
      inferInstanceAs (Decidable (converts platform op = true → steady - call.steady ≤ system - call.system))
  | .store _ | .go | .wake | .interrupt | .expire | .fail => inferInstanceAs (Decidable True)

/-- The step that leaves the wait of a call. -/
def leaves (old : Word) (call : Call Word) : Action Word → Bool
  | .go => decide (call.pc = .wait ∧ call.word ≠ old)
  | .fail => decide (call.pc = .wait)
  | .wake | .interrupt | .expire =>
      match call.pc with
      | .asleep _ => true
      | _ => false
  | .store _ | .clocks _ _ => false

/-- The futex call does not fail, and the only wait of a call is not left, before the deadline. -/
def Punctual (platform : Platform) (op : Op) (old : Word) (call : Call Word) (action : Action Word) : Prop :=
  (platform = .linux → action = .fail → call.passed = true) ∧
    (single platform op = true → leaves old call action = true → call.passed = true)

/-- **A call answers what its last load has found, and `false` only once its deadline has been reached.** -/
def Answers (call : Call Word) : Prop :=
  ∀ result, call.pc = .returned result → call.seen = some result ∧ (result = false → call.passed = true)

variable {platform : Platform} {op : Op} {begun : ℤ} {old : Word} {call after : Call Word}
  {action : Action Word}

/-- Where a timeout of the limit has come, the deadline has. -/
theorem reached_of_due (due : Due platform op begun call)
    (loops : platform ≠ .linux → looping platform op = true) (come : call.limit ≤ clock platform op call) :
    reached op begun call.steady call.system = true := by
  cases platform with
  | linux => cases op <;> exact decide_eq_true (Int.le_trans due come)
  | windows =>
    cases op with
    | untilSteady => exact decide_eq_true (Int.le_trans due come)
    | waitFor | untilSystem => cases loops Platform.noConfusion
  | apple =>
    cases op with
    | waitFor => cases loops Platform.noConfusion
    | untilSteady => exact decide_eq_true (Int.le_trans due come)
    | untilSystem deadline =>
      simp only [Due, clock] at due come
      simp only [reached, decide_eq_true_eq]
      omega

/-- A load: a call that has found the word changed returns `true`. -/
theorem Sound.load (sound : Sound platform op begun call) {pc : Pc}
    (unchanged : At platform op begun { call with pc := pc, seen := some false }) :
    Sound platform op begun (load old call pc) := by
  unfold AtomicWaitTimeouts.load
  split
  · exact ⟨sound.past, sound.since, rfl, Bool.noConfusion⟩
  · exact ⟨sound.past, sound.since, unchanged⟩

/-- A step that touches nothing but the call. -/
theorem Sound.moves (sound : Sound platform op begun call) {pc : Pc} {rel limit : ℤ}
    (place : At platform op begun { call with pc := pc, rel := rel, limit := limit }) :
    Sound platform op begun { call with pc := pc, rel := rel, limit := limit } :=
  ⟨sound.past, sound.since, place⟩

theorem clock_of_looping (loops : looping platform op = true) : clock platform op call = call.steady := by
  cases platform <;> cases op <;> first | rfl | cases loops

/-- **The code keeps what a call knows.** -/
theorem Sound.advance (sound : Sound platform op begun call)
    (punctual : single platform op = true → leaves old call .go = true → call.passed = true)
    (stepped : advance platform op old call = some after) : Sound platform op begun after := by
  have place := sound.place
  have past := sound.past
  unfold AtomicWaitTimeouts.advance at stepped
  unfold At at place
  cases here : call.pc with
  | asleep | returned =>
    rw [here] at stepped
    cases stepped
  | once | last =>
    rw [here] at stepped place
    cases stepped
    exact sound.load ⟨rfl, fun _ => place⟩
  | readSystem =>
    rw [here] at stepped place
    obtain ⟨other, deadline, rfl, limit⟩ := place
    cases stepped
    cases platform with
    | linux => exact absurd rfl other
    | windows =>
      refine sound.moves ?_
      simp only [if_true]
      split
      · rename_i late
        refine past (decide_eq_true ?_)
        omega
      · exact Or.inl rfl
    | apple =>
      refine sound.moves (Or.inr ⟨rfl, deadline, rfl, ?_⟩)
      simp only
      omega
  | readSteady =>
    rw [here] at stepped place
    have since := sound.since
    cases stepped
    rcases place with ⟨rfl, rel, rfl, same⟩ | ⟨rfl, deadline, rfl, aligned⟩
    · refine sound.moves (Or.inr ?_)
      simp only [Due]
      omega
    · refine sound.moves ⟨rfl, rfl, ?_⟩
      simp only [Due]
      omega
  | probe stage =>
    rw [here] at stepped place
    cases stepped
    refine sound.load ?_
    cases stage with
    | wait => exact ⟨place, rfl⟩
    | remaining => exact ⟨place.2.1, place.2.2, fun _ => rfl⟩
    | convert =>
      obtain ⟨rfl, deadline, rfl, limit⟩ := place
      exact ⟨Platform.noConfusion, deadline, rfl, limit⟩
  | remaining =>
    rw [here] at stepped place
    obtain ⟨loops, due, seen⟩ := place
    cases stepped
    refine sound.moves ?_
    split
    · rename_i late
      refine past (reached_of_due due (fun _ => loops) ?_)
      rw [clock_of_looping loops]
      omega
    · cases platform with
      | linux => cases loops
      | windows => exact Or.inr due
      | apple => exact ⟨Or.inr due, seen rfl⟩
  | wait =>
    rw [here] at stepped place
    obtain ⟨waits, seen⟩ := place
    cases stepped
    refine sound.moves ?_
    split
    · rename_i changed
      show if _ then _ else _
      split
      · rename_i once
        exact punctual once (decide_eq_true ⟨here, changed⟩)
      · rename_i loops
        exact waits.resolve_left loops
    · refine ⟨waits, seen, ?_⟩
      rintro rfl
      rfl
  | check =>
    rw [here] at stepped place
    cases stepped
    refine sound.load ?_
    cases once : single platform op with
    | true =>
      rw [if_pos once] at place
      have gives : unchanged platform op = .returned false := by
        cases platform <;> cases op <;> first | rfl | cases once
      rw [gives]
      exact ⟨rfl, fun _ => place⟩
    | false =>
      rw [if_neg (Bool.eq_false_iff.mp once)] at place
      cases platform with
      | linux => exact ⟨Or.inr place, rfl⟩
      | windows =>
        cases op with
        | untilSteady => exact ⟨rfl, place⟩
        | waitFor | untilSystem => cases once
      | apple =>
        cases op with
        | untilSteady | untilSystem => exact ⟨rfl, place, rfl⟩
        | waitFor => cases once
  | reload =>
    rw [here] at stepped place
    cases stepped
    exact sound.load ⟨place.1, place.2, rfl⟩
  | late =>
    rw [here] at stepped place
    obtain ⟨loops, due, seen⟩ := place
    cases stepped
    refine sound.moves ?_
    split
    · rename_i come
      refine ⟨seen, fun _ => past (reached_of_due due (fun _ => loops) ?_)⟩
      rw [clock_of_looping loops]
      exact come
    · exact ⟨loops, due, fun _ => seen⟩

theorem sound_start (word : Word) (steady systemNow : ℤ) :
    Sound platform op steady (system platform op old word steady systemNow).start where
  past := id
  since := Int.le_refl steady
  place := by
    have once : ∀ rel : ℤ, rel ≤ 0 → reached (.waitFor rel) steady steady systemNow = true :=
      fun rel none => decide_eq_true (by omega)
    cases op with
    | waitFor rel =>
      cases platform with
      | linux =>
        by_cases none : rel ≤ 0
        · simp only [At, system, begin, if_pos none]
          exact once rel none
        · simp only [At, system, begin, if_neg none]
          exact Or.inl ⟨trivial, rel, rfl, rfl⟩
      | windows | apple =>
        by_cases none : rel ≤ 0
        · simp only [At, system, begin, if_pos none]
          exact once rel none
        · simp only [At, system, begin, if_neg none]
          exact Or.inl rfl
    | untilSteady deadline =>
      cases platform with
      | linux => exact Or.inr (Int.le_refl deadline)
      | windows => exact ⟨rfl, Int.le_refl deadline, Platform.noConfusion⟩
      | apple => exact ⟨rfl, rfl, Int.le_refl deadline⟩
    | untilSystem deadline =>
      cases platform with
      | linux => exact Or.inr (Int.le_refl deadline)
      | windows => exact ⟨Platform.noConfusion, deadline, rfl, rfl⟩
      | apple => exact ⟨rfl, deadline, rfl, rfl⟩

/-- What a call knows stays true while the clocks move. -/
theorem At.clocks (place : At platform op begun call) {steady systemNow : ℤ} (moves : call.steady ≤ steady)
    (aligned : converts platform op = true → steady - call.steady ≤ systemNow - call.system) (passed : Bool) :
    At platform op begun
      { call with steady := steady, system := systemNow, passed := call.passed || passed } := by
  have due : Due platform op begun call → Due platform op begun
      { call with steady := steady, system := systemNow, passed := call.passed || passed } := by
    intro due
    cases platform with
    | linux | windows => cases op <;> exact due
    | apple =>
      cases op with
      | waitFor | untilSteady => exact due
      | untilSystem deadline =>
        have kept := aligned rfl
        simp only [Due] at due ⊢
        omega
  have kept : call.passed = true → (call.passed || passed) = true := fun held => by rw [held, Bool.true_or]
  unfold At at place ⊢
  cases here : call.pc with
  | once | last =>
    rw [here] at place
    exact kept place
  | readSystem =>
    rw [here] at place
    exact place
  | readSteady =>
    rw [here] at place
    rcases place with first | ⟨rfl, deadline, rfl, left⟩
    · exact Or.inl first
    · have ahead := aligned rfl
      refine Or.inr ⟨rfl, deadline, rfl, ?_⟩
      simp only
      omega
  | probe stage =>
    rw [here] at place
    cases stage with
    | wait => exact place.imp_right due
    | remaining => exact ⟨place.1, place.2.1, due place.2.2⟩
    | convert => exact place
  | remaining =>
    rw [here] at place
    exact ⟨place.1, due place.2.1, place.2.2⟩
  | wait =>
    rw [here] at place
    exact ⟨place.1.imp_right due, place.2⟩
  | asleep =>
    rw [here] at place
    exact ⟨place.1.imp_right due, place.2⟩
  | check =>
    rw [here] at place
    show if _ then _ else _
    cases once : single platform op with
    | true =>
      rw [if_pos once] at place
      exact kept place
    | false =>
      rw [if_neg (Bool.eq_false_iff.mp once)] at place
      exact due place
  | reload =>
    rw [here] at place
    exact ⟨place.1, due place.2⟩
  | late =>
    rw [here] at place
    exact ⟨place.1, due place.2.1, place.2.2⟩
  | returned =>
    rw [here] at place
    exact ⟨place.1, fun timedOut => kept (place.2 timedOut)⟩

/-- The end of a sleep, before or at its time. -/
theorem Sound.leave (sound : Sound platform op begun call) {time : ℤ} (here : call.pc = .asleep time)
    {action : Action Word}
    (punctual : single platform op = true → leaves old call action = true → call.passed = true)
    (left : leave platform op call time action = some after) : Sound platform op begun after := by
  have place := sound.place
  unfold At at place
  rw [here] at place
  obtain ⟨waits, seen, limit⟩ := place
  have checks : leaves old call action = true → At platform op begun { call with pc := .check } := by
    intro leaving
    show if _ then _ else _
    cases once : single platform op with
    | true =>
      rw [if_pos rfl]
      exact punctual once leaving
    | false =>
      rw [if_neg Bool.false_ne_true]
      exact waits.resolve_left (Bool.eq_false_iff.mp once)
  have leaving : ∀ action : Action Word, action = .wake ∨ action = .interrupt ∨ action = .expire →
      leaves old call action = true := by
    rintro action (rfl | rfl | rfl) <;> simp only [leaves, here]
  cases action with
  | store | clocks | go | fail => cases left
  | wake =>
    cases left
    exact sound.moves (checks (leaving _ (Or.inl rfl)))
  | interrupt =>
    cases left
    refine sound.moves ?_
    split
    · exact ⟨waits, seen⟩
    · exact checks (leaving _ (Or.inr (Or.inl rfl)))
  | expire =>
    simp only [AtomicWaitTimeouts.leave, Option.ite_none_right_eq_some, Option.some.injEq] at left
    obtain ⟨come, rfl⟩ := left
    refine sound.moves ?_
    split
    · rename_i linux
      have due : Due platform op begun call := waits.resolve_left fun once => by
        rw [linux] at once
        cases op <;> cases once
      refine sound.past (reached_of_due due (fun other => absurd linux other) ?_)
      rw [← limit linux]
      exact come
    · exact checks (leaving _ (Or.inr (Or.inr rfl)))

/-- **Every punctual action keeps what a call knows.** -/
theorem Sound.next (sound : Sound platform op begun call) {action : Action Word}
    (punctual : Punctual platform op old call action) (aligned : Aligned platform op call action)
    (taken : next platform op begun old call action = some after) : Sound platform op begun after := by
  cases action with
  | store word =>
    cases taken
    exact ⟨sound.past, sound.since, sound.place⟩
  | clocks steady systemNow =>
    simp only [AtomicWaitTimeouts.next, Option.ite_none_right_eq_some, Option.some.injEq] at taken
    obtain ⟨moves, rfl⟩ := taken
    refine ⟨fun come => ?_, Int.le_trans sound.since moves, sound.place.clocks moves aligned _⟩
    simp only [Bool.or_eq_true]
    exact Or.inr come
  | go => exact sound.advance punctual.2 taken
  | fail =>
    simp only [AtomicWaitTimeouts.next, Option.ite_none_right_eq_some, Option.some.injEq] at taken
    obtain ⟨here, rfl⟩ := taken
    have place := sound.place
    unfold At at place
    rw [here] at place
    refine sound.moves ?_
    split
    · rename_i linux
      exact ⟨place.2, fun _ => punctual.1 linux rfl⟩
    · show if _ then _ else _
      split
      · rename_i once
        exact punctual.2 once (decide_eq_true here)
      · rename_i loops
        exact place.1.resolve_left loops
  | wake | interrupt | expire =>
    simp only [AtomicWaitTimeouts.next] at taken
    split at taken
    · rename_i here
      exact sound.leave here punctual.2 taken
    · cases taken

theorem answers_of_sound (sound : Sound platform op begun call) : Answers call := by
  intro result returned
  have place := sound.place
  unfold At at place
  rw [returned] at place
  exact place

/-! ### When a call gives up -/

/-- The deadline of the call has not been reached, and it has given up or is going to. -/
def Lost (platform : Platform) (op : Op) (call : Call Word) : Prop :=
  call.passed = false ∧ (call.pc = .returned false ∨ single platform op = true ∧ call.pc = .check)

/-- **The system clock on Apple.** As long as the system clock does not fall behind the steady one, a call of
`atomic_wait_until` for a system deadline answers what its last load has found, and `false` only once the deadline
has been reached. -/
theorem atomicWait_system_apple {word : Word} {deadline steady systemNow : ℤ}
    (reached : (system .apple (.untilSystem deadline) old word steady systemNow).Reach
      (Aligned .apple (.untilSystem deadline)) call) : Answers call :=
  answers_of_sound <| reached.invariant (sound_start word steady systemNow)
    fun _ _ _ _ sound aligned taken => sound.next ⟨Platform.noConfusion, Bool.noConfusion⟩ aligned taken

/-- The clocks run on between the two readings, and a sleep ends for no reason. -/
theorem atomicWait_system_apple_lagging :
    ∃ call, (system .apple (.untilSystem 5) (0 : ℤ) 0 100 0).Reach (Aligned .apple (.untilSystem 5)) call ∧
      call.pc = .returned false ∧ call.limit = 106 ∧ call.passed = true ∧ Answers call := by
  obtain ⟨call, reached, computed⟩ := System.exists_reach_of_run
    (system .apple (.untilSystem 5) (0 : ℤ) 0 100 0) (Aligned .apple (.untilSystem 5))
    [.go, .go, .clocks 101 1, .go, .go, .go, .go, .wake, .go, .go, .clocks 106 6, .go, .go]
    (fun call => decide (call.pc = .returned false ∧ call.limit = 106 ∧ call.passed = true))
    (by decide +kernel)
  obtain ⟨timedOut, limit, passed⟩ := of_decide_eq_true computed
  exact ⟨call, reached, timedOut, limit, passed, atomicWait_system_apple reached⟩

/-! ### How early `WaitOnAddress` is -/

/-- A wait of `WaitOnAddress` is shorter than its duration by less than a millisecond. -/
theorem lt_timeoutMs {rel : ℤ} (positive : 0 < rel) (fits : rel < 0xFFFFFFFF * 1000000) :
    rel < timeoutMs rel + 1000000 := by
  unfold timeoutMs
  simp only
  split <;> omega

/-- What is known of a call of `atomic_wait_for` on Windows whose wait is left by its timeout only. -/
def Rounded (rel begun : ℤ) (call : Call Word) : Prop :=
  match call.pc with
  | .probe .wait | .wait => call.rel = rel ∧ 0 < rel
  | .asleep time => begun + rel < time + 1000000
  | .once | .check | .returned false => begun + rel < call.steady + 1000000
  | .returned true => True
  | .probe _ | .readSystem | .readSteady | .remaining | .reload | .late | .last => False

theorem Rounded.load {rel : ℤ} {pc : Pc}
    (gives : pc = .returned true ∨ Rounded rel begun { call with pc := pc }) :
    Rounded rel begun (load old call pc) := by
  unfold AtomicWaitTimeouts.load
  split
  · trivial
  · rcases gives with rfl | rounded
    · trivial
    · exact rounded

theorem load_steady (call : Call Word) (pc : Pc) : (load old call pc).steady = call.steady := by
  unfold load
  split <;> rfl

/-- A step of a call whose wait is left by its timeout only. -/
theorem Rounded.next {rel : ℤ} (rounded : Rounded rel begun call) (since : begun ≤ call.steady)
    (fits : rel < 0xFFFFFFFF * 1000000) (timed : leaves old call action = true → action = .expire)
    (taken : next .windows (.waitFor rel) begun old call action = some after) :
    begun ≤ after.steady ∧ Rounded rel begun after := by
  unfold Rounded at rounded
  cases action with
  | store word =>
    cases taken
    exact ⟨since, rounded⟩
  | clocks steady systemNow =>
    simp only [AtomicWaitTimeouts.next, Option.ite_none_right_eq_some, Option.some.injEq] at taken
    obtain ⟨moves, rfl⟩ := taken
    refine ⟨Int.le_trans since moves, ?_⟩
    unfold Rounded
    split at rounded <;> rename_i here <;> simp only [here] <;> omega
  | go =>
    simp only [AtomicWaitTimeouts.next, AtomicWaitTimeouts.advance] at taken
    cases here : call.pc with
    | asleep | returned =>
      rw [here] at taken
      cases taken
    | readSystem | readSteady | remaining | reload | late | last =>
      rw [here] at rounded
      exact rounded.elim
    | once | check =>
      rw [here] at taken rounded
      cases taken
      exact ⟨(load_steady call _).symm ▸ since, .load (Or.inr rounded)⟩
    | probe stage =>
      rw [here] at taken rounded
      cases taken
      cases stage with
      | wait => exact ⟨(load_steady call _).symm ▸ since, .load (Or.inr rounded)⟩
      | remaining | convert => exact rounded.elim
    | wait =>
      rw [here] at taken rounded
      cases taken
      refine ⟨since, ?_⟩
      split
      · rename_i changed
        cases timed (decide_eq_true ⟨here, changed⟩)
      · have short := lt_timeoutMs rounded.2 fits
        simp only [Rounded, timeout, rounded.1]
        omega
  | fail =>
    simp only [AtomicWaitTimeouts.next, Option.ite_none_right_eq_some] at taken
    have left : leaves old call .fail = true := decide_eq_true taken.1
    cases timed left
  | wake | interrupt =>
    simp only [AtomicWaitTimeouts.next] at taken
    split at taken
    · rename_i here
      have left := timed (by simp only [leaves, here])
      cases left
    · cases taken
  | expire =>
    simp only [AtomicWaitTimeouts.next] at taken
    split at taken
    · rename_i time here
      simp only [leave, Option.ite_none_right_eq_some, Option.some.injEq] at taken
      obtain ⟨come, rfl⟩ := taken
      rw [here] at rounded
      refine ⟨since, ?_⟩
      simp only [Rounded, clock, reduceCtorEq, if_false] at rounded come ⊢
      omega
    · cases taken

/-- **How early Windows is.** As long as the wait of `atomic_wait_for` is left by its timeout only, a call for
less than 2 ^ 32 - 1 milliseconds gives up less than one millisecond early. -/
theorem atomicWait_windows_early {word : Word} {rel steady systemNow : ℤ} (fits : rel < 0xFFFFFFFF * 1000000)
    (reached : (system .windows (.waitFor rel) old word steady systemNow).Reach
      (fun call action => leaves old call action = true → action = .expire) call)
    (timedOut : call.pc = .returned false) : steady + rel < call.steady + 1000000 := by
  have rounded : steady ≤ call.steady ∧ Rounded rel steady call := by
    refine reached.invariant (P := fun call => steady ≤ call.steady ∧ Rounded rel steady call)
      ⟨Int.le_refl steady, ?_⟩ fun _ _ _ _ held timed taken => held.2.next held.1 fits timed taken
    by_cases none : rel ≤ 0
    · simp only [Rounded, system, begin, if_pos none]
      omega
    · simp only [Rounded, system, begin, if_neg none]
      exact ⟨rfl, Int.not_le.mp none⟩
  have early := rounded.2
  unfold Rounded at early
  rw [timedOut] at early
  exact early

/-- 1.5 milliseconds are over after one, half a millisecond early. -/
theorem atomicWait_windows_early_half :
    ∃ call, (system .windows (.waitFor 1500000) (0 : ℤ) 0 0 0).Reach
        (fun call action => leaves 0 call action = true → action = .expire) call ∧
      call.pc = .returned false ∧ call.steady = 1000000 ∧ 0 + 1500000 < call.steady + 1000000 := by
  obtain ⟨call, reached, computed⟩ := System.exists_reach_of_run
    (system .windows (.waitFor 1500000) (0 : ℤ) 0 0 0)
    (fun call action => leaves 0 call action = true → action = .expire)
    [.go, .go, .clocks 1000000 0, .expire, .go]
    (fun call => decide (call.pc = .returned false ∧ call.steady = 1000000)) (by decide +kernel)
  obtain ⟨timedOut, steady⟩ := of_decide_eq_true computed
  exact ⟨call, reached, timedOut, steady, atomicWait_windows_early (by decide) reached timedOut⟩

end Step

end NovaSync.AtomicWaitTimeouts
