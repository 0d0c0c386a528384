/-
**The end of the spin phases: `run_with_exponential_backoff_until` on a word that stays unavailable.**

A spin phase ends when its backoff has grown to `spin_limit`, and only `backoff_result::retry` lets it grow.
A functor that takes a new snapshot may return `retry_without_backoff` once, because the word is the snapshot
from then on; the functor of `parking_manual_reset_event` returns it at every call.

* `comes_of_retries` — calls that return `retry` come to the end of the phase; the measure is what the backoff
  has left to grow.
* `SpinEntry` — the start of a spin phase: its caller, the snapshot and the memory.
* `spinPhase_parks_iff` — which of them come to their parking wait; `manualResetEvent_spins_forever` is one
  that does not.
-/

import NovaSync.Event.ParkingAutoResetEvent
import NovaSync.Event.ParkingManualResetEvent
import NovaSync.Mutex.FastAsyncMutex
import NovaSync.Semaphore.ParkingSemaphore

set_option linter.unusedSectionVars false

namespace NovaSync.Backoff

open Concurrency Detail

/-! ### The loop -/

section Retries

variable {Memory Local Op Resolve View : Type*} {program : Program Memory Local Op Resolve}
  {resolve : Resolve} {view : Memory → View} {goal : Local → Prop}

/-- A pause makes the backoff grow, until the limit is reached. -/
theorem lt_run {state : ExponentialBackoff} (positive : 0 < state.backoff)
    (below : state.backoff < spinLimit) : state.backoff < state.run.backoff := by
  rw [ExponentialBackoff.run, if_pos below]
  show state.backoff < state.backoff * 2
  omega

/-- **Calls that return `retry` end the spin phase**: whatever the others do that keeps the view, the thread
comes to where it comes to after the helper has returned `false`. -/
theorem comes_of_retries (next : SpinLoop → Local) {seen : View}
    (retries : ∀ memory state, view memory = seen →
      program.step resolve memory (next (.again state)) = some (memory, next (afterCall state .retry)))
    (leaves : ∀ memory, view memory = seen →
      program.Comes resolve view goal memory (next (.returned false)))
    (state : ExponentialBackoff) (positive : 0 < state.backoff) {memory : Memory}
    (same : view memory = seen) : program.Comes resolve view goal memory (next (.again state)) := by
  induction left : spinLimit - state.backoff using Nat.strong_induction_on generalizing state memory with
  | _ left ih =>
    refine .after (retries memory state same) fun later kept => ?_
    show program.Comes resolve view goal later (next (spinTest state.run))
    unfold spinTest
    by_cases below : state.run.backoff < spinLimit
    · have grows : state.backoff < spinLimit := by
        by_contra limit
        rw [ExponentialBackoff.run, if_neg limit] at below
        exact limit below
      have larger := lt_run positive grows
      rw [if_pos below]
      exact ih _ (by omega) state.run (by omega) (kept.trans same) rfl
    · rw [if_neg below]
      exact leaves later (kept.trans same)

/-- **A functor that tries to exchange its snapshot while that is free.** On a word that is not, the first
call may take the word as its snapshot; all other calls return `retry`. -/
theorem comes_of_functor {Word : Type*} [DecidableEq Word] {word : Memory → Word} (test : Word → Prop)
    [DecidablePred test] (next : Word → SpinLoop → Local) {seen : Word}
    (functor : ∀ memory snapshot state, ∃ taken,
      program.step resolve memory (next snapshot (.again state)) =
        if test snapshot then
          (compareExchangeWeak .go (word memory) snapshot).map fun exchanged =>
            if exchanged then (taken, next snapshot (afterCall state .success))
            else (memory, next (word memory) (afterCall state .retryWithoutBackoff))
        else ordinary .go (memory, next snapshot (afterCall state .retry)))
    (unavailable : ¬ test seen)
    (leaves : ∀ snapshot memory, word memory = seen →
      program.Comes resolve word goal memory (next snapshot (.returned false)))
    (snapshot : Word) {memory : Memory} (same : word memory = seen) :
    program.Comes resolve word goal memory (next snapshot (.again {})) := by
  -- from a snapshot that is not free
  have retries : ∀ snapshot memory, ¬ test snapshot → word memory = seen →
      program.Comes resolve word goal memory (next snapshot (.again {})) := by
    intro snapshot memory held same
    refine comes_of_retries (next snapshot) (fun memory state _ => ?_)
      (fun memory => leaves snapshot memory) {} (by decide) same
    obtain ⟨taken, called⟩ := functor memory snapshot state
    rw [called, if_neg held]
    rfl
  by_cases free : test snapshot
  · have differs : seen ≠ snapshot := by
      rintro rfl
      exact unavailable free
    obtain ⟨taken, called⟩ := functor memory snapshot {}
    have fails : program.step resolve memory (next snapshot (.again {})) =
        some (memory, next seen (.again {})) := by
      rw [called, if_pos free, same]
      have exchanged : compareExchangeWeak .go seen snapshot = some false := by
        simp [compareExchangeWeak, ordinary, differs]
      rw [exchanged]
      rfl
    exact .after fails fun later kept => retries seen later unavailable (kept.trans same)
  · exact retries snapshot memory free same

end Retries

/-! ### The callers -/

/-- The start of a spin phase: the memory, and the snapshot where the caller has taken one. -/
inductive SpinEntry
  | parkingMutex (variant : ParkingMutex.Variant) (expected word : ParkingMutex.Word)
  | fastEventfdMutex (waiting : FastAsyncMutex.Waiting) (s : ParkingMutex.Word)
      (memory : FastAsyncMutex.Memory Eventfd)
  | fastKqueueMutex (waiting : FastAsyncMutex.Waiting) (s : ParkingMutex.Word)
      (memory : FastAsyncMutex.Memory Kqueue)
  | parkingSemaphore (config : ParkingSemaphore.Config) (c : ℤ) (memory : ParkingSemaphore.Memory)
  | parkingAutoResetEvent (config : ParkingAutoResetEvent.Config) (memory : ParkingAutoResetEvent.Memory)
  | parkingManualResetEvent (config : ParkingManualResetEvent.Config) (word : ParkingManualResetEvent.Word)

namespace SpinEntry

/-- The lock is held, no token is there, or the event is not set. -/
def Unavailable : SpinEntry → Prop
  | .parkingMutex _ _ word => word &&& 1 ≠ 0
  | .fastEventfdMutex _ _ memory => memory.word &&& 1 ≠ 0
  | .fastKqueueMutex _ _ memory => memory.word &&& 1 ≠ 0
  | .parkingSemaphore _ _ memory => InInt32 memory.count ∧ memory.count ≤ 0
  | .parkingAutoResetEvent _ memory => InInt32 memory.state ∧ memory.state ≤ 0
  | .parkingManualResetEvent _ word => word = 0

/-- **The spin phase ends and the caller parks**: by its own steps it comes to its parking wait, whatever the
others do that does not change the shared word, and with no exchange failing spuriously. -/
def Parks : SpinEntry → Prop
  | .parkingMutex variant expected word =>
      (ParkingMutex.program variant).Comes .go id
        (fun pc => ∃ old point, pc = .wait false old point) word (.spin expected {})
  | .fastEventfdMutex waiting s memory =>
      (FastAsyncMutex.program FastAsyncMutex.eventfd).Comes .go FastAsyncMutex.Memory.word
        (fun pc => ∃ point, pc = .wait waiting point) memory (.spin waiting s {})
  | .fastKqueueMutex waiting s memory =>
      (FastAsyncMutex.program FastAsyncMutex.kqueue).Comes (.inl .go) FastAsyncMutex.Memory.word
        (fun pc => ∃ point, pc = .wait waiting point) memory (.spin waiting s {})
  | .parkingSemaphore config c memory =>
      (ParkingSemaphore.program config).Comes .go ParkingSemaphore.Memory.count
        (fun pc => ∃ owed point, pc = .wait false owed point) memory (.spin c {})
  | .parkingAutoResetEvent config memory =>
      (ParkingAutoResetEvent.program config).Comes .go ParkingAutoResetEvent.Memory.state
        (fun pc => ∃ slot cur point, pc = .wait false slot cur point) memory (.tryLoad (.spin {}))
  | .parkingManualResetEvent config word =>
      (ParkingManualResetEvent.program config).Comes .go id
        (fun pc => ∃ point, pc = .wait false point) word (.spin {})

/-- The caller is not `parking_manual_reset_event`, and the registering `fetch_sub(1)` of
`parking_semaphore` does not overflow. -/
def Grows : SpinEntry → Prop
  | .parkingManualResetEvent _ _ => False
  | .parkingSemaphore _ _ memory => InInt32 (memory.count - 1)
  | .parkingMutex _ _ _ | .fastEventfdMutex _ _ _ | .fastKqueueMutex _ _ _ => True
  | .parkingAutoResetEvent _ _ => True

end SpinEntry

/-! ### The mutexes -/

theorem held_add_two {word : ParkingMutex.Word} (held : word &&& 1 ≠ 0) : (word + 2) &&& 1 ≠ 0 := by
  rw [Ne, ParkingMutex.free_iff] at held ⊢
  bv_omega

theorem parkingMutex_parks (variant : ParkingMutex.Variant) (expected : ParkingMutex.Word)
    {word : ParkingMutex.Word} (held : word &&& 1 ≠ 0) :
    (SpinEntry.parkingMutex variant expected word).Parks := by
  unfold SpinEntry.Parks
  show (ParkingMutex.program variant).Comes .go id _ word (ParkingMutex.spinNext expected (.again {}))
  refine comes_of_functor (fun word => word &&& 1 = 0) ParkingMutex.spinNext
    (fun memory snapshot state => ⟨snapshot ||| 1, rfl⟩) held (fun _ memory same => ?_) expected rfl
  obtain rfl : memory = word := same
  have registers : (ParkingMutex.program variant).step .go memory (.register false) =
      some (memory + 2, .reload false) := rfl
  refine .after registers fun later same => ?_
  obtain rfl : later = memory + 2 := same
  have reloads : (ParkingMutex.program variant).step .go (memory + 2) (.reload false) =
      some (memory + 2, ParkingMutex.park false (memory + 2)) := rfl
  refine .after reloads fun _ _ => .arrived ?_
  rw [ParkingMutex.park, dif_neg (held_add_two held)]
  exact ⟨_, _, rfl⟩

section FastMutex

variable {Kernel Point Resolve : Type*} {backend : FastAsyncMutex.Backend Kernel Point Resolve}

/-- The places of the spin phase take their steps from `atomicStep`. -/
theorem fastMutex_step {resolve : Resolve} (atomic : backend.atomic resolve = some .go)
    (memory : FastAsyncMutex.Memory Kernel) {pc : FastAsyncMutex.Pc Point}
    (quiet : FastAsyncMutex.kernelStep backend resolve memory pc = none) :
    (FastAsyncMutex.program backend).step resolve memory pc =
      FastAsyncMutex.atomicStep backend .go memory pc := by
  show FastAsyncMutex.step backend resolve memory pc = _
  rw [FastAsyncMutex.step, atomic, quiet]
  exact Option.or_none

theorem fastMutex_parks {resolve : Resolve} (atomic : backend.atomic resolve = some .go)
    (waiting : FastAsyncMutex.Waiting) (s : ParkingMutex.Word) {memory : FastAsyncMutex.Memory Kernel}
    (held : memory.word &&& 1 ≠ 0) :
    (FastAsyncMutex.program backend).Comes resolve FastAsyncMutex.Memory.word
      (fun pc => ∃ point, pc = .wait waiting point) memory (.spin waiting s {}) := by
  refine comes_of_functor (fun word => word &&& 1 = 0) (FastAsyncMutex.spinNext waiting)
    (fun memory snapshot state => ⟨{ memory with word := snapshot ||| 1 }, ?_⟩) held
    (fun _ later same => ?_) s rfl
  · show (FastAsyncMutex.program backend).step resolve memory (.spin waiting snapshot state) = _
    rw [fastMutex_step atomic memory rfl]
    rfl
  · have registers : (FastAsyncMutex.program backend).step resolve later (.register waiting) =
        some (later.add, FastAsyncMutex.park backend waiting false (later.word + 2)) := by
      rw [fastMutex_step atomic later rfl]
      rfl
    refine .after registers fun _ _ => .arrived ?_
    rw [FastAsyncMutex.park, dif_neg (held_add_two (by rw [same]; exact held))]
    exact ⟨_, rfl⟩

end FastMutex

/-! ### The semaphore -/

theorem parkingSemaphore_parks (config : ParkingSemaphore.Config) (c : ℤ)
    {memory : ParkingSemaphore.Memory} (none : memory.count ≤ 0) (within : InInt32 (memory.count - 1)) :
    (SpinEntry.parkingSemaphore config c memory).Parks := by
  unfold SpinEntry.Parks
  show (ParkingSemaphore.program config).Comes .go ParkingSemaphore.Memory.count _ memory
    (ParkingSemaphore.spinNext c (.again {}))
  refine comes_of_functor (fun c : ℤ => 0 < c) ParkingSemaphore.spinNext
    (fun memory snapshot state => ⟨memory.exchange, rfl⟩) (by omega) (fun _ later same => ?_) c rfl
  have subtracts : (ParkingSemaphore.program config).step .go later (.fetchSub false) =
      some (later.fetchSub, .waitLoad false) := by
    show ParkingSemaphore.step .go later (.fetchSub false) = _
    rw [ParkingSemaphore.step, if_neg (by omega)]
    rfl
  refine .after subtracts fun registered kept => ?_
  have owed : registered.count < 0 := by
    rw [kept]
    show int32 (later.count - 1) < 0
    rw [same, int32_eq_self within]
    omega
  have waits : (ParkingSemaphore.program config).step .go registered (.waitLoad false) =
      some (registered, .wait false ⟨registered.count, owed⟩ (Futex.WaitPoint.start false)) := by
    show ParkingSemaphore.step .go registered (.waitLoad false) = _
    rw [ParkingSemaphore.step, dif_pos owed]
    rfl
  exact .after waits fun _ _ => .arrived ⟨_, _, rfl⟩

/-! ### The events -/

/-- Where `wait` goes after a call of its spin functor that has found no token. -/
def autoResetEventNext : SpinLoop → ParkingAutoResetEvent.Pc
  | .again state => .tryLoad (.spin state)
  | .returned _ => .fetchSub false

theorem parkingAutoResetEvent_parks (config : ParkingAutoResetEvent.Config)
    {memory : ParkingAutoResetEvent.Memory} (unset : memory.state ≤ 0) :
    (SpinEntry.parkingAutoResetEvent config memory).Parks := by
  unfold SpinEntry.Parks
  show (ParkingAutoResetEvent.program config).Comes .go ParkingAutoResetEvent.Memory.state _ memory
    (autoResetEventNext (.again {}))
  refine comes_of_retries autoResetEventNext (fun later state same => ?_) (fun later same => ?_) {}
    (by decide) rfl
  · show ParkingAutoResetEvent.step .go later (.tryLoad (.spin state)) = _
    rw [ParkingAutoResetEvent.step, ParkingAutoResetEvent.tryLoop, dif_neg (by omega)]
    rfl
  · have subtracts : (ParkingAutoResetEvent.program config).step .go later (.fetchSub false) =
        some (later.fetchSub, .reload false (int32 (later.state - 1))) := by
      show ParkingAutoResetEvent.step .go later (.fetchSub false) = _
      rw [ParkingAutoResetEvent.step, if_neg (by omega)]
      rfl
    refine .after subtracts fun registered kept => ?_
    have blocked : registered.state ≤ int32 (later.state - 1) := kept.le
    have waits : (ParkingAutoResetEvent.program config).step .go registered
        (.reload false (int32 (later.state - 1))) =
        some (registered, .wait false _ ⟨registered.state, blocked⟩ (Futex.WaitPoint.start false)) := by
      show ParkingAutoResetEvent.step .go registered (.reload false _) = _
      rw [ParkingAutoResetEvent.step, dif_pos blocked]
      rfl
    exact .after waits fun _ _ => .arrived ⟨_, _, _, rfl⟩

/-- The functor of `parking_manual_reset_event` leaves the backoff as it is. -/
theorem parkingManualResetEvent_spins (config : ParkingManualResetEvent.Config) :
    ¬ (SpinEntry.parkingManualResetEvent config 0).Parks := by
  unfold SpinEntry.Parks
  refine Program.not_comes_of_trap (fun word pc => word = 0 ∧ pc = .spin {}) ⟨rfl, rfl⟩ ?_ ?_
  · rintro _ _ between place ⟨rfl, rfl⟩ stepped
    change ParkingManualResetEvent.step .go 0 (.spin {}) = some (between, place) at stepped
    obtain ⟨-, result⟩ := ordinary_eq_some stepped
    cases result
    exact ⟨rfl, by decide⟩
  · rintro _ _ ⟨rfl, rfl⟩ ⟨point, parked⟩
    cases parked

/-- Where a semaphore at the least count leads: over the registration and out. -/
def Overflows (memory : ParkingSemaphore.Memory) : ParkingSemaphore.Pc → Prop
  | .spin _ _ | .fetchSub false => memory.count = -2 ^ 31
  | .waitLoad false => 0 ≤ memory.count
  | .idle => True
  | _ => False

theorem overflows_spinNext {memory : ParkingSemaphore.Memory} (least : memory.count = -2 ^ 31) (c : ℤ)
    {loop : SpinLoop} : Overflows memory (ParkingSemaphore.spinNext c loop) := by
  cases loop with
  | again state => exact least
  | returned success =>
    cases success with
    | true => trivial
    | false => exact least

/-- The `fetch_sub(1)` of the least count wraps, and the caller finds a token. -/
theorem parkingSemaphore_overflows (config : ParkingSemaphore.Config) (c : ℤ)
    {memory : ParkingSemaphore.Memory} (least : memory.count = -2 ^ 31) :
    ¬ (SpinEntry.parkingSemaphore config c memory).Parks := by
  unfold SpinEntry.Parks
  refine Program.not_comes_of_trap Overflows least (fun memory pc between place inside stepped => ?_) ?_
  · change ParkingSemaphore.step .go memory pc = some (between, place) at stepped
    cases pc with
    | spin snapshot state =>
      change memory.count = -2 ^ 31 at inside
      simp only [ParkingSemaphore.step] at stepped
      split at stepped
      · rcases compareExchangeWeak_cases stepped with ⟨-, same, -⟩ | ⟨-, result⟩
        · omega
        · cases result
          exact overflows_spinNext inside _
      · cases (ordinary_eq_some stepped).2
        exact overflows_spinNext inside _
    | fetchSub timed =>
      cases timed with
      | true => exact absurd inside id
      | false =>
        change memory.count = -2 ^ 31 at inside
        obtain ⟨-, result⟩ := ordinary_eq_some stepped
        rw [if_neg (by omega)] at result
        cases result
        show 0 ≤ int32 (memory.count - 1)
        rw [inside]
        decide
    | waitLoad timed =>
      cases timed with
      | true => exact absurd inside id
      | false =>
        change 0 ≤ memory.count at inside
        obtain ⟨-, result⟩ := ordinary_eq_some stepped
        rw [dif_neg (by omega)] at result
        cases result
        trivial
    | idle | notify => cases stepped
    | release | spinLoad | wait | tryLoad | tryCas | restore | retake => exact absurd inside id
  · rintro memory _ inside ⟨owed, point, rfl⟩
    exact inside

/-! ### Who parks -/

/-- **Which spin phases end.** On a shared word that is unavailable and that nobody else changes, the caller
comes to its parking wait, unless it is `parking_manual_reset_event`, or a `parking_semaphore` whose count is
the least `int32_t`. -/
theorem spinPhase_parks_iff (entry : SpinEntry) (unavailable : entry.Unavailable) :
    entry.Parks ↔ entry.Grows := by
  cases entry with
  | parkingMutex variant expected word =>
    exact iff_of_true (parkingMutex_parks variant expected unavailable) trivial
  | fastEventfdMutex waiting s memory =>
    exact iff_of_true (fastMutex_parks rfl waiting s unavailable) trivial
  | fastKqueueMutex waiting s memory =>
    exact iff_of_true (fastMutex_parks rfl waiting s unavailable) trivial
  | parkingSemaphore config c memory =>
    obtain ⟨within, none⟩ := unavailable
    by_cases fits : InInt32 (memory.count - 1)
    · exact iff_of_true (parkingSemaphore_parks config c none fits) fits
    · refine iff_of_false (parkingSemaphore_overflows config c ?_) fits
      unfold InInt32 at within fits
      omega
  | parkingAutoResetEvent config memory =>
    exact iff_of_true (parkingAutoResetEvent_parks config unavailable.2) trivial
  | parkingManualResetEvent config word =>
    obtain rfl : word = 0 := unavailable
    exact iff_of_false (parkingManualResetEvent_spins config) id

/-- A mutex that is held with a waiter, and a stale snapshot of a free one. -/
theorem spinPhase_parks_iff_held : (SpinEntry.parkingMutex .backoff 2 3).Parks :=
  (spinPhase_parks_iff (.parkingMutex .backoff 2 3) (show (3 : ParkingMutex.Word) &&& 1 ≠ 0 by decide)).mpr
    trivial

/-- **`parking_manual_reset_event` with backoff never parks.** `wait` on an event that is not set. -/
theorem manualResetEvent_spins_forever :
    (ParkingManualResetEvent.begin ⟨true⟩ .wait = .spin {} ∧
      (SpinEntry.parkingManualResetEvent ⟨true⟩ 0).Unavailable) ∧
    ¬ (SpinEntry.parkingManualResetEvent ⟨true⟩ 0).Parks :=
  ⟨⟨rfl, rfl⟩, parkingManualResetEvent_spins ⟨true⟩⟩

end NovaSync.Backoff
