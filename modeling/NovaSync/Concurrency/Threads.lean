/-
**Threads over a shared memory, with sleeping and waking.**

A `Program` says what one thread does: how an operation is called, what its next atomic step does to
the memory and to its own local state, where it issues a wake, and what sleeping is. `Program.system`
interleaves any finite number of such threads. A wake is a step of its own: `WakeCount.one` wakes one
sleeper of the scheduler's choice if there is one, `WakeCount.all` wakes every sleeper.

* `Program.next_cases` — everything a step of the system can do, once; `Program.Silent.next_cases` where nobody
  issues a wake, and `Program.Silent.record_cases` beside a history. There `Program.Silent.everywhere` makes an
  invariant of what each thread keeps of its own place.
* `Program.alone`, `Program.along` — one thread's own steps, while the others stand still or at whatever
  memories they leave it.
* `Program.Comes` — one thread's own steps lead to a goal, whatever the others do that keeps a view of the
  memory; `not_comes_of_trap` is the way to show that they do not.
* `Program.Woken` — what a wake does to the other threads: each is as before, or was asleep and is
  woken.
* `count` — how many threads are at a place; `count_update` (of `sum_update`) and `count_congr` say how it changes
  when one thread moves or when sleepers are woken; `card_labels_le_count` and `count_le_card_labels`
  compare it with a set of labels that the threads hold.
-/

import NovaSync.Concurrency.Transition
import Mathlib.Algebra.BigOperators.Group.Finset.Piecewise
import Mathlib.Algebra.Order.BigOperators.Group.Finset
import Mathlib.Data.Fintype.BigOperators

namespace Concurrency

/-! ### Counting threads -/

section Count

variable {Thread Local : Type*} [Fintype Thread]

/-- The number of threads whose local state satisfies `place`. -/
def count (place : Local → Bool) (thread : Thread → Local) : ℕ :=
  ∑ t, (place (thread t)).toNat

theorem count_congr {place : Local → Bool} {thread after : Thread → Local}
    (same : ∀ t, place (after t) = place (thread t)) : count place after = count place thread :=
  Finset.sum_congr rfl fun t _ => by rw [same t]

/-- Nobody is at a place that is not where everybody is. -/
theorem count_const {place : Local → Bool} {here : Local} (absent : place here = false) :
    count place (fun _ : Thread => here) = 0 :=
  Finset.sum_eq_zero fun t _ => by rw [absent, Bool.toNat_false]

theorem count_le_card (place : Local → Bool) (thread : Thread → Local) :
    count place thread ≤ Fintype.card Thread :=
  calc count place thread ≤ ∑ _t : Thread, 1 := Finset.sum_le_sum fun t _ => Bool.toNat_le _
    _ = Fintype.card Thread := by simp

theorem count_mono {place : Local → Bool} {thread after : Thread → Local}
    (still : ∀ t, place (after t) = true → place (thread t) = true) :
    count place after ≤ count place thread := by
  refine Finset.sum_le_sum fun t _ => ?_
  cases there : place (after t) with
  | false => exact Nat.zero_le _
  | true => rw [still t there]

theorem count_pos {place : Local → Bool} {thread : Thread → Local} {t : Thread}
    (here : place (thread t) = true) : 0 < count place thread := by
  refine lt_of_lt_of_le ?_ (Finset.single_le_sum (fun _ _ => Nat.zero_le _) (Finset.mem_univ t))
  rw [here]
  exact Nat.one_pos

theorem exists_of_count_pos {place : Local → Bool} {thread : Thread → Local}
    (positive : 0 < count place thread) : ∃ t, place (thread t) = true := by
  by_contra nowhere
  push Not at nowhere
  have zero : count place thread = 0 :=
    Finset.sum_eq_zero fun t _ => by rw [Bool.eq_false_of_not_eq_true (nowhere t), Bool.toNat_false]
  omega

/-- Everybody is at the place where everybody is. -/
theorem count_const_card {place : Local → Bool} {here : Local} (present : place here = true) :
    count place (fun _ : Thread => here) = Fintype.card Thread := by
  simp only [count, present, Bool.toNat_true]
  simp

/-- Every thread is at a place or not. -/
theorem count_add_count_not (place : Local → Bool) (thread : Thread → Local) :
    count place thread + count (fun l => !place l) thread = Fintype.card Thread := by
  have termwise : ∀ t ∈ Finset.univ,
      (place (thread t)).toNat + (!place (thread t)).toNat = 1 := fun t _ => by
    cases place (thread t) <;> rfl
  unfold count
  rw [← Finset.sum_add_distrib, Finset.sum_congr rfl termwise]
  simp

/-- Threads of two sorts. -/
theorem count_sumElim {Other : Type*} [Fintype Other] (place : Local → Bool) (thread : Thread → Local)
    (other : Other → Local) :
    count place (Sum.elim thread other) = count place thread + count place other :=
  Fintype.sum_sum_type _

/-- Two places a thread is never at together, with a bound on the sum. -/
theorem count_add_count_le_card {first second : Local → Bool} {thread : Thread → Local}
    (apart : ∀ t, first (thread t) = true → second (thread t) = false) :
    count first thread + count second thread ≤ Fintype.card Thread := by
  have termwise : ∀ t ∈ Finset.univ,
      (first (thread t)).toNat + (second (thread t)).toNat ≤ 1 := fun t _ => by
    cases here : first (thread t) with
    | false => simpa using Bool.toNat_le _
    | true => simp [apart t here]
  calc count first thread + count second thread
      = ∑ t, ((first (thread t)).toNat + (second (thread t)).toNat) :=
        Finset.sum_add_distrib.symm
    _ ≤ ∑ _t : Thread, 1 := Finset.sum_le_sum termwise
    _ = Fintype.card Thread := by simp

variable [DecidableEq Thread]

/-- **How a sum over the threads changes when one of them moves.** -/
theorem sum_update (weight : Local → ℕ) (thread : Thread → Local) (t : Thread) (moved : Local) :
    ∑ u, weight (Function.update thread t moved u) + weight (thread t) =
      ∑ u, weight (thread u) + weight moved := by
  rw [← Finset.add_sum_erase _ _ (Finset.mem_univ t),
    ← Finset.add_sum_erase Finset.univ (fun u => weight (thread u)) (Finset.mem_univ t)]
  have others : ∑ u ∈ Finset.univ.erase t, weight (Function.update thread t moved u) =
      ∑ u ∈ Finset.univ.erase t, weight (thread u) :=
    Finset.sum_congr rfl fun u member => by
      rw [Function.update_of_ne (Finset.ne_of_mem_erase member)]
  rw [others, Function.update_self]
  omega

/-- **How a count changes when one thread moves.** -/
theorem count_update (place : Local → Bool) (thread : Thread → Local) (t : Thread)
    (moved : Local) :
    count place (Function.update thread t moved) + (place (thread t)).toNat =
      count place thread + (place moved).toNat :=
  sum_update (fun l => (place l).toNat) thread t moved

section Update

variable {place : Local → Bool} {thread : Thread → Local} {t : Thread} {moved : Local}

theorem count_update_same (same : place moved = place (thread t)) :
    count place (Function.update thread t moved) = count place thread := by
  have change := count_update place thread t moved
  rw [same] at change
  omega

theorem count_update_enter (outside : place (thread t) = false) (inside : place moved = true) :
    count place (Function.update thread t moved) = count place thread + 1 := by
  have change := count_update place thread t moved
  rw [outside, inside, Bool.toNat_false, Bool.toNat_true] at change
  omega

theorem count_update_leave (inside : place (thread t) = true) (outside : place moved = false) :
    count place (Function.update thread t moved) + 1 = count place thread := by
  have change := count_update place thread t moved
  rw [outside, inside, Bool.toNat_false, Bool.toNat_true] at change
  omega

end Update

/-- At most one thread is at a place whose count is at most one. -/
theorem eq_of_count_le_one {place : Local → Bool} {thread : Thread → Local}
    (few : count place thread ≤ 1) {t u : Thread} (here : place (thread t) = true)
    (there : place (thread u) = true) : t = u := by
  by_contra different
  have pair : (place (thread t)).toNat + (place (thread u)).toNat ≤ count place thread := by
    rw [← Finset.sum_pair (f := fun v => (place (thread v)).toNat) different]
    exact Finset.sum_le_sum_of_subset (Finset.subset_univ _)
  rw [here, there, Bool.toNat_true] at pair
  omega

omit [DecidableEq Thread] in
theorem count_eq_card (place : Local → Bool) (thread : Thread → Local) :
    count place thread = (Finset.univ.filter fun t => place (thread t) = true).card := by
  rw [Finset.card_filter]
  refine Finset.sum_congr rfl fun t _ => ?_
  cases place (thread t) <;> rfl

section Labels

variable {Label : Type*} [DecidableEq Label] {place : Local → Bool} {thread : Thread → Local}
  (label : Local → Option Label) {labels : Finset Label}

omit [DecidableEq Thread] in
/-- Where every label is held, there are at least as many threads as labels. -/
theorem card_labels_le_count
    (held : ∀ l ∈ labels, ∃ t, place (thread t) = true ∧ label (thread t) = some l) :
    labels.card ≤ count place thread := by
  have covered : labels.image some ⊆
      (Finset.univ.filter fun t => place (thread t) = true).image fun t => label (thread t) := by
    intro value member
    obtain ⟨l, inside, rfl⟩ := Finset.mem_image.mp member
    obtain ⟨t, here, holds⟩ := held l inside
    exact Finset.mem_image.mpr ⟨t, Finset.mem_filter.mpr ⟨Finset.mem_univ t, here⟩, holds⟩
  calc labels.card = (labels.image some).card :=
        (Finset.card_image_of_injective labels (Option.some_injective Label)).symm
    _ ≤ ((Finset.univ.filter fun t => place (thread t) = true).image fun t =>
          label (thread t)).card := Finset.card_le_card covered
    _ ≤ (Finset.univ.filter fun t => place (thread t) = true).card := Finset.card_image_le
    _ = count place thread := (count_eq_card place thread).symm

omit [DecidableEq Thread] in
/-- Where every thread holds a label of its own, there are at most as many threads as labels. -/
theorem count_le_card_labels
    (labelled : ∀ t, place (thread t) = true → ∃ l ∈ labels, label (thread t) = some l)
    (distinct : ∀ t u l, label (thread t) = some l → label (thread u) = some l → t = u) :
    count place thread ≤ labels.card := by
  rw [count_eq_card, ← Finset.card_image_of_injective labels (Option.some_injective Label)]
  refine Finset.card_le_card_of_injOn (fun t => label (thread t)) ?_ ?_
  · intro t here
    obtain ⟨l, inside, holds⟩ := labelled t (Finset.mem_filter.mp here).2
    exact Finset.mem_coe.mpr (Finset.mem_image.mpr ⟨l, inside, holds.symm⟩)
  · intro t here u _ same
    obtain ⟨l, -, holds⟩ := labelled t (Finset.mem_filter.mp here).2
    exact distinct t u l holds (same.symm.trans holds)

end Labels

end Count

/-! ### One thread moves -/

section Move

variable {Thread Local Value : Type*} [DecidableEq Thread] {thread : Thread → Local} {t u : Thread}
  {moved : Local}

/-- What a thread's move does not change is as before. -/
theorem apply_update {f : Local → Value} (same : f moved = f (thread t)) (u : Thread) :
    f (Function.update thread t moved u) = f (thread u) := by
  by_cases here : u = t
  · rw [here, Function.update_self, same]
  · rw [Function.update_of_ne here]

/-- What is seen of a thread after a move is seen of the one that moved, or was seen before. -/
theorem update_cases (f : Local → Value) {value : Value}
    (seen : f (Function.update thread t moved u) = value) :
    u = t ∧ f moved = value ∨ u ≠ t ∧ f (thread u) = value := by
  by_cases here : u = t
  · rw [here, Function.update_self] at seen
    exact Or.inl ⟨here, seen⟩
  · rw [Function.update_of_ne here] at seen
    exact Or.inr ⟨here, seen⟩

/-- Who is at a place after a thread has moved elsewhere is another thread, and was there before. -/
theorem ne_of_update (place : Local → Bool) (elsewhere : place moved = false)
    (there : place (Function.update thread t moved u) = true) : u ≠ t ∧ place (thread u) = true := by
  rcases update_cases place there with ⟨-, here⟩ | before
  · rw [elsewhere] at here
    cases here
  · exact before

/-- A thread's move leaves whoever stands where the thread did not. -/
theorem exists_update {place : Local} (moved : Local) (source : thread t ≠ place)
    (standing : ∃ v, thread v = place) : ∃ v, Function.update thread t moved v = place := by
  obtain ⟨v, there⟩ := standing
  have other : v ≠ t := by
    rintro rfl
    exact source there
  exact ⟨v, by rw [Function.update_of_ne other]; exact there⟩

end Move

/-! ### Programs -/

/-- How many sleepers a wake asks for. -/
inductive WakeCount
  | one
  | all
deriving DecidableEq, Repr

/-- What one thread does. -/
structure Program (Memory Local Op Choice : Type*) where
  /-- Where every thread starts. -/
  idle : Local
  /-- Call an operation; `none` where the caller may not. -/
  call : Op → Local → Option Local
  /-- The next atomic step, as the environment resolves it. -/
  step : Choice → Memory → Local → Option (Memory × Local)
  /-- The wake the thread is about to issue, and where it goes on. -/
  wake : Local → Option (WakeCount × Local)
  asleep : Local → Bool
  /-- A sleeper after a wake. -/
  woken : Local → Local

/-- The memory and every thread's local state. -/
@[ext] structure State (Thread Memory Local : Type*) where
  memory : Memory
  thread : Thread → Local

/-- An action names the thread that moves and what the environment chooses. -/
inductive Action (Thread Op Choice : Type*)
  | call (thread : Thread) (op : Op)
  | step (thread : Thread) (choice : Choice)
  | wake (thread : Thread) (target : Option Thread)
deriving DecidableEq, Repr

/-- The thread that an action moves. -/
def Action.mover {Thread Op Choice : Type*} : Action Thread Op Choice → Thread
  | .call t _ | .step t _ | .wake t _ => t

/-- A condition on the steps of the threads, as a guard. -/
def OnStep {Thread Memory Local Op Choice : Type*}
    (condition : State Thread Memory Local → Thread → Prop) (state : State Thread Memory Local) :
    Action Thread Op Choice → Prop
  | .step t _ => condition state t
  | .call _ _ | .wake _ _ => True

instance {Thread Memory Local Op Choice : Type*}
    (condition : State Thread Memory Local → Thread → Prop) (state : State Thread Memory Local)
    [DecidablePred (condition state)] :
    @DecidablePred (Action Thread Op Choice) (OnStep condition state)
  | .step t _ => inferInstanceAs (Decidable (condition state t))
  | .call _ _ | .wake _ _ => inferInstanceAs (Decidable True)

namespace Program

variable {Thread Memory Local Op Choice : Type*} [DecidableEq Thread] [Fintype Thread]
variable (program : Program Memory Local Op Choice)

/-- Every sleeper woken. -/
def wakeEvery (thread : Thread → Local) : Thread → Local :=
  fun u => if program.asleep (thread u) then program.woken (thread u) else thread u

/-- The state after an action. -/
def next (state : State Thread Memory Local) :
    Action Thread Op Choice → Option (State Thread Memory Local)
  | .call t op => (program.call op (state.thread t)).map fun after =>
      ⟨state.memory, Function.update state.thread t after⟩
  | .step t choice => (program.step choice state.memory (state.thread t)).map fun after =>
      ⟨after.1, Function.update state.thread t after.2⟩
  | .wake t target =>
      match program.wake (state.thread t), target with
      | some (.one, after), some u =>
          if program.asleep (state.thread u) then
            some ⟨state.memory, Function.update
              (Function.update state.thread u (program.woken (state.thread u))) t after⟩
          else none
      | some (.one, after), none =>
          if ∀ u, program.asleep (state.thread u) = false then
            some ⟨state.memory, Function.update state.thread t after⟩
          else none
      | some (.all, after), none =>
          some ⟨state.memory, Function.update (program.wakeEvery state.thread) t after⟩
      | _, _ => none

/-- Any number of threads, all idle, over a memory. -/
def system (memory : Memory) : System (State Thread Memory Local) (Action Thread Op Choice) where
  start := { memory := memory, thread := fun _ => program.idle }
  next := program.next

/-- **What a wake leaves of the threads**: each is as before, or was asleep and is woken. -/
def Woken (thread after : Thread → Local) : Prop :=
  ∀ u, after u = thread u ∨
    program.asleep (thread u) = true ∧ after u = program.woken (thread u)

variable {program}

omit [DecidableEq Thread] [Fintype Thread] in
theorem Woken.refl (thread : Thread → Local) : program.Woken thread thread :=
  fun _ => Or.inl rfl

omit [Fintype Thread] in
theorem Woken.one {thread : Thread → Local} {u : Thread}
    (sleeping : program.asleep (thread u) = true) :
    program.Woken thread (Function.update thread u (program.woken (thread u))) := by
  intro v
  by_cases same : v = u
  · subst same
    rw [Function.update_self]
    exact Or.inr ⟨sleeping, rfl⟩
  · exact Or.inl (Function.update_of_ne same _ _)

omit [DecidableEq Thread] [Fintype Thread] in
theorem Woken.every (thread : Thread → Local) :
    program.Woken thread (program.wakeEvery thread) := by
  intro u
  unfold wakeEvery
  split
  · rename_i sleeping
    exact Or.inr ⟨sleeping, rfl⟩
  · exact Or.inl rfl

variable (program) in
omit [DecidableEq Thread] [Fintype Thread] in
/-- After a wake of all nobody sleeps. -/
theorem asleep_wakeEvery (awake : ∀ l, program.asleep (program.woken l) = false)
    (thread : Thread → Local) (u : Thread) : program.asleep (program.wakeEvery thread u) = false := by
  unfold wakeEvery
  split
  · exact awake _
  · exact Bool.eq_false_of_not_eq_true ‹_›

omit [DecidableEq Thread] [Fintype Thread] in
/-- What waking does not change is as before. -/
theorem Woken.apply_eq {thread after : Thread → Local} (woken : program.Woken thread after)
    {Value : Type*} {f : Local → Value}
    (blind : ∀ l, program.asleep l = true → f (program.woken l) = f l) (u : Thread) :
    f (after u) = f (thread u) := by
  rcases woken u with same | ⟨sleeping, same⟩
  · rw [same]
  · rw [same, blind _ sleeping]

omit [Fintype Thread] in
/-- What neither waking nor the waker's own move changes is as before. -/
theorem Woken.apply_update_eq {thread after : Thread → Local} (woken : program.Woken thread after)
    {Value : Type*} {f : Local → Value}
    (blind : ∀ l, program.asleep l = true → f (program.woken l) = f l) {t : Thread} {moved : Local}
    (same : f moved = f (thread t)) (u : Thread) :
    f (Function.update after t moved u) = f (thread u) :=
  (apply_update (same.trans (woken.apply_eq blind t).symm) u).trans (woken.apply_eq blind u)

/-- **Everything a step of the system can do.** In the last case the waker has moved on from a thread
map in which some sleepers are woken; which ones depends on the wake. -/
theorem next_cases {state after : State Thread Memory Local} {action : Action Thread Op Choice}
    (taken : program.next state action = some after) :
    (∃ t op moved, action = .call t op ∧ program.call op (state.thread t) = some moved ∧
      after = ⟨state.memory, Function.update state.thread t moved⟩) ∨
    (∃ t choice memory moved, action = .step t choice ∧
      program.step choice state.memory (state.thread t) = some (memory, moved) ∧
      after = ⟨memory, Function.update state.thread t moved⟩) ∨
    (∃ t target kind moved others, action = .wake t target ∧
      program.wake (state.thread t) = some (kind, moved) ∧
      program.Woken state.thread others ∧
      after = ⟨state.memory, Function.update others t moved⟩ ∧
      ((kind = .all ∧ others = program.wakeEvery state.thread) ∨
        (kind = .one ∧ ∃ u, program.asleep (state.thread u) = true ∧
          others = Function.update state.thread u (program.woken (state.thread u))) ∨
        (kind = .one ∧ others = state.thread ∧
          ∀ u, program.asleep (state.thread u) = false))) := by
  cases action with
  | call t op =>
    simp only [next, Option.map_eq_some_iff] at taken
    obtain ⟨moved, called, rfl⟩ := taken
    exact Or.inl ⟨t, op, moved, rfl, called, rfl⟩
  | step t choice =>
    simp only [next, Option.map_eq_some_iff] at taken
    obtain ⟨⟨memory, moved⟩, stepped, rfl⟩ := taken
    exact Or.inr (Or.inl ⟨t, choice, memory, moved, rfl, stepped, rfl⟩)
  | wake t target =>
    simp only [next] at taken
    refine Or.inr (Or.inr ?_)
    split at taken
    · rename_i moved u issued
      split at taken
      · rename_i sleeping
        cases taken
        exact ⟨t, _, .one, moved, _, rfl, issued, Woken.one sleeping, rfl,
          Or.inr (Or.inl ⟨rfl, u, sleeping, rfl⟩)⟩
      · cases taken
    · rename_i moved issued
      split at taken
      · rename_i nobody
        cases taken
        exact ⟨t, _, .one, moved, _, rfl, issued, Woken.refl _, rfl,
          Or.inr (Or.inr ⟨rfl, rfl, nobody⟩)⟩
      · cases taken
    · rename_i moved issued
      cases taken
      exact ⟨t, _, .all, moved, _, rfl, issued, Woken.every _, rfl, Or.inl ⟨rfl, rfl⟩⟩
    · cases taken

/-! ### Programs that wake nobody -/

variable (program) in
/-- Nobody issues a wake. -/
def Silent : Prop := ∀ l, program.wake l = none

/-- **Everything a step of such a system can do.** -/
theorem Silent.next_cases (silent : program.Silent) {state after : State Thread Memory Local}
    {action : Action Thread Op Choice} (taken : program.next state action = some after) :
    (∃ t op moved, action = .call t op ∧ program.call op (state.thread t) = some moved ∧
      after = ⟨state.memory, Function.update state.thread t moved⟩) ∨
    ∃ t choice memory moved, action = .step t choice ∧
      program.step choice state.memory (state.thread t) = some (memory, moved) ∧
      after = ⟨memory, Function.update state.thread t moved⟩ := by
  rcases Program.next_cases taken with called | stepped | ⟨t, target, kind, moved, others, -, issued, -⟩
  · exact Or.inl called
  · exact Or.inr stepped
  · rw [silent] at issued
    cases issued

/-- **What every thread's calls and steps keep of its own place** holds of every thread. -/
theorem Silent.everywhere (silent : program.Silent) {P : Local → Prop} (idle : P program.idle)
    (calls : ∀ op here moved, P here → program.call op here = some moved → P moved)
    (steps : ∀ choice memory here after moved, P here →
      program.step choice memory here = some (after, moved) → P moved)
    {start : Memory} {guard : State Thread Memory Local → Action Thread Op Choice → Prop}
    {state : State Thread Memory Local} (reached : (program.system start).Reach guard state) (t : Thread) :
    P (state.thread t) := by
  refine reached.invariant (P := fun state => ∀ t, P (state.thread t)) (fun _ => idle) ?_ t
  intro state action after _ before _ taken
  have moves : ∀ {t : Thread} {moved : Local}, P moved → ∀ u, P (Function.update state.thread t moved u) :=
    fun here => (Function.forall_update_iff state.thread fun _ l => P l).mpr ⟨here, fun u _ => before u⟩
  rcases silent.next_cases taken with ⟨t, op, moved, -, called, rfl⟩ |
    ⟨t, choice, memory, moved, -, stepped, rfl⟩
  · exact moves (calls op _ moved (before t) called)
  · exact moves (steps choice _ _ memory moved (before t) stepped)

section Record

variable {History : Type*} {start : Memory} {first history : History}
  {note : State Thread Memory Local → Action Thread Op Choice → State Thread Memory Local → History → History}
  {state : State Thread Memory Local}

/-- The same beside a history. -/
theorem Silent.record_cases (silent : program.Silent) {action : Action Thread Op Choice}
    {later : State Thread Memory Local × History}
    (taken : ((program.system start).record first note).next (state, history) action = some later) :
    (∃ t op moved, action = .call t op ∧ program.call op (state.thread t) = some moved ∧
      later = (⟨state.memory, Function.update state.thread t moved⟩,
        note state (.call t op) ⟨state.memory, Function.update state.thread t moved⟩ history)) ∨
    ∃ t choice memory moved, action = .step t choice ∧
      program.step choice state.memory (state.thread t) = some (memory, moved) ∧
      later = (⟨memory, Function.update state.thread t moved⟩,
        note state (.step t choice) ⟨memory, Function.update state.thread t moved⟩ history) := by
  obtain ⟨after, moves, rfl⟩ := Option.map_eq_some_iff.mp taken
  rcases silent.next_cases moves with ⟨t, op, moved, rfl, called, rfl⟩ |
    ⟨t, choice, memory, moved, rfl, stepped, rfl⟩
  · exact Or.inl ⟨t, op, moved, rfl, called, rfl⟩
  · exact Or.inr ⟨t, choice, memory, moved, rfl, stepped, rfl⟩

/-- A step beside a history. -/
theorem record_step {t : Thread} {choice : Choice} {memory : Memory} {moved : Local}
    (stepped : program.step choice state.memory (state.thread t) = some (memory, moved)) :
    ((program.system start).record first note).next (state, history) (.step t choice) =
      some (⟨memory, Function.update state.thread t moved⟩,
        note state (.step t choice) ⟨memory, Function.update state.thread t moved⟩ history) := by
  have taken : program.next state (.step t choice : Action Thread Op Choice) =
      some ⟨memory, Function.update state.thread t moved⟩ := by
    simp only [next, stepped, Option.map_some]
  exact Option.map_eq_some_iff.mpr ⟨_, taken, rfl⟩

end Record

/-! ### One thread alone -/

/-- The steps of one thread while the others stand still. -/
def alone (program : Program Memory Local Op Choice) :
    Memory × Local → List Choice → Option (Memory × Local)
  | here, [] => some here
  | here, choice :: rest => (program.step choice here.1 here.2).bind fun after =>
      program.alone after rest

omit [DecidableEq Thread] [Fintype Thread] in
theorem alone_cons {memory between : Memory} {here place : Local} {choice : Choice}
    (stepped : program.step choice memory here = some (between, place)) (rest : List Choice) :
    program.alone (memory, here) (choice :: rest) = program.alone (between, place) rest := by
  simp only [alone, stepped, Option.bind_some]

/-- The place of one thread after some steps, each at the memory that the others have left it. -/
def along (program : Program Memory Local Op Choice) (choice : Choice) (memories : ℕ → Memory)
    (here : Local) : ℕ → Option Local
  | 0 => some here
  | n + 1 => (program.along choice memories here n).bind fun place =>
      (program.step choice (memories n) place).map Prod.snd

/-- One thread's steps, where the others change the memory after each of them. -/
def amid (program : Program Memory Local Op Choice) (choice : Choice) :
    (ℕ → Memory → Memory) → Memory × Local → ℕ → Option (Memory × Local)
  | _, here, 0 => some here
  | others, here, n + 1 => (program.step choice here.1 here.2).bind fun after =>
      program.amid choice (fun k => others (k + 1)) (others 0 after.1, after.2) n

/-- **The thread comes to a goal by its own steps**, whatever the others do between them that keeps a
view of the memory. -/
def Comes {View : Type*} (program : Program Memory Local Op Choice) (choice : Choice)
    (view : Memory → View) (goal : Local → Prop) (memory : Memory) (here : Local) : Prop :=
  ∀ others : ℕ → Memory → Memory, (∀ n memory, view (others n memory) = view memory) →
    ∃ n after, program.amid choice others (memory, here) n = some after ∧ goal after.2

section Comes

variable {View : Type*} {view : Memory → View} {choice : Choice} {goal : Local → Prop}
  {memory between : Memory} {here place : Local}

omit [DecidableEq Thread] [Fintype Thread] in
theorem Comes.arrived (reached : goal here) : program.Comes choice view goal memory here :=
  fun _ _ => ⟨0, _, rfl, reached⟩

omit [DecidableEq Thread] [Fintype Thread] in
theorem Comes.after (stepped : program.step choice memory here = some (between, place))
    (rest : ∀ later, view later = view between → program.Comes choice view goal later place) :
    program.Comes choice view goal memory here := by
  intro others keeps
  obtain ⟨n, last, computed, reached⟩ := rest (others 0 between) (keeps 0 between)
    (fun k => others (k + 1)) fun k => keeps (k + 1)
  refine ⟨n + 1, last, ?_, reached⟩
  rw [amid, stepped]
  exact computed

omit [DecidableEq Thread] [Fintype Thread] in
/-- A thread in a trap does not come to a goal outside it. -/
theorem not_comes_of_trap (trap : Memory → Local → Prop) (inside : trap memory here)
    (closed : ∀ memory here between place, trap memory here →
      program.step choice memory here = some (between, place) → trap between place)
    (away : ∀ memory here, trap memory here → ¬ goal here) :
    ¬ program.Comes choice view goal memory here := by
  intro comes
  obtain ⟨n, last, computed, reached⟩ := comes (fun _ => id) fun _ _ => rfl
  clear comes
  induction n generalizing memory here with
  | zero =>
    cases computed
    exact away memory here inside reached
  | succ n ih =>
    obtain ⟨⟨between, place⟩, stepped, computed⟩ := Option.bind_eq_some_iff.mp computed
    exact ih (closed _ _ _ _ inside stepped) computed

end Comes

section Moves

variable {memory after : Memory} {base : Thread → Local} {t : Thread} {here moved : Local}

theorem next_call {op : Op} (called : program.call op here = some moved) :
    program.next ⟨memory, Function.update base t here⟩ (.call t op : Action Thread Op Choice) =
      some ⟨memory, Function.update base t moved⟩ := by
  simp only [next, Function.update_self, called, Option.map_some, Function.update_idem]

theorem next_call_eq {state : State Thread Memory Local} {op : Op}
    (called : program.call op (state.thread t) = some moved) :
    program.next state (.call t op : Action Thread Op Choice) =
      some ⟨state.memory, Function.update state.thread t moved⟩ := by
  simp only [next, called, Option.map_some]

theorem next_step_eq {state : State Thread Memory Local} {choice : Choice}
    (stepped : program.step choice state.memory (state.thread t) = some (after, moved)) :
    program.next state (.step t choice : Action Thread Op Choice) =
      some ⟨after, Function.update state.thread t moved⟩ := by
  simp only [next, stepped, Option.map_some]

theorem next_step {choice : Choice} (stepped : program.step choice memory here = some (after, moved)) :
    program.next ⟨memory, Function.update base t here⟩ (.step t choice : Action Thread Op Choice) =
      some ⟨after, Function.update base t moved⟩ := by
  simp only [next, Function.update_self, stepped, Option.map_some, Function.update_idem]

/-- A wake of all where nobody sleeps. -/
theorem next_wake_all (issued : program.wake here = some (.all, moved))
    (awake : ∀ u, program.asleep (Function.update base t here u) = false) :
    program.next ⟨memory, Function.update base t here⟩ (.wake t none : Action Thread Op Choice) =
      some ⟨memory, Function.update base t moved⟩ := by
  have nobody : program.wakeEvery (Function.update base t here) = Function.update base t here := by
    funext u
    rw [wakeEvery, awake u]
    rfl
  simp only [next, Function.update_self, issued, nobody, Function.update_idem]

end Moves

/-- A thread that runs alone takes a system of the program's steps with it. -/
theorem reach_alone {system : System (State Thread Memory Local) (Action Thread Op Choice)}
    (steps : system.next = program.next)
    {guard : State Thread Memory Local → Action Thread Op Choice → Prop}
    {memory after : Memory} {thread : Thread → Local} {t : Thread} {moved : Local} {choices : List Choice}
    (reached : system.Reach guard ⟨memory, thread⟩)
    (allowed : ∀ state, ∀ choice ∈ choices, guard state (.step t choice))
    (computed : program.alone (memory, thread t) choices = some (after, moved)) :
    system.Reach guard ⟨after, Function.update thread t moved⟩ := by
  induction choices generalizing memory thread with
  | nil =>
    cases computed
    rw [Function.update_eq_self]
    exact reached
  | cons choice rest ih =>
    obtain ⟨⟨between, place⟩, stepped, computed⟩ := Option.bind_eq_some_iff.mp computed
    have taken : system.next ⟨memory, thread⟩ (.step t choice) =
        some ⟨between, Function.update thread t place⟩ := by
      rw [steps]
      exact next_step_eq stepped
    have first : guard ⟨memory, thread⟩ (.step t choice) := allowed _ _ List.mem_cons_self
    have later := ih (reached.step first taken)
      (fun state choice member => allowed state choice (List.mem_cons_of_mem _ member))
      (by rw [Function.update_self]; exact computed)
    rw [Function.update_idem] at later
    exact later

theorem reachable_alone {start memory after : Memory} {thread : Thread → Local} {t : Thread}
    {moved : Local} {choices : List Choice}
    (reached : (program.system start).Reachable ⟨memory, thread⟩)
    (computed : program.alone (memory, thread t) choices = some (after, moved)) :
    (program.system start).Reachable ⟨after, Function.update thread t moved⟩ :=
  reach_alone rfl reached (fun _ _ _ => trivial) computed

/-- The same for a thread that calls an operation first. -/
theorem reachable_operation {start memory after : Memory} {thread : Thread → Local} {first moved : Local}
    (t : Thread) (op : Op) (choices : List Choice)
    (reached : (program.system start).Reachable ⟨memory, thread⟩)
    (called : program.call op (thread t) = some first)
    (computed : program.alone (memory, first) choices = some (after, moved)) :
    (program.system start).Reachable ⟨after, Function.update thread t moved⟩ := by
  have taken : (program.system start).next ⟨memory, thread⟩ (.call t op) =
      some ⟨memory, Function.update thread t first⟩ := next_call_eq called
  have later := reachable_alone (t := t) (reached.step trivial taken)
    (by rw [Function.update_self]; exact computed)
  rw [Function.update_idem] at later
  exact later

end Program

end Concurrency
