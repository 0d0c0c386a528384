/-
**The shared spinlock: exclusion, the `write_pending` bit, and overtaking readers.**

* `Represented` — `state_` is `write_locked` with one writer and no reader, or has that bit clear and
  counts the readers. A reader's exchange keeps it as long as the count has room, which fewer than
  `2 ^ 30` threads always leave (`sharedSpinlock_exclusion`).
* `sharedSpinlock_pending_owned` — who last set `write_pending` is still in `lock_slow`, and until a
  writer acquires the readers only leave. With `2 ^ 30` readers the last one sets the bit by carrying
  into it (`sharedSpinlock_pending_orphaned`).
* `sharedSpinlock_no_overtaking` — no reader passes a writer that has announced itself, in runs in
  which no other writer acquires while it waits. An acquiring writer clears the one bit that
  all announced writers share, and they do not look whether it is still set
  (`sharedSpinlock_overtaken`).
-/

import NovaSync.Mutex.SharedSpinlock

set_option linter.unusedSectionVars false

namespace NovaSync.SharedSpinlock

open Concurrency Detail

variable {variant : Variant} {Thread : Type*} [DecidableEq Thread] [Fintype Thread]

/-- The threads that hold the lock as writers. -/
def writers (state : State Thread Word Pc) : ℕ := count Pc.writes state.thread

/-- The threads that hold the lock as readers. -/
def readers (state : State Thread Word Pc) : ℕ := count Pc.reads state.thread

/-! ### Calls -/

theorem call_moves {op : Op} {pc moved : Pc} (word : Word) (called : call op pc = some moved) :
    Moves word pc moved := by
  unfold call at called
  split at called
  all_goals
    cases called
    try exact moves_outside rfl rfl rfl rfl

/-- **Everything an action can do**: it has an effect, which for a call is that the caller moves on. -/
theorem next_effect {state after : State Thread Word Pc} {action : Action Thread Op Choice}
    (taken : (system variant Thread).next state action = some after) :
    ∃ choice word moved, (choice = .go → action = .step action.mover .go) ∧
      Effect choice state.memory (state.thread action.mover) word moved ∧
      after = ⟨word, Function.update state.thread action.mover moved⟩ := by
  rcases (program_silent variant).next_cases taken with ⟨t, op, moved, rfl, called, result⟩ |
    ⟨t, choice, word, moved, rfl, stepped, result⟩
  · exact ⟨.spurious, state.memory, moved, nofun, .moves (call_moves _ called), result⟩
  · refine ⟨choice, word, moved, fun went => ?_, step_effect stepped, result⟩
    rw [went]
    rfl

/-! ### The representation -/

/-- **What `state_` represents.** -/
inductive Represented (state : State Thread Word Pc) : Prop
  | written : state.memory = writeLocked → writers state = 1 → readers state = 0 → Represented state
  | shared : state.memory &&& writeLocked = 0 → writers state = 0 →
      (state.memory &&& readersMask).toNat = readers state → Represented state

section Represented

variable {state : State Thread Word Pc}

/-- Nobody holds a zero word. -/
theorem Represented.free (memory : state.memory = 0) (writing : writers state = 0)
    (reading : readers state = 0) : Represented state := by
  refine .shared ?_ writing ?_
  · rw [memory]
    rfl
  · rw [memory, reading]
    rfl

theorem Represented.congr {after : State Thread Word Pc} (represented : Represented state)
    (memory : after.memory = state.memory) (writing : writers after = writers state)
    (reading : readers after = readers state) : Represented after := by
  cases represented with
  | written word single none =>
    exact .written (memory.trans word) (writing.trans single) (reading.trans none)
  | shared unlocked none count =>
    exact .shared (by rw [memory]; exact unlocked) (writing.trans none)
      (by rw [memory, reading]; exact count)

/-- Without `write_locked` the word counts the readers. -/
theorem Represented.unlocked (represented : Represented state)
    (unlocked : state.memory &&& writeLocked = 0) :
    writers state = 0 ∧ state.memory.toNat % 2 ^ 30 = readers state := by
  cases represented with
  | written word =>
    rw [word] at unlocked
    cases unlocked
  | shared _ none count => exact ⟨none, by rw [← toNat_readers]; exact count⟩

/-- A writer has the word for itself. -/
theorem Represented.writer (represented : Represented state) {t : Thread}
    (writing : (state.thread t).writes = true) :
    state.memory = writeLocked ∧ writers state = 1 ∧ readers state = 0 := by
  have positive : 0 < writers state := count_pos writing
  cases represented with
  | written word single none => exact ⟨word, single, none⟩
  | shared _ none => omega

/-- A reader is counted by a word without `write_locked`. -/
theorem Represented.reader (represented : Represented state) {t : Thread}
    (reading : (state.thread t).reads = true) :
    state.memory.toNat < 2 ^ 31 ∧ writers state = 0 ∧
      state.memory.toNat % 2 ^ 30 = readers state ∧ 0 < readers state := by
  have positive : 0 < readers state := count_pos reading
  cases represented with
  | written _ _ none => omega
  | shared unlocked none count =>
    exact ⟨(unlocked_iff _).mp unlocked, none, by rw [← toNat_readers]; exact count, positive⟩

/-- **One step of one thread.** A reader's exchange needs room in the count. -/
theorem Represented.effect (represented : Represented state) {t : Thread} {choice : Choice}
    {word : Word} {moved : Pc}
    (room : choice = .go → (state.thread t).shares state.memory = true →
      readers state + 1 < 2 ^ 30)
    (effect : Effect choice state.memory (state.thread t) word moved) :
    Represented ⟨word, Function.update state.thread t moved⟩ := by
  cases effect with
  | moves inside =>
    exact represented.congr rfl (count_update_same inside.writes) (count_update_same inside.reads)
  | acquire _ unread unlocked _ writes reads =>
    obtain ⟨none, count⟩ := represented.unlocked unlocked
    rw [unread_iff] at unread
    refine .written rfl ((count_update_enter writes rfl).trans (by rw [← writers, none]))
      ((count_update_same reads.symm).trans ?_)
    exact count.symm.trans unread
  | announce unlocked _ unannounced writes reads writes' reads' =>
    obtain ⟨none, count⟩ := represented.unlocked unlocked
    rw [unlocked_iff] at unlocked
    rw [unannounced_iff] at unannounced
    have sum : (state.memory + writePending).toNat = state.memory.toNat + 2 ^ 30 := by
      rw [BitVec.toNat_add, show writePending.toNat = 2 ^ 30 from rfl]
      omega
    refine .shared ?_ ((count_update_same (writes'.trans writes.symm)).trans none) ?_
    · rw [unlocked_iff, sum]
      omega
    · rw [toNat_readers, sum]
      refine Eq.trans ?_ (count_update_same (reads'.trans reads.symm)).symm
      rw [← readers]
      omega
  | share went opened shares writes reads =>
    rw [open_iff] at opened
    have unlocked : state.memory &&& writeLocked = 0 := by
      rw [unlocked_iff]
      omega
    obtain ⟨none, count⟩ := represented.unlocked unlocked
    have space := room went shares
    have sum : (state.memory + 1).toNat = state.memory.toNat + 1 := by bv_omega
    refine .shared ?_ ((count_update_same writes.symm).trans none) ?_
    · rw [unlocked_iff, sum]
      omega
    · rw [toNat_readers, sum]
      refine Eq.trans ?_ (count_update_enter reads rfl).symm
      rw [← readers]
      omega
  | unlock here =>
    obtain ⟨locked, single, none⟩ := represented.writer (t := t) (by rw [here]; rfl)
    have left : count Pc.writes (Function.update state.thread t .idle) + 1 = count Pc.writes state.thread :=
      count_update_leave (by rw [here]; rfl) rfl
    rw [← writers] at left
    rw [locked]
    refine .free rfl ?_ ((count_update_same (by rw [here]; rfl)).trans none)
    show count Pc.writes (Function.update state.thread t .idle) = 0
    omega
  | unshare here =>
    obtain ⟨unlocked, none, counted, positive⟩ := represented.reader (t := t) (by rw [here]; rfl)
    have left : count Pc.reads (Function.update state.thread t .idle) + 1 = count Pc.reads state.thread :=
      count_update_leave (by rw [here]; rfl) rfl
    rw [← readers] at left
    have difference : (state.memory - 1).toNat = state.memory.toNat - 1 := by bv_omega
    refine .shared ?_ ((count_update_same (by rw [here]; rfl)).trans none) ?_
    · rw [unlocked_iff, difference]
      omega
    · rw [toNat_readers, difference]
      show _ = count Pc.reads (Function.update state.thread t .idle)
      omega

/-- **The reader count neither carries nor borrows**: a step that changes it leaves both flags. -/
theorem Represented.flags (represented : Represented state) {t : Thread} {choice : Choice}
    {word : Word} {moved : Pc}
    (room : choice = .go → (state.thread t).shares state.memory = true →
      readers state + 1 < 2 ^ 30)
    (effect : Effect choice state.memory (state.thread t) word moved)
    (changed : readers ⟨word, Function.update state.thread t moved⟩ ≠ readers state) :
    word &&& (writeLocked ||| writePending) = state.memory &&& (writeLocked ||| writePending) := by
  have before := toNat_flags state.memory
  have after := toNat_flags word
  rw [← BitVec.toNat_inj]
  cases effect with
  | moves inside => exact absurd (count_update_same inside.reads) changed
  | acquire _ _ _ _ _ reads => exact absurd (count_update_same reads.symm) changed
  | announce _ _ _ _ reads _ reads' =>
    exact absurd (count_update_same (reads'.trans reads.symm)) changed
  | share went opened shares =>
    rw [open_iff] at opened
    have unlocked : state.memory &&& writeLocked = 0 := by
      rw [unlocked_iff]
      omega
    have counted := (represented.unlocked unlocked).2
    have space := room went shares
    have sum : (state.memory + 1).toNat = state.memory.toNat + 1 := by bv_omega
    omega
  | unlock here => exact absurd (count_update_same (by rw [here]; rfl)) changed
  | unshare here =>
    obtain ⟨unlocked, -, counted, positive⟩ := represented.reader (t := t) (by rw [here]; rfl)
    have difference : (state.memory - 1).toNat = state.memory.toNat - 1 := by bv_omega
    omega

end Represented

/-- **Every run whose readers always find room keeps the representation.** -/
theorem represented_of_reach {guard : State Thread Word Pc → Action Thread Op Choice → Prop}
    (room : ∀ state t, Represented state → guard state (.step t .go) →
      (state.thread t).shares state.memory = true → readers state + 1 < 2 ^ 30)
    {state : State Thread Word Pc} (reached : (system variant Thread).Reach guard state) :
    Represented state := by
  refine reached.invariant ?_ fun state action after _ represented allowed taken => ?_
  · exact .free rfl (count_const rfl) (count_const rfl)
  · obtain ⟨choice, word, moved, steps, effect, rfl⟩ := next_effect taken
    refine represented.effect (fun went shares => ?_) effect
    rw [steps went] at allowed
    exact room _ _ represented allowed shares

/-- Fewer than `2 ^ 30` threads leave room for one more reader. -/
theorem readers_lt_of_few (few : Fintype.card Thread < 2 ^ 30) (state : State Thread Word Pc)
    {t : Thread} (shares : (state.thread t).shares state.memory = true) :
    readers state + 1 < 2 ^ 30 := by
  have sharing : 0 < count (Pc.shares state.memory) state.thread := count_pos shares
  have bound : readers state + count (Pc.shares state.memory) state.thread ≤ Fintype.card Thread :=
    count_add_count_le_card fun u reads => by
      generalize state.thread u = pc at reads ⊢
      cases pc with
      | reader | unlockShared => rfl
      | _ => cases reads
  omega

theorem represented_of_reachable (few : Fintype.card Thread < 2 ^ 30)
    {state : State Thread Word Pc} (reached : (system variant Thread).Reachable state) :
    Represented state :=
  represented_of_reach (fun state _ _ _ => readers_lt_of_few few state) reached

/-- **Reader-writer exclusion.** With fewer than `2 ^ 30` threads, `state_` is `write_locked` with
exactly one writer and no reader, or has that bit clear, no writer, and counts the readers exactly; and
no step that changes the number of readers touches a flag. -/
theorem sharedSpinlock_exclusion (few : Fintype.card Thread < 2 ^ 30)
    {state : State Thread Word Pc} (reached : (system variant Thread).Reachable state) :
    (state.memory = writeLocked ∧ writers state = 1 ∧ readers state = 0 ∨
      state.memory &&& writeLocked = 0 ∧ writers state = 0 ∧
        (state.memory &&& readersMask).toNat = readers state) ∧
    ∀ action after, (system variant Thread).next state action = some after →
      readers after ≠ readers state →
        after.memory &&& (writeLocked ||| writePending) =
          state.memory &&& (writeLocked ||| writePending) := by
  have represented := represented_of_reachable few reached
  refine ⟨?_, fun action after taken changed => ?_⟩
  · cases represented with
    | written word single none => exact Or.inl ⟨word, single, none⟩
    | shared unlocked none counted => exact Or.inr ⟨unlocked, none, counted⟩
  · obtain ⟨choice, word, moved, -, effect, rfl⟩ := next_effect taken
    exact represented.flags (fun _ => readers_lt_of_few few state) effect changed

/-- Thread 0 reads while thread 1 has announced itself as a writer. -/
theorem sharedSpinlock_exclusion_announced :
    ∃ state, (system .backoff (Fin 2)).Reachable state ∧ state.memory = writePending + 1 ∧
      writers state = 0 ∧ readers state = 1 := by
  obtain ⟨state, reached, announced⟩ := System.exists_reachable_of_run (system .backoff (Fin 2))
    [.call 0 .lockShared, .step 0 .go, .step 0 .go, .call 1 .lock, .step 1 .go, .step 1 .go,
      .step 1 .go]
    (fun state => decide (state.memory = writePending + 1)) (by decide +kernel)
  have word := of_decide_eq_true announced
  refine ⟨state, reached, word, ?_⟩
  rcases (sharedSpinlock_exclusion (by decide) reached).1 with ⟨locked, -⟩ | ⟨-, none, counted⟩
  · rw [word] at locked
    cases locked
  · rw [word] at counted
    exact ⟨none, counted.symm⟩

/-! ### Who set `write_pending` -/

/-- The action is the exchange by which a thread becomes the writer. -/
def Acquires (state : State Thread Word Pc) : Action Thread Op Choice → Prop
  | .step t .go => (state.thread t).acquires state.memory = true
  | _ => False

/-- The history of `write_pending`: the thread whose action last turned it from clear to set. -/
def lastSetter (state : State Thread Word Pc) (action : Action Thread Op Choice)
    (after : State Thread Word Pc) (setter : Option Thread) : Option Thread :=
  if state.memory &&& writePending = 0 ∧ after.memory &&& writePending ≠ 0 then some action.mover
  else setter

/-- The shared spinlock beside the history of `write_pending`. -/
abbrev recorded (variant : Variant) (Thread : Type*) [DecidableEq Thread] [Fintype Thread] :
    System (State Thread Word Pc × Option Thread) (Action Thread Op Choice) :=
  (system variant Thread).record none lastSetter

section Pending

variable {state : State Thread Word Pc} {t : Thread} {choice : Choice} {word : Word} {moved : Pc}

/-- **While the bit is set**, a step is a writer's acquisition, or it leaves the bit set, lets no reader
in and no writer out of `lock_slow`. -/
theorem Represented.pending_effect (represented : Represented state)
    (pending : state.memory &&& writePending ≠ 0)
    (effect : Effect choice state.memory (state.thread t) word moved) :
    choice = .go ∧ (state.thread t).acquires state.memory = true ∧ word = writeLocked ∨
      word &&& writePending ≠ 0 ∧
        readers ⟨word, Function.update state.thread t moved⟩ ≤ readers state ∧
        ((state.thread t).waiting = true → moved.waiting = true) := by
  cases effect with
  | moves inside =>
    exact Or.inr ⟨pending, (count_update_same inside.reads).le, inside.waiting⟩
  | acquire went _ _ acquires => exact Or.inl ⟨went, acquires, rfl⟩
  | announce _ _ unannounced => exact absurd unannounced pending
  | share _ opened =>
    rw [open_iff] at opened
    rw [Ne, unannounced_iff] at pending
    omega
  | unlock here =>
    rw [(represented.writer (t := t) (by rw [here]; rfl)).1] at pending
    exact absurd rfl pending
  | unshare here =>
    obtain ⟨unlocked, -, counted, positive⟩ := represented.reader (t := t) (by rw [here]; rfl)
    have left : count Pc.reads (Function.update state.thread t .idle) + 1 = count Pc.reads state.thread :=
      count_update_leave (by rw [here]; rfl) rfl
    have difference : (state.memory - 1).toNat = state.memory.toNat - 1 := by bv_omega
    refine Or.inr ⟨?_, ?_, fun waiting => ?_⟩
    · rw [Ne, unannounced_iff] at pending ⊢
      omega
    · show count Pc.reads (Function.update state.thread t .idle) ≤ count Pc.reads state.thread
      omega
    · rw [here] at waiting
      cases waiting

/-- **Only a writer in `lock_slow` sets the bit.** -/
theorem Represented.sets_pending (represented : Represented state)
    (room : choice = .go → (state.thread t).shares state.memory = true →
      readers state + 1 < 2 ^ 30)
    (clear : state.memory &&& writePending = 0)
    (effect : Effect choice state.memory (state.thread t) word moved)
    (pending : word &&& writePending ≠ 0) : moved.waiting = true := by
  cases effect with
  | moves => exact absurd clear pending
  | acquire => exact absurd rfl pending
  | announce _ _ _ _ _ _ _ waiting => exact waiting
  | share went opened shares =>
    rw [open_iff] at opened
    have unlocked : state.memory &&& writeLocked = 0 := by
      rw [unlocked_iff]
      omega
    have counted := (represented.unlocked unlocked).2
    have space := room went shares
    rw [Ne, unannounced_iff] at pending
    bv_omega
  | unlock here =>
    rw [(represented.writer (t := t) (by rw [here]; rfl)).1] at pending
    exact absurd rfl pending
  | unshare here =>
    obtain ⟨unlocked, -, counted, positive⟩ := represented.reader (t := t) (by rw [here]; rfl)
    rw [unannounced_iff] at clear
    rw [Ne, unannounced_iff] at pending
    bv_omega

end Pending

/-- **The bit has an owner**: who set it last is inside `lock_slow`. -/
def Owned (state : State Thread Word Pc) (setter : Option Thread) : Prop :=
  state.memory &&& writePending ≠ 0 → ∃ t, setter = some t ∧ (state.thread t).waiting = true

theorem Owned.step {state after : State Thread Word Pc} {setter : Option Thread}
    (owned : Owned state setter) (represented : Represented state)
    (room : ∀ t, (state.thread t).shares state.memory = true → readers state + 1 < 2 ^ 30)
    {action : Action Thread Op Choice}
    (taken : (system variant Thread).next state action = some after) :
    Owned after (lastSetter state action after setter) := by
  intro pending
  obtain ⟨choice, word, moved, -, effect, rfl⟩ := next_effect taken
  by_cases clear : state.memory &&& writePending = 0
  · refine ⟨action.mover, if_pos ⟨clear, pending⟩, ?_⟩
    simp only [Function.update_self]
    exact represented.sets_pending (fun _ => room action.mover) clear effect pending
  · rcases represented.pending_effect clear effect with ⟨-, -, locked⟩ | ⟨-, -, stays⟩
    · simp only [locked] at pending
      exact absurd rfl pending
    · obtain ⟨u, last, waiting⟩ := owned clear
      refine ⟨u, (if_neg fun set => clear set.1).trans last, ?_⟩
      by_cases same : u = action.mover
      · subst same
        simp only [Function.update_self]
        exact stays waiting
      · simp only [Function.update_of_ne same]
        exact waiting

theorem owned_of_reachable (few : Fintype.card Thread < 2 ^ 30) {state : State Thread Word Pc}
    {setter : Option Thread} (reached : (recorded variant Thread).Reachable (state, setter)) :
    Owned state setter := by
  have start : Owned (recorded variant Thread).start.1 (recorded variant Thread).start.2 :=
    fun pending => absurd (show (0 : Word) &&& writePending = 0 from rfl) pending
  refine reached.invariant (P := fun here => Owned here.1 here.2) start ?_
  rintro ⟨state, setter⟩ action ⟨after, later⟩ before owned - taken
  obtain ⟨next, moved, result⟩ := Option.map_eq_some_iff.mp taken
  cases result
  exact owned.step (represented_of_reachable few before.erase)
    (fun _ => readers_lt_of_few few state) moved

/-- **While the bit stays set the readers only leave.** -/
theorem readers_le_of_pending (few : Fintype.card Thread < 2 ^ 30) {state later : State Thread Word Pc}
    (reached : (system variant Thread).Reachable state) (pending : state.memory &&& writePending ≠ 0)
    (resumed : ((system variant Thread).resume state).Reach
      (fun here action => ¬ Acquires here action) later) :
    later.memory &&& writePending ≠ 0 ∧ readers later ≤ readers state := by
  refine resumed.invariant (P := fun here => here.memory &&& writePending ≠ 0 ∧
    readers here ≤ readers state) ⟨pending, le_rfl⟩ fun here action after between bounded quiet taken => ?_
  obtain ⟨choice, word, moved, steps, effect, rfl⟩ := next_effect taken
  have represented := represented_of_reachable few (System.Reach.resume reached between)
  rcases represented.pending_effect bounded.1 effect with ⟨went, acquires, -⟩ | ⟨stays, fewer, -⟩
  · rw [steps went] at quiet
    exact absurd acquires quiet
  · exact ⟨stays, fewer.trans bounded.2⟩

/-- **`write_pending` is never orphaned.** With fewer than `2 ^ 30` threads, while the bit is set the
thread that last set it is inside `lock_slow` and has not acquired; and until a writer acquires, the
bit stays set and the reader count does not grow. -/
theorem sharedSpinlock_pending_owned (few : Fintype.card Thread < 2 ^ 30)
    {state : State Thread Word Pc} {setter : Option Thread}
    (reached : (recorded variant Thread).Reachable (state, setter))
    (pending : state.memory &&& writePending ≠ 0) :
    (∃ t, setter = some t ∧ (state.thread t).waiting = true) ∧
      ∀ later, ((system variant Thread).resume state).Reach
          (fun here action => ¬ Acquires here action) later →
        later.memory &&& writePending ≠ 0 ∧ readers later ≤ readers state :=
  ⟨owned_of_reachable few reached pending,
    fun _ resumed => readers_le_of_pending few reached.erase pending resumed⟩

/-- Thread 1 has set the bit while thread 0 reads. -/
theorem sharedSpinlock_pending_owned_announced :
    ∃ state setter, (recorded .plain (Fin 2)).Reachable (state, setter) ∧
      state.memory &&& writePending ≠ 0 ∧ ∃ t, setter = some t ∧ (state.thread t).waiting = true := by
  obtain ⟨⟨state, setter⟩, reached, announced⟩ := System.exists_reachable_of_run
    (recorded .plain (Fin 2))
    [.call 0 .lockShared, .step 0 .go, .step 0 .go, .call 1 .lock, .step 1 .go, .step 1 .go,
      .step 1 .go]
    (fun here => decide (here.1.memory &&& writePending ≠ 0)) (by decide +kernel)
  have pending := of_decide_eq_true announced
  exact ⟨state, setter, reached, pending, (sharedSpinlock_pending_owned (by decide) reached pending).1⟩

section Crowd

/-- The threads `0, …, k - 1` read and the others are idle. -/
def crowd (n k : ℕ) : State (Fin n) Word Pc where
  memory := BitVec.ofNat 32 k
  thread i := if i.val < k then .reader else .idle

theorem crowd_succ {n k : ℕ} (room : k < n) :
    crowd n (k + 1) = ⟨BitVec.ofNat 32 k + 1, Function.update (crowd n k).thread ⟨k, room⟩ .reader⟩ := by
  refine State.ext (show BitVec.ofNat 32 (k + 1) = _ by bv_omega) (funext fun i => ?_)
  show (crowd n (k + 1)).thread i = Function.update (crowd n k).thread ⟨k, room⟩ .reader i
  by_cases same : i = ⟨k, room⟩
  · subst same
    rw [Function.update_self]
    exact if_pos (Nat.lt_succ_self k)
  · have apart : i.val ≠ k := fun equal => same (Fin.ext equal)
    have older : i.val < k + 1 ↔ i.val < k := by omega
    rw [Function.update_of_ne same]
    simp only [crowd, older]

/-- An action that leaves the word leaves the history. -/
theorem recorded_silent {state after : State Thread Word Pc} {action : Action Thread Op Choice}
    {setter : Option Thread} (reached : (recorded variant Thread).Reachable (state, setter))
    (taken : (system variant Thread).next state action = some after)
    (same : after.memory = state.memory) : (recorded variant Thread).Reachable (after, setter) := by
  have silent : lastSetter state action after setter = setter := by
    refine if_neg ?_
    rintro ⟨clear, set⟩
    rw [same] at set
    exact set clear
  have noted := reached.noted taken
  rw [silent] at noted
  exact noted

/-- The next thread reads; it has set `write_pending` if its exchange turned that bit. -/
theorem crowd_grows {n k : ℕ} (room : k < n) (low : k < 2 ^ 30)
    (reached : (recorded .plain (Fin n)).Reachable (crowd n k, none)) :
    (recorded .plain (Fin n)).Reachable (crowd n (k + 1),
      lastSetter (crowd n k) (.step ⟨k, room⟩ .go) (crowd n (k + 1)) none) := by
  have opened : BitVec.ofNat 32 k &&& (writeLocked ||| writePending) = 0 := by
    rw [open_iff, BitVec.toNat_ofNat]
    omega
  have idle : (crowd n k).thread ⟨k, room⟩ = .idle := if_neg (Nat.lt_irrefl k)
  have called : (system .plain (Fin n)).next (crowd n k) (.call ⟨k, room⟩ .lockShared) =
      some ⟨BitVec.ofNat 32 k, Function.update (crowd n k).thread ⟨k, room⟩ (.sharedLoad true)⟩ := by
    show ((call .lockShared ((crowd n k).thread ⟨k, room⟩)).map _) = _
    rw [idle]
    rfl
  have examined : sharedExamine .plain true (BitVec.ofNat 32 k) = .sharedCas true ⟨_, opened⟩ :=
    dif_pos opened
  have load : (program .plain).step .go (BitVec.ofNat 32 k) (.sharedLoad true) =
      some (BitVec.ofNat 32 k, .sharedCas true ⟨_, opened⟩) := by
    rw [← examined]
    rfl
  have cas : (program .plain).step .go (BitVec.ofNat 32 k) (.sharedCas true ⟨_, opened⟩) =
      some (BitVec.ofNat 32 k + 1, .reader) := by
    simp [program, step, compareExchangeStrong, ordinary]
  have loads : (system .plain (Fin n)).next ⟨BitVec.ofNat 32 k, Function.update (crowd n k).thread
      ⟨k, room⟩ (.sharedLoad true)⟩ (.step ⟨k, room⟩ .go) = some ⟨BitVec.ofNat 32 k,
        Function.update (crowd n k).thread ⟨k, room⟩ (.sharedCas true ⟨_, opened⟩)⟩ :=
    Program.next_step load
  have exchanges : (system .plain (Fin n)).next ⟨BitVec.ofNat 32 k, Function.update
      (crowd n k).thread ⟨k, room⟩ (.sharedCas true ⟨_, opened⟩)⟩ (.step ⟨k, room⟩ .go) =
        some (crowd n (k + 1)) := by
    rw [crowd_succ room]
    exact Program.next_step cas
  have exchanged :=
    (recorded_silent (recorded_silent reached called rfl) loads rfl).noted exchanges
  exact exchanged

theorem crowd_reachable {n k : ℕ} (room : k ≤ n) (low : k < 2 ^ 30) :
    (recorded .plain (Fin n)).Reachable (crowd n k, none) := by
  induction k with
  | zero => exact .start
  | succ k ih =>
    have grown := crowd_grows room (by omega) (ih (by omega) (by omega))
    have clear : ¬ ((crowd n k).memory &&& writePending = 0 ∧
        (crowd n (k + 1)).memory &&& writePending ≠ 0) := by
      rintro ⟨-, set⟩
      rw [Ne, unannounced_iff] at set
      simp only [crowd, BitVec.toNat_ofNat] at set
      omega
    rw [lastSetter, if_neg clear] at grown
    exact grown

/-- **`2 ^ 30` readers are one too many.** The last one carries into `write_pending`: the bit is set, and
who set it is a reader. -/
theorem sharedSpinlock_pending_orphaned :
    ¬ ∀ (variant : Variant) (Thread : Type) [DecidableEq Thread] [Fintype Thread]
      (state : State Thread Word Pc) (setter : Option Thread),
        (recorded variant Thread).Reachable (state, setter) → state.memory &&& writePending ≠ 0 →
          (∃ t, setter = some t ∧ (state.thread t).waiting = true) ∧
            ∀ later, ((system variant Thread).resume state).Reach
                (fun here action => ¬ Acquires here action) later →
              later.memory &&& writePending ≠ 0 ∧ readers later ≤ readers state := by
  intro owned
  generalize size : 2 ^ 30 = n
  have before : (recorded .plain (Fin n)).Reachable (crowd n (n - 1), none) :=
    crowd_reachable (by omega) (by omega)
  have grown := crowd_grows (k := n - 1) (by omega) (by omega) before
  have set : (crowd n (n - 1 + 1)).memory &&& writePending ≠ 0 := by
    rw [Ne, unannounced_iff]
    simp only [crowd, BitVec.toNat_ofNat]
    omega
  obtain ⟨⟨t, -, waiting⟩, -⟩ := owned .plain (Fin n) _ _ grown set
  have reading : (crowd n (n - 1 + 1)).thread t = .reader := if_pos (by omega)
  rw [reading] at waiting
  cases waiting

end Crowd

/-! ### Overtaking readers -/

/-- **No writer acquires while another one has announced itself and waits**, and no reader is let in
where the count is full. -/
def Unopposed (state : State Thread Word Pc) : Action Thread Op Choice → Prop
  | .step t .go =>
      ((state.thread t).acquires state.memory = true →
        ∀ u, u ≠ t → (state.thread u).announced = false) ∧
      ((state.thread t).shares state.memory = true → state.memory &&& readersMask ≠ readersMask)
  | _ => True

instance (state : State Thread Word Pc) :
    @DecidablePred (Action Thread Op Choice) (Unopposed state)
  | .step _ .go => inferInstanceAs (Decidable (_ ∧ _))
  | .step _ .spurious | .step _ .interrupted | .step _ .expired | .step _ .failed =>
      inferInstanceAs (Decidable True)
  | .call _ _ | .wake _ _ => inferInstanceAs (Decidable True)

theorem open_of_shares {word : Word} {pc : Pc} (shares : pc.shares word = true) :
    word &&& (writeLocked ||| writePending) = 0 := by
  cases pc with
  | sharedCas _ expected | sharedSlowCas _ expected =>
    rw [of_decide_eq_true shares]
    exact expected.2
  | _ => cases shares

/-- A count that is not full has room. -/
theorem Represented.room_of_not_full {state : State Thread Word Pc} (represented : Represented state)
    {t : Thread} (shares : (state.thread t).shares state.memory = true)
    (space : state.memory &&& readersMask ≠ readersMask) : readers state + 1 < 2 ^ 30 := by
  have opened := (open_iff _).mp (open_of_shares shares)
  have unlocked : state.memory &&& writeLocked = 0 := by
    rw [unlocked_iff]
    omega
  have counted := (represented.unlocked unlocked).2
  rw [Ne, ← BitVec.toNat_inj, toNat_readers, show readersMask.toNat = 2 ^ 30 - 1 from rfl] at space
  omega

theorem represented_of_unopposed {state : State Thread Word Pc}
    (reached : (system variant Thread).Reach Unopposed state) : Represented state :=
  represented_of_reach (fun _ _ represented allowed shares =>
    represented.room_of_not_full shares (allowed.2 shares)) reached

/-- **The announcements are heard**: while an announced writer waits, the bit is set. -/
def Heard (state : State Thread Word Pc) : Prop :=
  ∀ u, (state.thread u).announced = true → state.memory &&& writePending ≠ 0

/-- Who has announced itself by a step has set the bit or found it set. -/
theorem announced_effect {choice : Choice} {word after : Word} {pc moved : Pc}
    (effect : Effect choice word pc after moved) (announced : moved.announced = true)
    (heard : pc.announced = true → word &&& writePending ≠ 0) : after &&& writePending ≠ 0 := by
  cases effect with
  | moves inside =>
    rcases inside.announced announced with before | found
    · exact heard before
    · exact found
  | announce unlocked _ unannounced =>
    rw [unlocked_iff] at unlocked
    rw [unannounced_iff] at unannounced
    rw [Ne, unannounced_iff, BitVec.toNat_add, show writePending.toNat = 2 ^ 30 from rfl]
    omega
  | acquire | share | unlock | unshare => cases announced

theorem Heard.effect {state : State Thread Word Pc} (heard : Heard state)
    (represented : Represented state) {t : Thread} {choice : Choice} {word : Word} {moved : Pc}
    (alone : choice = .go → (state.thread t).acquires state.memory = true →
      ∀ u, u ≠ t → (state.thread u).announced = false)
    (effect : Effect choice state.memory (state.thread t) word moved) :
    Heard ⟨word, Function.update state.thread t moved⟩ := by
  intro u announced
  rcases update_cases Pc.announced announced with ⟨-, here⟩ | ⟨other, before⟩
  · exact announced_effect effect here (heard t)
  · rcases represented.pending_effect (heard u before) effect with ⟨went, acquires, -⟩ | ⟨stays, -⟩
    · rw [alone went acquires u other] at before
      cases before
    · exact stays

theorem heard_of_reach {state : State Thread Word Pc}
    (reached : (system variant Thread).Reach Unopposed state) : Heard state := by
  refine reached.invariant (fun u announced => ?_) fun state action after before heard allowed taken => ?_
  · cases announced
  · have represented := represented_of_unopposed before
    obtain ⟨choice, word, moved, steps, effect, rfl⟩ := next_effect taken
    refine heard.effect represented (fun went => ?_) effect
    rw [steps went] at allowed
    exact allowed.1

/-- While the bit is set, no step makes a reader. -/
theorem reads_effect {choice : Choice} {word after : Word} {pc moved : Pc}
    (pending : word &&& writePending ≠ 0) (effect : Effect choice word pc after moved)
    (reads : moved.reads = true) : pc.reads = true := by
  cases effect with
  | moves inside => exact inside.reads.symm.trans reads
  | announce _ _ _ _ _ _ reads' =>
    rw [reads'] at reads
    cases reads
  | share _ opened =>
    rw [open_iff] at opened
    rw [Ne, unannounced_iff] at pending
    omega
  | acquire | unlock | unshare => cases reads

/-- An announced writer stays so until it acquires. -/
theorem announced_stays {choice : Choice} {word after : Word} {pc moved : Pc}
    (effect : Effect choice word pc after moved) (announced : pc.announced = true) :
    moved.announced = true ∨ moved = .writer := by
  cases effect with
  | moves inside => exact Or.inl (inside.keeps announced)
  | acquire => exact Or.inr rfl
  | announce _ _ _ _ _ _ _ _ announced' => exact Or.inl announced'
  | share _ _ shares =>
    cases pc with
    | slowLoad | announceCas | drainLoad | acquireCas => cases shares
    | _ => cases announced
  | unlock here | unshare here =>
    rw [here] at announced
    cases announced

/-- **No reader overtakes an announced writer**, in runs in which no writer acquires while another one
has announced itself and waits: whatever happens next, the writer stays announced or acquires, and
nobody becomes a reader. -/
theorem sharedSpinlock_no_overtaking {state after : State Thread Word Pc}
    (reached : (system variant Thread).Reach Unopposed state) {u : Thread}
    (announced : (state.thread u).announced = true) {action : Action Thread Op Choice}
    (taken : (system variant Thread).next state action = some after) :
    ((after.thread u).announced = true ∨ after.thread u = .writer) ∧
      ∀ t, (after.thread t).reads = true → (state.thread t).reads = true := by
  have pending := heard_of_reach reached u announced
  obtain ⟨choice, word, moved, -, effect, rfl⟩ := next_effect taken
  refine ⟨?_, fun v reads => ?_⟩
  · by_cases same : u = action.mover
    · subst same
      simp only [Function.update_self]
      exact announced_stays effect announced
    · simp only [Function.update_of_ne same]
      exact Or.inl announced
  · rcases update_cases Pc.reads reads with ⟨rfl, here⟩ | ⟨-, before⟩
    · exact reads_effect pending effect here
    · exact before

/-- Thread 2 has loaded the word of the reader 0 when thread 1 announces itself: its exchange finds the bit and
fails, and thread 1 stays announced. -/
theorem sharedSpinlock_no_overtaking_single :
    ∃ state after, (system .plain (Fin 3)).Reach Unopposed state ∧
      state.thread 2 = .sharedCas true ⟨1, by decide⟩ ∧ state.memory &&& writePending ≠ 0 ∧
      (system .plain (Fin 3)).next state (.step 2 .go) = some after ∧
      (after.thread 1).announced = true ∧ (after.thread 2).reads ≠ true := by
  obtain ⟨state, reached, checked⟩ := System.exists_reach_of_run (system .plain (Fin 3)) Unopposed
    [.call 0 .lockShared, .step 0 .go, .step 0 .go, .call 2 .lockShared, .step 2 .go, .call 1 .lock,
      .step 1 .go, .step 1 .go, .step 1 .go]
    (fun state => decide ((state.thread 1).announced = true ∧
      state.thread 2 = .sharedCas true ⟨1, by decide⟩ ∧ state.memory &&& writePending ≠ 0) &&
      ((system .plain (Fin 3)).next state (.step 2 .go)).any
        fun after : State (Fin 3) Word Pc => decide (after.thread 1 ≠ .writer))
    (by decide +kernel)
  obtain ⟨found, stepped⟩ := (Bool.and_eq_true _ _).mp checked
  obtain ⟨announced, loaded, pending⟩ := of_decide_eq_true found
  obtain ⟨after, taken, waits⟩ := (Option.any_eq_true _ _).mp stepped
  obtain ⟨stays, readers⟩ := sharedSpinlock_no_overtaking reached announced taken
  refine ⟨state, after, reached, loaded, pending, taken, stays.resolve_right (of_decide_eq_true waits),
    fun reads => ?_⟩
  have before := readers 2 reads
  rw [loaded] at before
  cases before

/-- **A reader overtakes the second of two waiting writers.** Thread 1 sets the bit and thread 2 finds
it set; thread 1 acquires, which clears it, and unlocks; thread 0 is let in as a reader while thread 2
still waits for the readers to drain. -/
theorem sharedSpinlock_overtaken :
    ¬ ∀ (variant : Variant) (Thread : Type) [DecidableEq Thread] [Fintype Thread]
      (state after : State Thread Word Pc) (u : Thread) (action : Action Thread Op Choice),
        (system variant Thread).Reachable state → (state.thread u).announced = true →
          (system variant Thread).next state action = some after →
            ((after.thread u).announced = true ∨ after.thread u = .writer) ∧
              ∀ t, (after.thread t).reads = true → (state.thread t).reads = true := by
  intro never
  obtain ⟨state, reached, overtaken⟩ := System.exists_reachable_of_run (system .plain (Fin 3))
    [.call 0 .lockShared, .step 0 .go, .step 0 .go, .call 1 .lock, .step 1 .go, .step 1 .go,
      .step 1 .go, .call 2 .lock, .step 2 .go, .step 2 .go, .call 0 .unlockShared, .step 0 .go,
      .step 1 .go, .step 1 .go, .call 1 .unlock, .step 1 .go, .call 0 .lockShared, .step 0 .go]
    (fun state => (state.thread 2).announced && !(state.thread 0).reads &&
      ((system .plain (Fin 3)).next state (.step 0 .go)).any fun after => (after.thread 0).reads)
    (by decide +kernel)
  simp only [Bool.and_eq_true, Bool.not_eq_true'] at overtaken
  obtain ⟨⟨announced, outside⟩, entered⟩ := overtaken
  obtain ⟨after, taken, reads⟩ := (Option.any_eq_true _ _).mp entered
  have before := (never .plain _ _ _ 2 _ reached announced taken).2 0 reads
  rw [outside] at before
  cases before

end NovaSync.SharedSpinlock
