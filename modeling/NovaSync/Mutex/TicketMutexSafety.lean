/-
**`ticket_mutex`: exclusion and FIFO order across the wrap of its counters.**

* `Queued` — the tickets outstanding are exactly the numbers from the served one up to the issued one,
  each with one holder; only the first can own the mutex, and the mutex was acquired in the order of the
  tickets.
* `ticketMutex_fifo` — what the two words say about it, in every run in which fewer than `2 ^ 32` tickets
  lie between the one that a `try_lock` reads as served and the one its exchange finds (`Recent`).
* `ticketMutex_stale_try_lock` — counting only the tickets issued after the load is not enough.
-/

import NovaSync.Mutex.TicketMutex
import Mathlib.Order.Interval.Finset.Nat

set_option linter.unusedSectionVars false

namespace NovaSync.TicketMutex

open Concurrency Detail Futex

variable {config : Config} {Thread : Type*} [DecidableEq Thread] [Fintype Thread]

/-! ### The queue -/

/-- The threads that have been issued a ticket and have not yet unlocked. -/
def outstanding (state : State Thread Memory Pc) : ℕ := count Pc.holds state.thread

/-- The threads that own the mutex. -/
def owners (state : State Thread Memory Pc) : ℕ := count Pc.owns state.thread

/-- **The queue of tickets.** -/
structure Queued (state : State Thread Memory Pc) : Prop where
  serving : state.memory.serving = BitVec.ofNat 32 state.memory.served
  next : state.memory.next = BitVec.ofNat 32 state.memory.issued
  order : state.memory.served ≤ state.memory.issued
  window : ∀ t n, (state.thread t).number? = some n →
    state.memory.served ≤ n ∧ n < state.memory.issued
  unique : ∀ t u n, (state.thread t).number? = some n → (state.thread u).number? = some n → t = u
  held : ∀ n, state.memory.served ≤ n → n < state.memory.issued →
    ∃ t, (state.thread t).number? = some n
  turn : ∀ t n, (state.thread t).owns = true → (state.thread t).number? = some n →
    n = state.memory.served
  sound : ∀ t, (state.thread t).Sound state.memory.served
  acquired : state.memory.acquired = List.range (state.memory.served + owners state)

theorem number_of_owns {pc : Pc} (owns : pc.owns = true) : ∃ n, pc.number? = some n := by
  cases pc with
  | owner n | unlockLoad n | unlockStore n => exact ⟨n, rfl⟩
  | _ => cases owns

/-- As many tickets are outstanding as were issued and not served. -/
theorem Queued.outstanding_eq {state : State Thread Memory Pc} (queued : Queued state) :
    outstanding state = state.memory.issued - state.memory.served := by
  have least : (Finset.Ico state.memory.served state.memory.issued).card ≤ outstanding state := by
    refine card_labels_le_count Pc.number? fun n inside => ?_
    obtain ⟨low, high⟩ := Finset.mem_Ico.mp inside
    obtain ⟨t, number⟩ := queued.held n low high
    exact ⟨t, by rw [Pc.holds, number]; rfl, number⟩
  have most : outstanding state ≤ (Finset.Ico state.memory.served state.memory.issued).card := by
    refine count_le_card_labels Pc.number? (fun t holds => ?_) queued.unique
    obtain ⟨n, number⟩ := Option.isSome_iff_exists.mp holds
    exact ⟨n, Finset.mem_Ico.mpr (queued.window t n number), number⟩
  rw [Nat.card_Ico] at least most
  omega

/-- Two numbers less than `2 ^ 32` apart are one if their words are. -/
theorem eq_of_ofNat_eq {low high : ℕ} (order : low ≤ high) (near : high < low + 2 ^ 32)
    (same : BitVec.ofNat 32 low = BitVec.ofNat 32 high) : low = high := by
  have wrapped := congrArg BitVec.toNat same
  rw [BitVec.toNat_ofNat, BitVec.toNat_ofNat] at wrapped
  omega

/-- A thread that moves on with its ticket, or a wake, leaves the queue as it is. -/
theorem Queued.frame {state : State Thread Memory Pc} (queued : Queued state) {thread : Thread → Pc}
    (number : ∀ u, (thread u).number? = (state.thread u).number?)
    (owns : ∀ u, (thread u).owns = (state.thread u).owns)
    (sound : ∀ u, (thread u).Sound state.memory.served) : Queued ⟨state.memory, thread⟩ where
  serving := queued.serving
  next := queued.next
  order := queued.order
  window t n here := queued.window t n ((number t).symm.trans here)
  unique t u n here there :=
    queued.unique t u n ((number t).symm.trans here) ((number u).symm.trans there)
  held n low high := by
    obtain ⟨t, here⟩ := queued.held n low high
    exact ⟨t, (number t).trans here⟩
  turn t n owned here := queued.turn t n ((owns t).symm.trans owned) ((number t).symm.trans here)
  sound := sound
  acquired := by
    rw [show owners ⟨state.memory, thread⟩ = owners state from count_congr owns]
    exact queued.acquired

theorem sound_update {thread : Thread → Pc} {t : Thread} {moved : Pc} {served : ℕ}
    (here : moved.Sound served) (others : ∀ u, (thread u).Sound served) :
    ∀ u, (Function.update thread t moved u).Sound served :=
  (Function.forall_update_iff thread fun _ pc => pc.Sound served).mpr ⟨here, fun u _ => others u⟩

theorem Pc.Sound.mono {pc : Pc} {served : ℕ} (sound : pc.Sound served) : pc.Sound (served + 1) := by
  cases pc with
  | tryCas timed current mark => exact ⟨sound.1, Nat.le_succ_of_le sound.2⟩
  | _ => exact sound

/-- `lock` takes the next ticket. -/
theorem Queued.issue {state : State Thread Memory Pc} (queued : Queued state) {t : Thread}
    (here : state.thread t = .fetchAdd) :
    Queued ⟨state.memory.issue, Function.update state.thread t
      (.firstLoad ⟨state.memory.next, state.memory.issued⟩)⟩ where
  serving := queued.serving
  next := by
    simp only [Memory.issue]
    rw [queued.next]
    exact (BitVec.ofNat_add state.memory.issued 1).symm
  order := Nat.le_succ_of_le queued.order
  window u n number := by
    simp only [Memory.issue]
    rcases update_cases Pc.number? number with ⟨-, same⟩ | ⟨-, before⟩
    · cases same
      exact ⟨queued.order, Nat.lt_succ_self _⟩
    · obtain ⟨low, high⟩ := queued.window u n before
      exact ⟨low, Nat.lt_succ_of_lt high⟩
  unique u v n first second := by
    rcases update_cases Pc.number? first with ⟨rfl, same⟩ | ⟨-, before⟩ <;>
      rcases update_cases Pc.number? second with ⟨rfl, same'⟩ | ⟨-, before'⟩
    · rfl
    · cases same
      exact absurd (queued.window v _ before').2 (lt_irrefl _)
    · cases same'
      exact absurd (queued.window u _ before).2 (lt_irrefl _)
    · exact queued.unique u v n before before'
  held n low high := by
    simp only [Memory.issue] at low high ⊢
    by_cases last : n = state.memory.issued
    · exact ⟨t, by rw [Function.update_self, last]; rfl⟩
    · obtain ⟨u, before⟩ := queued.held n low (by omega)
      have other : u ≠ t := by
        rintro rfl
        rw [here] at before
        cases before
      exact ⟨u, by rw [Function.update_of_ne other]; exact before⟩
  turn u n owned number := by
    rcases update_cases Pc.owns owned with ⟨-, impossible⟩ | ⟨other, before⟩
    · cases impossible
    · rcases update_cases Pc.number? number with ⟨same, -⟩ | ⟨-, numbered⟩
      · exact absurd same other
      · exact queued.turn u n before numbered
  sound := sound_update queued.next queued.sound
  acquired := by
    have same : owners ⟨state.memory.issue, Function.update state.thread t
        (.firstLoad ⟨state.memory.next, state.memory.issued⟩)⟩ = owners state :=
      count_update_same (by rw [here]; rfl)
    rw [same]
    exact queued.acquired

/-- The holder of the served ticket finds the mutex free. -/
theorem Queued.owners_eq_zero {state : State Thread Memory Pc} (queued : Queued state)
    (free : ∀ u, (state.thread u).number? = some state.memory.served → (state.thread u).owns = false) :
    owners state = 0 := by
  by_contra owned
  obtain ⟨u, owns⟩ := exists_of_count_pos (Nat.pos_of_ne_zero owned)
  obtain ⟨n, number⟩ := number_of_owns owns
  rw [queued.turn u n owns number] at number
  rw [free u number] at owns
  cases owns

/-- `lock` finds its ticket served. -/
theorem Queued.acquire {state : State Thread Memory Pc} (queued : Queued state)
    (few : Fintype.card Thread < 2 ^ 32) {t : Thread} {ticket : Ticket}
    (number : (state.thread t).number? = some ticket.number)
    (waiting : (state.thread t).owns = false)
    (word : ticket.word = BitVec.ofNat 32 ticket.number)
    (turn : state.memory.serving = ticket.word) :
    Queued ⟨state.memory.acquire ticket.number,
      Function.update state.thread t (.owner ticket.number)⟩ := by
  obtain ⟨low, high⟩ := queued.window t ticket.number number
  have near : ticket.number < state.memory.served + 2 ^ 32 := by
    have bound : outstanding state ≤ Fintype.card Thread := count_le_card Pc.holds state.thread
    rw [queued.outstanding_eq] at bound
    omega
  have first : ticket.number = state.memory.served :=
    (eq_of_ofNat_eq low near (by rw [← queued.serving, turn, word])).symm
  have free : owners state = 0 := queued.owners_eq_zero fun u same => by
    rw [queued.unique u t _ same (first ▸ number), waiting]
  have kept : ∀ u, (Function.update state.thread t (.owner ticket.number) u).number? =
      (state.thread u).number? := apply_update number.symm
  refine ⟨queued.serving, queued.next, queued.order, fun u n here => queued.window u n (kept u ▸ here),
    fun u v n here there => queued.unique u v n (kept u ▸ here) (kept v ▸ there),
    fun n low high => ?_, fun u n owned here => ?_, sound_update trivial queued.sound, ?_⟩
  · obtain ⟨u, here⟩ := queued.held n low high
    exact ⟨u, (kept u).trans here⟩
  · rcases update_cases Pc.owns owned with ⟨rfl, -⟩ | ⟨-, before⟩
    · rw [kept u, number] at here
      cases here
      exact first
    · exact queued.turn u n before (kept u ▸ here)
  · have entered : owners ⟨state.memory.acquire ticket.number,
        Function.update state.thread t (.owner ticket.number)⟩ = owners state + 1 :=
      count_update_enter waiting rfl
    rw [entered, free]
    simp only [Memory.acquire]
    rw [queued.acquired, free, first, List.range_succ]
    rfl

/-- `try_lock` takes the ticket it has read, when no ticket is outstanding. -/
theorem Queued.exchange {state : State Thread Memory Pc} (queued : Queued state) {t : Thread}
    {timed : Bool} {current : Word} {mark : Mark} (here : state.thread t = .tryCas timed current mark)
    (recent : state.memory.issued < mark.served + 2 ^ 32) (same : state.memory.next = current) :
    state.memory.issued = state.memory.served ∧
      Queued ⟨state.memory.exchange current,
        Function.update state.thread t (.owner state.memory.issued)⟩ := by
  have sound := queued.sound t
  rw [here] at sound
  obtain ⟨read, past⟩ := sound
  have order := queued.order
  have empty : state.memory.issued = state.memory.served := by
    have : mark.served = state.memory.issued :=
      eq_of_ofNat_eq (by omega) recent (by rw [← read, ← same, queued.next])
    omega
  have nobody : ∀ u n, (state.thread u).number? ≠ some n := by
    intro u n number
    have := queued.window u n number
    omega
  have free : owners state = 0 := queued.owners_eq_zero fun u number => absurd number (nobody u _)
  refine ⟨empty, queued.serving, ?_, Nat.le_succ_of_le order, fun u n number => ?_,
    fun u v n first second => ?_, fun n low high => ⟨t, ?_⟩, fun u n _ number => ?_,
    sound_update trivial queued.sound, ?_⟩
  · simp only [Memory.exchange]
    rw [← same, queued.next]
    exact (BitVec.ofNat_add state.memory.issued 1).symm
  · rcases update_cases Pc.number? number with ⟨-, own⟩ | ⟨-, before⟩
    · cases own
      exact ⟨order, Nat.lt_succ_self _⟩
    · exact absurd before (nobody u n)
  · rcases update_cases Pc.number? first with ⟨rfl, -⟩ | ⟨-, before⟩
    · rcases update_cases Pc.number? second with ⟨rfl, -⟩ | ⟨-, before⟩
      · rfl
      · exact absurd before (nobody v n)
    · exact absurd before (nobody u n)
  · simp only [Memory.exchange] at low high ⊢
    rw [Function.update_self]
    exact congrArg some (by omega)
  · rcases update_cases Pc.number? number with ⟨-, own⟩ | ⟨-, before⟩
    · cases own
      exact empty
    · exact absurd before (nobody u n)
  · have entered : owners ⟨state.memory.exchange current,
        Function.update state.thread t (.owner state.memory.issued)⟩ = owners state + 1 :=
      count_update_enter (by rw [here]; rfl) rfl
    rw [entered, free]
    simp only [Memory.exchange]
    rw [queued.acquired, free, empty, List.range_succ]
    rfl

/-- `unlock` serves the next ticket. -/
theorem Queued.store {state : State Thread Memory Pc} (queued : Queued state) {t : Thread}
    {number : ℕ} {next : Word} (here : state.thread t = .unlockStore number next) :
    Queued ⟨state.memory.store next, Function.update state.thread t .notify⟩ := by
  have own : (state.thread t).number? = some number := by
    rw [here]
    rfl
  have owns : (state.thread t).owns = true := by
    rw [here]
    rfl
  have first : number = state.memory.served := queued.turn t number owns own
  have sound : next = BitVec.ofNat 32 (number + 1) := by
    have := queued.sound t
    rw [here] at this
    exact this
  have others : ∀ u n, u ≠ t → (state.thread u).number? = some n → n ≠ state.memory.served := by
    rintro u n other before rfl
    exact other (queued.unique u t _ before (first ▸ own))
  refine ⟨?_, queued.next, ?_, fun u n after => ?_, fun u v n after after' => ?_,
    fun n low high => ?_, fun u n owned after => ?_, ?_, ?_⟩
  · simp only [Memory.store]
    rw [sound, first]
  · have := (queued.window t number own).2
    simp only [Memory.store]
    omega
  · rcases update_cases Pc.number? after with ⟨-, impossible⟩ | ⟨other, before⟩
    · cases impossible
    · have window := queued.window u n before
      have differs := others u n other before
      simp only [Memory.store]
      omega
  · rcases update_cases Pc.number? after with ⟨-, impossible⟩ | ⟨-, before⟩
    · cases impossible
    · rcases update_cases Pc.number? after' with ⟨-, impossible⟩ | ⟨-, before'⟩
      · cases impossible
      · exact queued.unique u v n before before'
  · simp only [Memory.store] at low high ⊢
    obtain ⟨u, before⟩ := queued.held n (by omega) high
    have other : u ≠ t := by
      rintro rfl
      rw [own] at before
      cases before
      omega
    exact ⟨u, by rw [Function.update_of_ne other]; exact before⟩
  · rcases update_cases Pc.owns owned with ⟨-, impossible⟩ | ⟨other, before⟩
    · cases impossible
    · rcases update_cases Pc.number? after with ⟨same, -⟩ | ⟨-, numbered⟩
      · exact absurd same other
      · exact absurd (queued.turn u n before numbered) (others u n other numbered)
  · exact sound_update trivial fun u => (queued.sound u).mono
  · have left : owners ⟨state.memory.store next, Function.update state.thread t .notify⟩ + 1 =
        owners state := count_update_leave owns rfl
    refine queued.acquired.trans (congrArg List.range ?_)
    show state.memory.served + owners state = state.memory.served + 1 + _
    omega

/-! ### Exclusion and order -/

/-- The history that a `try_lock` found at its load, before its exchange. -/
def Pc.mark? : Pc → Option Mark
  | .tryCas _ _ mark => some mark
  | _ => none

/-- The exchange of a `try_lock` finds fewer than `2 ^ 32` tickets issued since the one that its load
found served. -/
def Recent : State Thread Memory Pc → Action Thread Op Choice → Prop :=
  OnStep fun state t => ∀ mark ∈ (state.thread t).mark?, state.memory.issued < mark.served + 2 ^ 32

instance (state : State Thread Memory Pc) : DecidablePred (Recent state) :=
  inferInstanceAs (DecidablePred (OnStep _ state))

theorem Queued.effect {state : State Thread Memory Pc} (queued : Queued state)
    (few : Fintype.card Thread < 2 ^ 32) {t : Thread} {memory : Memory} {moved : Pc}
    (recent : ∀ mark ∈ (state.thread t).mark?, state.memory.issued < mark.served + 2 ^ 32)
    (effect : Effect state.memory (state.thread t) memory moved) :
    Queued ⟨memory, Function.update state.thread t moved⟩ := by
  cases effect with
  | moves number owns sound =>
    refine queued.frame (apply_update number) (apply_update owns) (sound_update ?_ queued.sound)
    exact sound queued.serving (fun n owned here => queued.turn t n owned here) (queued.sound t)
  | issue here => exact queued.issue here
  | acquire ticket number waiting sound turn =>
    exact queued.acquire few number waiting (sound (queued.sound t)) turn
  | exchange timed current mark here same =>
    rw [here] at recent
    exact (queued.exchange here (recent mark rfl) same).2
  | store number next here => exact queued.store here

theorem call_moves {op : Op} {pc moved : Pc} (called : call op pc = some moved) :
    moved.number? = pc.number? ∧ moved.owns = pc.owns ∧ ∀ served, moved.Sound served := by
  cases pc with
  | idle =>
    cases op with
    | unlock => cases called
    | _ =>
      cases called
      exact ⟨rfl, rfl, fun _ => trivial⟩
  | owner number =>
    cases op with
    | unlock =>
      cases called
      exact ⟨rfl, rfl, fun _ => trivial⟩
    | _ => cases called
  | _ => cases op <;> cases called

theorem wake_notify {pc moved : Pc} {kind : WakeCount}
    (issued : (program config).wake pc = some (kind, moved)) : pc = .notify ∧ moved = .idle := by
  cases pc with
  | notify =>
    cases issued
    exact ⟨rfl, rfl⟩
  | _ => cases issued

theorem number_woken (pc : Pc) : pc.woken.number? = pc.number? := by
  cases pc <;> rfl

theorem owns_woken (pc : Pc) : pc.woken.owns = pc.owns := by
  cases pc <;> rfl

theorem sound_woken (served : ℕ) (pc : Pc) : pc.woken.Sound served = pc.Sound served := by
  cases pc <;> rfl

theorem queued_of_reach (few : Fintype.card Thread < 2 ^ 32) {state : State Thread Memory Pc}
    (reached : (system config Thread).Reach Recent state) : Queued state := by
  refine reached.invariant ?_ fun state action after _ queued recent taken => ?_
  · have none : owners (system config Thread).start = 0 := count_const rfl
    refine ⟨rfl, rfl, le_rfl, nofun, nofun, fun n low high => absurd high (not_lt.mpr low), nofun,
      fun _ => trivial, ?_⟩
    rw [none]
    rfl
  · rcases Program.next_cases taken with ⟨t, op, moved, -, called, rfl⟩ |
      ⟨t, choice, memory, moved, rfl, stepped, rfl⟩ |
      ⟨t, target, kind, moved, others, -, issued, woken, rfl, -⟩
    · obtain ⟨number, owns, sound⟩ := call_moves called
      exact queued.frame (apply_update number) (apply_update owns)
        (sound_update (sound _) queued.sound)
    · exact queued.effect few recent (step_effect stepped)
    · obtain ⟨here, rfl⟩ := wake_notify issued
      refine queued.frame (woken.apply_update_eq (fun pc _ => number_woken pc) (by rw [here]; rfl))
        (woken.apply_update_eq (fun pc _ => owns_woken pc) (by rw [here]; rfl))
        (sound_update trivial fun u => ?_)
      have same := woken.apply_eq (fun pc _ => sound_woken state.memory.served pc) u
      exact same.mpr (queued.sound u)

/-- **`ticket_mutex` is exclusive and FIFO, however often its counters wrap.** With fewer than `2 ^ 32`
threads, and fewer than `2 ^ 32` tickets between the one that a `try_lock` reads as served and the one
its exchange finds: the difference of the counters is the number of tickets outstanding, one thread at
most owns the mutex, it was acquired in the order in which the tickets were issued, and a `try_lock`
succeeds only when no ticket is outstanding. -/
theorem ticketMutex_fifo (few : Fintype.card Thread < 2 ^ 32) {state : State Thread Memory Pc}
    (reached : (system config Thread).Reach Recent state) :
    (state.memory.next - state.memory.serving).toNat = outstanding state ∧
    (∀ t u, (state.thread t).owns = true → (state.thread u).owns = true → t = u) ∧
    state.memory.acquired = List.range state.memory.acquired.length ∧
    ∀ t timed current mark choice after, state.thread t = .tryCas timed current mark →
      Recent state (.step t choice) →
      (system config Thread).next state (.step t choice) = some after →
      (after.thread t).owns = true → outstanding state = 0 := by
  have queued := queued_of_reach few reached
  have total := queued.outstanding_eq
  have bound : outstanding state ≤ Fintype.card Thread := count_le_card Pc.holds state.thread
  refine ⟨?_, fun t u owns owns' => ?_, ?_,
    fun t timed current mark choice after here recent taken owned => ?_⟩
  · have order := queued.order
    rw [queued.next, queued.serving, total, BitVec.toNat_sub, BitVec.toNat_ofNat, BitVec.toNat_ofNat]
    omega
  · obtain ⟨n, number⟩ := number_of_owns owns
    obtain ⟨m, number'⟩ := number_of_owns owns'
    rw [queued.turn t n owns number] at number
    rw [queued.turn u m owns' number'] at number'
    exact queued.unique t u _ number number'
  · rw [queued.acquired, List.length_range]
  · obtain ⟨⟨memory, moved⟩, stepped, rfl⟩ := Option.map_eq_some_iff.mp taken
    rw [here] at stepped
    simp only [Recent, OnStep, here] at recent
    rcases compareExchangeStrong_cases stepped with ⟨-, same, -⟩ | ⟨-, result⟩
    · have empty := (queued.exchange here (recent mark rfl) same).1
      omega
    · cases result
      simp only [Function.update_self] at owned
      cases timed <;> cases owned

/-- Thread 1 queues behind thread 0 and gets the mutex after it. -/
theorem ticketMutex_fifo_two_threads :
    ∃ state, (system ⟨true⟩ (Fin 2)).Reach Recent state ∧ state.memory.acquired = [0, 1] ∧
      (state.memory.next - state.memory.serving).toNat = outstanding state := by
  obtain ⟨state, reached, acquired⟩ := System.exists_reach_of_run (system ⟨true⟩ (Fin 2)) Recent
    [.call 0 .lock, .step 0 .go, .call 1 .lock, .step 1 .go, .step 1 .go, .step 0 .go,
      .call 0 .unlock, .step 0 .go, .step 0 .go, .wake 0 none, .step 1 .go]
    (fun state => decide (state.memory.acquired = [0, 1])) (by decide +kernel)
  exact ⟨state, reached, of_decide_eq_true acquired, (ticketMutex_fifo (by decide) reached).1⟩

/-! ### A stale `try_lock` -/

section Stale

/-- Fewer than `2 ^ 32` tickets are issued between the load and the exchange of a `try_lock`. -/
def Brief : State Thread Memory Pc → Action Thread Op Choice → Prop :=
  OnStep fun state t => ∀ mark ∈ (state.thread t).mark?, state.memory.issued < mark.issued + 2 ^ 32

instance (state : State Thread Memory Pc) : DecidablePred (Brief state) :=
  inferInstanceAs (DecidablePred (OnStep _ state))

/-- Thread 0 is somewhere; thread 1 has read `serving_ticket_` when ticket 0 was served and 1 was the
next one. -/
def contended (memory : Memory) (pc : Pc) : State (Fin 2) Memory Pc where
  memory := memory
  thread := Function.update (fun _ => .tryCas false 0 ⟨0, 1⟩) 0 pc

/-- Thread 0 has its ticket `n` served. -/
def cycled (n : ℕ) (acquired : List ℕ) : Memory where
  serving := BitVec.ofNat 32 n
  next := BitVec.ofNat 32 (n + 1)
  served := n
  issued := n + 1
  acquired := acquired

/-- A step of thread 0 that is not an exchange of `try_lock`. -/
theorem contended_step {memory after : Memory} {pc moved : Pc} (plain : pc.mark? = none)
    (reached : (system ⟨false⟩ (Fin 2)).Reach Brief (contended memory pc))
    (stepped : step ⟨false⟩ .go memory pc = some (after, moved)) :
    (system ⟨false⟩ (Fin 2)).Reach Brief (contended after moved) := by
  have taken : (system ⟨false⟩ (Fin 2)).next (contended memory pc) (.step 0 .go) =
      some (contended after moved) := Program.next_step stepped
  refine reached.step ?_ taken
  intro mark member
  have place : (contended memory pc).thread 0 = pc := rfl
  rw [place, plain] at member
  cases member

theorem contended_call {memory : Memory} {pc : Pc} (op : Op) (moved : Pc)
    (reached : (system ⟨false⟩ (Fin 2)).Reach Brief (contended memory pc))
    (called : call op pc = some moved) :
    (system ⟨false⟩ (Fin 2)).Reach Brief (contended memory moved) := by
  have taken : (system ⟨false⟩ (Fin 2)).next (contended memory pc) (.call 0 op) =
      some (contended memory moved) := Program.next_call called
  refine reached.step ?_ taken
  exact trivial

theorem contended_wake {memory : Memory}
    (reached : (system ⟨false⟩ (Fin 2)).Reach Brief (contended memory .notify)) :
    (system ⟨false⟩ (Fin 2)).Reach Brief (contended memory .idle) := by
  have taken : (system ⟨false⟩ (Fin 2)).next (contended memory .notify) (.wake 0 none) =
      some (contended memory .idle) := by
    have issued : (program ⟨false⟩).wake .notify = some (.all, .idle) := rfl
    have awake : ∀ u, (program ⟨false⟩).asleep ((contended memory .notify).thread u) = false
      | 0 => rfl
      | 1 => rfl
    exact Program.next_wake_all issued awake
  refine reached.step ?_ taken
  exact trivial

/-- The exchange of thread 1. -/
theorem contended_exchange {memory after : Memory} {pc moved : Pc}
    (reached : (system ⟨false⟩ (Fin 2)).Reach Brief (contended memory pc))
    (stepped : step ⟨false⟩ .go memory (.tryCas false 0 ⟨0, 1⟩) = some (after, moved))
    (brief : memory.issued < 1 + 2 ^ 32) :
    (system ⟨false⟩ (Fin 2)).Reach Brief
      ⟨after, Function.update (contended memory pc).thread 1 moved⟩ := by
  have exchanged : (program ⟨false⟩).step .go (contended memory pc).memory
      ((contended memory pc).thread 1) = some (after, moved) := stepped
  have taken : (system ⟨false⟩ (Fin 2)).next (contended memory pc) (.step 1 .go) =
      some ⟨after, Function.update (contended memory pc).thread 1 moved⟩ :=
    Program.next_step_eq exchanged
  refine reached.step ?_ taken
  intro mark member
  cases member
  exact brief

/-- Thread 0 unlocks and locks again. -/
theorem cycled_grows {n : ℕ} {acquired : List ℕ}
    (reached : (system ⟨false⟩ (Fin 2)).Reach Brief (contended (cycled n acquired) (.owner n))) :
    (system ⟨false⟩ (Fin 2)).Reach Brief
      (contended (cycled (n + 1) (acquired ++ [n + 1])) (.owner (n + 1))) := by
  have ticket : BitVec.ofNat 32 (n + 1) = BitVec.ofNat 32 n + 1 := BitVec.ofNat_add n 1
  have unlocking := contended_call .unlock (.unlockLoad n) reached rfl
  have loaded := contended_step rfl unlocking rfl
  have stored := contended_step rfl loaded rfl
  have locking := contended_call .lock .fetchAdd (contended_wake stored) rfl
  have issued := contended_step rfl locking rfl
  have served : step ⟨false⟩ .go ((cycled n acquired).store (BitVec.ofNat 32 n + 1)).issue
      (.firstLoad ⟨BitVec.ofNat 32 (n + 1), n + 1⟩) =
      some (((cycled n acquired).store (BitVec.ofNat 32 n + 1)).issue.acquire (n + 1),
        .owner (n + 1)) := congrArg some (dif_pos ticket.symm)
  have same : ((cycled n acquired).store (BitVec.ofNat 32 n + 1)).issue.acquire (n + 1) =
      cycled (n + 1) (acquired ++ [n + 1]) := by
    have following : BitVec.ofNat 32 (n + 1) + 1 = BitVec.ofNat 32 (n + 1 + 1) :=
      (BitVec.ofNat_add (n + 1) 1).symm
    simp only [Memory.acquire, Memory.issue, Memory.store, cycled, ← ticket, following]
  rw [← same]
  exact contended_step rfl issued served

theorem cycled_reach (n : ℕ) : ∃ acquired,
    (system ⟨false⟩ (Fin 2)).Reach Brief (contended (cycled n acquired) (.owner n)) := by
  induction n with
  | zero =>
    have computed : ((system ⟨false⟩ (Fin 2)).restrict Brief).run (system ⟨false⟩ (Fin 2)).start
        [.call 0 .lock, .step 0 .go, .step 0 .go, .call 1 .tryLock, .step 1 .go] =
        some (contended (cycled 0 [0]) (.owner 0)) := by
      refine congrArg some (State.ext rfl (funext fun u => ?_))
      match u with
      | 0 => rfl
      | 1 => rfl
    exact ⟨[0], System.reach_of_restrict (System.reach_of_run .start computed)⟩
  | succ n ih =>
    obtain ⟨acquired, reached⟩ := ih
    exact ⟨acquired ++ [n + 1], cycled_grows reached⟩

/-- **A stale `try_lock`.** Thread 1 reads ticket 0 as served while thread 0 holds it; thread 0 unlocks
and locks again `2 ^ 32 - 1` times, which brings `next_ticket_` back to 0, and the exchange of thread 1
succeeds while thread 0 owns the mutex. -/
theorem ticketMutex_stale_try_lock :
    ∃ state, (system ⟨false⟩ (Fin 2)).Reach Brief state ∧
      ¬ ∀ t u, (state.thread t).owns = true → (state.thread u).owns = true → t = u := by
  obtain ⟨n, last⟩ : ∃ n, n + 1 = 2 ^ 32 := ⟨2 ^ 32 - 1, rfl⟩
  obtain ⟨acquired, reached⟩ := cycled_reach n
  have wrapped : (cycled n acquired).next = 0 := by
    show BitVec.ofNat 32 (n + 1) = 0
    rw [last]
    rfl
  have exchanged : step ⟨false⟩ .go (cycled n acquired) (.tryCas false 0 ⟨0, 1⟩) =
      some ((cycled n acquired).exchange 0, .owner (n + 1)) := by
    simp only [step, wrapped, compareExchangeStrong, ordinary]
    rfl
  have brief : (cycled n acquired).issued < 1 + 2 ^ 32 := by
    show n + 1 < 1 + 2 ^ 32
    omega
  refine ⟨_, contended_exchange reached exchanged brief, fun exclusive => ?_⟩
  exact absurd (exclusive 0 1 rfl rfl) (by decide)

end Stale

end NovaSync.TicketMutex
