/-
**`ticket_mutex` as a thread program.**

`lock` takes a ticket from `next_ticket_` and waits until `serving_ticket_` reaches it; `try_lock` reads
`serving_ticket_` and takes the ticket of that number if `next_ticket_` still has it; `unlock` is a load
and a store of `serving_ticket_`. Both counters are 32-bit words and wrap.

History variables that no operation reads count without wrapping: the memory has the tickets issued, the
stores of `unlock`, and the acquisitions in their order; a thread has the number of its ticket, and a
`try_lock` the numbers it found at its load.

* `step_effect` — what a step can do, once for all results.
-/

import NovaSync.Concurrency.Threads
import NovaSync.Detail.Backoff
import NovaSync.Futex.AtomicWait

set_option linter.unusedSectionVars false

namespace NovaSync.TicketMutex

open Concurrency Detail Futex

/-! ### The program -/

/-- `uint32_t`. -/
abbrev Word := BitVec 32

/-- The policy. -/
structure Config where
  useBackoff : Bool
deriving DecidableEq, Repr

/-- `serving_ticket_`, `next_ticket_`, and the history of the run: the executed stores of `unlock`, the
tickets issued, and the tickets with which the mutex was acquired, in that order. -/
structure Memory where
  serving : Word := 0
  next : Word := 0
  served : ℕ := 0
  issued : ℕ := 0
  acquired : List ℕ := []
deriving DecidableEq, Repr

/-- `my_ticket`, and the number under which it was issued. -/
structure Ticket where
  word : Word
  number : ℕ
deriving DecidableEq, Repr

/-- The history at the load of a `try_lock`. -/
structure Mark where
  served : ℕ
  issued : ℕ
deriving DecidableEq, Repr

inductive Op
  | lock
  | tryLock
  | tryLockUntil
  | unlock
deriving DecidableEq, Repr

/-- The next atomic operation of a thread. `timed` tells `try_lock_until` from a `try_lock` of its own.

* `fetchAdd`: the `fetch_add(1)` of `lock`; `firstLoad`: the load that follows.
* `spin`: the load of the spin loop of `lock_slow_backoff`; `slowLoad`, `wait`: the load of the loop of
  `lock_slow` and its `atomic_wait_for` of 24 hours on a ticket that is not its own.
* `tryLoad`, `tryCas`: the load and the `compare_exchange_strong` of `try_lock`.
* `untilLoad`, `deadline`, `waitUntil`: the load of `serving` in `try_lock_until`, the test of the
  deadline and the `atomic_wait_until`.
* `owner`: outside all operations, the owner; `unlockLoad`, `unlockStore`, `notify`: the load, the store
  and the `atomic_notify_all` of `unlock`. -/
inductive Pc
  | idle
  | fetchAdd
  | firstLoad (ticket : Ticket)
  | spin (ticket : Ticket) (state : ExponentialBackoff)
  | slowLoad (ticket : Ticket)
  | wait (ticket : Ticket) (current : {current : Word // current ≠ ticket.word}) (point : WaitPoint)
  | tryLoad (timed : Bool)
  | tryCas (timed : Bool) (current : Word) (mark : Mark)
  | untilLoad
  | deadline (serving : Word)
  | waitUntil (serving : Word) (point : WaitPoint)
  | owner (number : ℕ)
  | unlockLoad (number : ℕ)
  | unlockStore (number : ℕ) (next : Word)
  | notify
deriving DecidableEq, Repr

/-- The loop test of the spin loop. -/
def spinLoop (ticket : Ticket) (state : ExponentialBackoff) : Pc :=
  if state.backoff < spinLimit then .spin ticket state else .slowLoad ticket

/-- The first point of `lock_slow`. -/
def lockSlow (config : Config) (ticket : Ticket) : Pc :=
  if config.useBackoff then spinLoop ticket {} else .slowLoad ticket

/-- Where `try_lock` goes when the exchange fails. -/
def tryFailed (timed : Bool) : Pc := if timed then .untilLoad else .idle

/-- `unlock` is for the owner, who does not lock again. -/
def call : Op → Pc → Option Pc
  | .lock, .idle => some .fetchAdd
  | .tryLock, .idle => some (.tryLoad false)
  | .tryLockUntil, .idle => some (.tryLoad true)
  | .unlock, .owner number => some (.unlockLoad number)
  | _, _ => none

namespace Memory

/-- The `fetch_add(1)` of `lock`. -/
def issue (memory : Memory) : Memory :=
  { memory with next := memory.next + 1, issued := memory.issued + 1 }

/-- The holder of a ticket finds it served. -/
def acquire (memory : Memory) (number : ℕ) : Memory :=
  { memory with acquired := memory.acquired ++ [number] }

/-- A successful exchange of `try_lock`. -/
def exchange (memory : Memory) (current : Word) : Memory :=
  { memory with
    next := current + 1, issued := memory.issued + 1,
    acquired := memory.acquired ++ [memory.issued] }

/-- The store of `unlock`. -/
def store (memory : Memory) (next : Word) : Memory :=
  { memory with serving := next, served := memory.served + 1 }

end Memory

/-- What a load of `serving_ticket_` that looks for `ticket` leads to. -/
def served (memory : Memory) (ticket : Ticket) (otherwise : memory.serving ≠ ticket.word → Pc) :
    Memory × Pc :=
  if turn : memory.serving = ticket.word then
    (memory.acquire ticket.number, .owner ticket.number)
  else (memory, otherwise turn)

/-- The next atomic operation. -/
def step (config : Config) (choice : Choice) (memory : Memory) : Pc → Option (Memory × Pc)
  | .fetchAdd => ordinary choice (memory.issue, .firstLoad ⟨memory.next, memory.issued⟩)
  | .firstLoad ticket => ordinary choice (served memory ticket fun _ => lockSlow config ticket)
  | .spin ticket state => ordinary choice (served memory ticket fun _ => spinLoop ticket state.run)
  | .slowLoad ticket => ordinary choice <| served memory ticket fun other =>
      .wait ticket ⟨memory.serving, other⟩ (WaitPoint.start true)
  | .wait ticket current point => (point.step true memory.serving current.1 choice).map fun
      | .inl next => (memory, .wait ticket current next)
      | .inr _ => (memory, .slowLoad ticket)
  | .tryLoad timed =>
      ordinary choice (memory, .tryCas timed memory.serving ⟨memory.served, memory.issued⟩)
  | .tryCas timed current _ => (compareExchangeStrong choice memory.next current).map fun exchanged =>
      if exchanged then (memory.exchange current, .owner memory.issued)
      else (memory, tryFailed timed)
  | .untilLoad => ordinary choice (memory, .deadline memory.serving)
  | .deadline serving =>
      match choice with
      | .go => some (memory, .waitUntil serving (WaitPoint.start true))
      | .expired => some (memory, .idle)
      | _ => none
  | .waitUntil serving point => (point.step true memory.serving serving choice).map fun
      | .inl next => (memory, .waitUntil serving next)
      | .inr _ => (memory, .tryLoad true)
  | .unlockLoad number => ordinary choice (memory, .unlockStore number (memory.serving + 1))
  | .unlockStore _ next => ordinary choice (memory.store next, .notify)
  | .idle | .owner _ | .notify => none

namespace Pc

def asleep : Pc → Bool
  | .wait _ _ point | .waitUntil _ point => point.isAsleep
  | _ => false

def woken : Pc → Pc
  | .wait ticket current point => .wait ticket current point.woken
  | .waitUntil serving point => .waitUntil serving point.woken
  | pc => pc

/-- The number of the ticket that the thread has been issued and not yet given up by its `unlock`. -/
def number? : Pc → Option ℕ
  | .firstLoad ticket | .spin ticket _ | .slowLoad ticket | .wait ticket _ _ => some ticket.number
  | .owner number | .unlockLoad number | .unlockStore number _ => some number
  | _ => none

/-- The thread holds a ticket. -/
def holds (pc : Pc) : Bool := pc.number?.isSome

/-- The thread owns the mutex. -/
def owns : Pc → Bool
  | .owner _ | .unlockLoad _ | .unlockStore _ _ => true
  | _ => false

end Pc

/-- The mutex as a thread program. -/
def program (config : Config) : Program Memory Pc Op Choice where
  idle := .idle
  call := call
  step := step config
  wake := fun
    | .notify => some (.all, .idle)
    | _ => none
  asleep := Pc.asleep
  woken := Pc.woken

/-- The mutex used by the threads of `Thread`. -/
abbrev system (config : Config) (Thread : Type*) [DecidableEq Thread] [Fintype Thread] :
    System (State Thread Memory Pc) (Action Thread Op Choice) :=
  (program config).system {}

/-! ### What a step can do -/

/-- What the word of a thread has to do with the numbers: the ticket, the store of its `unlock`, and the
value a `try_lock` has read, are the wrapped numbers. -/
def Pc.Sound (served : ℕ) : Pc → Prop
  | .firstLoad ticket | .spin ticket _ | .slowLoad ticket | .wait ticket _ _ =>
      ticket.word = BitVec.ofNat 32 ticket.number
  | .unlockStore number next => next = BitVec.ofNat 32 (number + 1)
  | .tryCas _ current mark => current = BitVec.ofNat 32 mark.served ∧ mark.served ≤ served
  | _ => True

/-- **The effects of a step.** A thread moves on with the ticket it has, or it takes a ticket, finds its
ticket served, or gives it up. -/
inductive Effect (memory : Memory) (pc : Pc) : Memory → Pc → Prop
  | moves {after : Pc} : after.number? = pc.number? → after.owns = pc.owns →
      (memory.serving = BitVec.ofNat 32 memory.served →
        (∀ n, pc.owns = true → pc.number? = some n → n = memory.served) →
        pc.Sound memory.served → after.Sound memory.served) → Effect memory pc memory after
  | issue : pc = .fetchAdd →
      Effect memory pc memory.issue (.firstLoad ⟨memory.next, memory.issued⟩)
  | acquire (ticket : Ticket) : pc.number? = some ticket.number → pc.owns = false →
      (pc.Sound memory.served → ticket.word = BitVec.ofNat 32 ticket.number) →
      memory.serving = ticket.word →
      Effect memory pc (memory.acquire ticket.number) (.owner ticket.number)
  | exchange (timed : Bool) (current : Word) (mark : Mark) : pc = .tryCas timed current mark →
      memory.next = current → Effect memory pc (memory.exchange current) (.owner memory.issued)
  | store (number : ℕ) (next : Word) : pc = .unlockStore number next →
      Effect memory pc (memory.store next) .notify

/-- A load that looks for the ticket of the thread. -/
theorem served_effect {memory after : Memory} {pc moved : Pc} {ticket : Ticket}
    {otherwise : memory.serving ≠ ticket.word → Pc} (number : pc.number? = some ticket.number)
    (waiting : pc.owns = false)
    (sound : ∀ served, pc.Sound served = (ticket.word = BitVec.ofNat 32 ticket.number))
    (goes : ∀ other, (otherwise other).number? = some ticket.number ∧
      (otherwise other).owns = false ∧ ∀ served,
        (otherwise other).Sound served = (ticket.word = BitVec.ofNat 32 ticket.number))
    (result : (after, moved) = served memory ticket otherwise) : Effect memory pc after moved := by
  unfold served at result
  split at result
  · rename_i turn
    cases result
    exact .acquire ticket number waiting (fun held => (sound _).mp held) turn
  · rename_i other
    cases result
    obtain ⟨same, still, kept⟩ := goes other
    refine .moves (same.trans number.symm) (still.trans waiting.symm) fun _ _ held => ?_
    rw [kept]
    exact (sound _).mp held

/-- **Every step has one of the effects.** -/
theorem step_effect {config : Config} {choice : Choice} {memory after : Memory} {pc moved : Pc}
    (stepped : step config choice memory pc = some (after, moved)) :
    Effect memory pc after moved := by
  cases pc with
  | idle | owner | notify => cases stepped
  | fetchAdd =>
    cases (ordinary_eq_some stepped).2
    exact .issue rfl
  | firstLoad ticket =>
    refine served_effect rfl rfl (fun _ => rfl) (fun _ => ?_) (ordinary_eq_some stepped).2
    unfold lockSlow spinLoop
    split
    · split <;> exact ⟨rfl, rfl, fun _ => rfl⟩
    · exact ⟨rfl, rfl, fun _ => rfl⟩
  | spin ticket state =>
    refine served_effect rfl rfl (fun _ => rfl) (fun _ => ?_) (ordinary_eq_some stepped).2
    unfold spinLoop
    split <;> exact ⟨rfl, rfl, fun _ => rfl⟩
  | slowLoad ticket =>
    exact served_effect rfl rfl (fun _ => rfl) (fun _ => ⟨rfl, rfl, fun _ => rfl⟩)
      (ordinary_eq_some stepped).2
  | wait ticket current point =>
    obtain ⟨next | returned, -, result⟩ := Option.map_eq_some_iff.mp stepped <;> cases result
    · exact .moves rfl rfl fun _ _ held => held
    · exact .moves rfl rfl fun _ _ held => held
  | tryLoad timed =>
    cases (ordinary_eq_some stepped).2
    exact .moves rfl rfl fun counted _ _ => ⟨counted, le_rfl⟩
  | tryCas timed current mark =>
    rcases compareExchangeStrong_cases stepped with ⟨-, same, result⟩ | ⟨-, result⟩
    · cases result
      exact .exchange timed current mark rfl same
    · cases result
      cases timed <;> exact .moves rfl rfl fun _ _ _ => trivial
  | untilLoad =>
    cases (ordinary_eq_some stepped).2
    exact .moves rfl rfl fun _ _ _ => trivial
  | deadline serving =>
    cases choice with
    | go | expired =>
      cases stepped
      exact .moves rfl rfl fun _ _ _ => trivial
    | _ => cases stepped
  | waitUntil serving point =>
    obtain ⟨next | returned, -, result⟩ := Option.map_eq_some_iff.mp stepped <;> cases result
    · exact .moves rfl rfl fun _ _ _ => trivial
    · exact .moves rfl rfl fun _ _ _ => trivial
  | unlockLoad number =>
    cases (ordinary_eq_some stepped).2
    refine .moves rfl rfl fun counted owned _ => ?_
    show memory.serving + 1 = BitVec.ofNat 32 (number + 1)
    rw [counted, owned number rfl rfl]
    exact (BitVec.ofNat_add memory.served 1).symm
  | unlockStore number next =>
    cases (ordinary_eq_some stepped).2
    exact .store number next rfl

end NovaSync.TicketMutex
