/-
**`native_auto_reset_event` on Apple as a thread program.**

`token_count_` holds the tokens, `wait_count_` counts the threads inside the waiting part of `wait` and
`try_wait_for`, and the user event of a kqueue wakes one of them. `signal` triggers it for the first token
only; a waiter that has taken a token triggers it again if it sees more tokens and other waiters, by two
separate loads.

A history flag of the chain-wakeup check says whether its thread has been through `kevent`.

* `Attended` — while there are tokens and somebody is blocked, the next wakeup is on its way (`Served`).
* `nativeAutoResetEvent_no_lost_wakeup` — for at most `2 ^ 32` threads;
  `nativeAutoResetEvent_wakeup_lost` is the wrapped `wait_count_`.
-/

import NovaSync.Concurrency.Threads
import NovaSync.Detail.Kevent

set_option linter.unusedSectionVars false

namespace NovaSync.NativeAutoResetEventKqueue

open Concurrency Detail

/-! ### The program -/

/-- `token_count_`, `wait_count_` and the kqueue. -/
structure Memory where
  token : ℤ := 0
  waitCount : BitVec 32 := 0
  queue : Kqueue := {}
deriving DecidableEq, Repr

inductive Op
  | signal
  | tryWait
  | wait
  | tryWaitFor (positive : Bool)
deriving DecidableEq, Repr

/-- Who calls `try_wait`. `timed` tells `try_wait_for` from `wait`: its fast path, its attempt before
it sleeps, and the one after its wait. -/
inductive Caller
  | alone
  | fast (timed : Bool)
  | before (timed : Bool)
  | after (timed : Bool)
deriving DecidableEq, Repr

/-- The next atomic operation or system call of a thread.

* `signalLoad`, `signalCas`, `signalAdd`, `trigger`: `signal`.
* `tryLoad`, `tryCas`: the load and the `compare_exchange_weak` of `try_wait`.
* `register`, `leave`: the `fetch_add` and the `fetch_sub` of `wait_count_`.
* `kevent`, `keventFor`: the waits of `wait` and of `try_wait_for`.
* `chainToken`, `chainCount`, `chainTrigger`: the two loads of the chain-wakeup check and its trigger. -/
inductive Pc
  | idle
  | signalLoad
  | signalCas
  | signalAdd
  | trigger
  | tryLoad (caller : Caller)
  | tryCas (caller : Caller) (s : {s : ℤ // 0 < s})
  | register (timed : Bool)
  | kevent
  | keventFor (point : KeventFor)
  | chainToken (woken : Bool)
  | chainCount (woken : Bool)
  | chainTrigger
  | leave
deriving DecidableEq, Repr

/-- Where a successful `try_wait` goes on. -/
def taken : Caller → Pc
  | .alone | .fast _ => .idle
  | .before _ => .chainToken false
  | .after _ => .chainToken true

/-- Where a failed `try_wait` goes on: `wait` tries again, `try_wait_for` gives up. -/
def missed : Caller → Pc
  | .alone => .idle
  | .fast timed => .register timed
  | .before false => .kevent
  | .before true => .keventFor .wait
  | .after false => .tryLoad (.before false)
  | .after true => .leave

/-- The loop test of `try_wait`. -/
def tryLoop (caller : Caller) (s : ℤ) : Pc :=
  if some : 0 < s then .tryCas caller ⟨s, some⟩ else missed caller

def call : Op → Pc → Option Pc
  | .signal, .idle => some .signalLoad
  | .tryWait, .idle => some (.tryLoad .alone)
  | .wait, .idle => some (.tryLoad (.fast false))
  | .tryWaitFor positive, .idle => some (.tryLoad (if positive then .fast true else .alone))
  | _, _ => none

/-- `NOTE_TRIGGER`. -/
def Memory.trigger (memory : Memory) : Memory := { memory with queue := memory.queue.trigger }

/-- The next atomic operation, or a trigger. -/
def atomicStep (choice : Choice) (memory : Memory) : Pc → Option (Memory × Pc)
  | .signalLoad =>
      ordinary choice (memory, if memory.waitCount = 0 then .signalCas else .signalAdd)
  | .signalCas => (compareExchangeStrong choice memory.token 0).map fun exchanged =>
      if exchanged then ({ memory with token := 1 }, .trigger) else (memory, .idle)
  | .signalAdd => ordinary choice ({ memory with token := int32 (memory.token + 1) },
      if memory.token = 0 then .trigger else .idle)
  | .trigger => ordinary choice (memory.trigger, .idle)
  | .tryLoad caller => ordinary choice (memory, tryLoop caller memory.token)
  | .tryCas caller s => (compareExchangeWeak choice memory.token s.1).map fun exchanged =>
      if exchanged then ({ memory with token := s.1 - 1 }, taken caller)
      else (memory, tryLoop caller memory.token)
  | .register timed => ordinary choice ({ memory with waitCount := memory.waitCount + 1 },
      .tryLoad (.before timed))
  | .chainToken woken =>
      ordinary choice (memory, if memory.token > 0 then .chainCount woken else .leave)
  | .chainCount _ =>
      ordinary choice (memory, if memory.waitCount > 1 then .chainTrigger else .leave)
  | .chainTrigger => ordinary choice (memory.trigger, .leave)
  | .leave => ordinary choice ({ memory with waitCount := memory.waitCount - 1 }, .idle)
  | .idle | .kevent | .keventFor _ => none

/-- The next step. `wait` ignores what its `kevent` returns. -/
def step (choice : Choice ⊕ Kevent) (memory : Memory) : Pc → Option (Memory × Pc)
  | .kevent => choice.getRight?.bind fun outcome => (memory.queue.kevent false outcome).map fun queue =>
      ({ memory with queue := queue }, .tryLoad (.after false))
  | .keventFor point => (point.step choice memory.queue).map fun
      | (queue, .inl next) => ({ memory with queue := queue }, .keventFor next)
      | (queue, .inr true) => ({ memory with queue := queue }, .tryLoad (.after true))
      | (queue, .inr false) => ({ memory with queue := queue }, .leave)
  | pc => choice.getLeft?.bind (atomicStep · memory pc)

namespace Pc

/-- The thread is counted in `wait_count_`. -/
def registered : Pc → Bool
  | .tryLoad (.before _) | .tryLoad (.after _) | .tryCas (.before _) _ | .tryCas (.after _) _ => true
  | .kevent | .keventFor _ | .chainToken _ | .chainCount _ | .chainTrigger | .leave => true
  | _ => false

/-- The thread is counted, or about to be. -/
def committed : Pc → Bool
  | .register _ => true
  | pc => pc.registered

/-- The thread is blocked in `kevent`. -/
def blocked : Pc → Bool
  | .kevent | .keventFor _ => true
  | _ => false

/-- The thread has decided to trigger. -/
def triggers : Pc → Bool
  | .trigger | .chainTrigger => true
  | _ => false

/-- The thread has returned from `kevent` and has its chain-wakeup check before it. -/
def attends : Pc → Bool
  | .tryLoad (.after _) | .tryCas (.after _) _ | .chainToken true | .chainCount true => true
  | _ => false

end Pc

/-- The event as a thread program; nobody sleeps on a futex. -/
def program : Program Memory Pc Op (Choice ⊕ Kevent) where
  idle := .idle
  call := call
  step := step
  wake := fun _ => none
  asleep := fun _ => false
  woken := id

theorem program_silent : program.Silent := fun _ => rfl

/-- The event used by the threads of `Thread`; one that is initially set has a token and is
triggered. -/
abbrev system (initiallySet : Bool) (Thread : Type*) [DecidableEq Thread] [Fintype Thread] :
    System (State Thread Memory Pc) (Action Thread Op (Choice ⊕ Kevent)) :=
  program.system
    { token := if initiallySet then 1 else 0, queue := { triggered := initiallySet } }

/-! ### What a step can do -/

/-- **A thread moves on**, and touches neither the tokens nor `wait_count_`. It comes to be committed or
blocked, or stops attending, only where it has seen no token. -/
structure Moves (token : ℤ) (pc after : Pc) : Prop where
  registered : after.registered = pc.registered
  commits : after.committed = true → pc.committed = true ∨ token ≤ 0
  blocks : after.blocked = true → pc.blocked = true ∨ token ≤ 0
  triggers : pc.triggers = false
  attends : pc.attends = true → after.attends = true ∨ token ≤ 0

/-- **The effects of a step.** -/
inductive Effect (memory : Memory) (pc : Pc) : Memory → Pc → Prop
  | moves {queue : Kqueue} {after : Pc} : queue.triggered = memory.queue.triggered →
      Moves memory.token pc after → Effect memory pc { memory with queue := queue } after
  | signal {token : ℤ} {after : Pc} : InInt32 token →
      (InInt32 memory.token → memory.token ≤ 0 → 0 < token → after = .trigger) →
      pc.committed = false → pc.triggers = false → after = .trigger ∨ after = .idle →
      Effect memory pc { memory with token := token } after
  | take {caller : Caller} {s : {s : ℤ // 0 < s}} : pc = .tryCas caller s → memory.token = s →
      Effect memory pc { memory with token := s.1 - 1 } (taken caller)
  | register {timed : Bool} : pc = .register timed →
      Effect memory pc { memory with waitCount := memory.waitCount + 1 } (.tryLoad (.before timed))
  | wakes {queue : Kqueue} {timed : Bool} : pc.blocked = true →
      Effect memory pc { memory with queue := queue } (.tryLoad (.after timed))
  | chain {woken : Bool} : pc = .chainCount woken → memory.waitCount > 1 →
      Effect memory pc memory .chainTrigger
  | unchained {woken : Bool} : pc = .chainCount woken → ¬ memory.waitCount > 1 →
      Effect memory pc memory .leave
  | trigger {after : Pc} : pc.triggers = true → after.registered = pc.registered →
      after = .idle ∨ after = .leave → Effect memory pc memory.trigger after
  | leave : pc = .leave → Effect memory pc { memory with waitCount := memory.waitCount - 1 } .idle

theorem moves_tryLoop {pc : Pc} {caller : Caller} {token : ℤ}
    (registered : (missed caller).registered = pc.registered)
    (same : ∀ s, (Pc.tryCas caller s).registered = pc.registered ∧
      (Pc.tryCas caller s).committed = pc.committed ∧ (Pc.tryCas caller s).attends = pc.attends)
    (triggers : pc.triggers = false) : Moves token pc (tryLoop caller token) := by
  unfold tryLoop
  split
  · rename_i some
    obtain ⟨counted, commits, attends⟩ := same ⟨token, some⟩
    exact ⟨counted, fun there => Or.inl (commits ▸ there), nofun, triggers,
      fun here => Or.inl (attends.trans here)⟩
  · rename_i none
    exact ⟨registered, fun _ => Or.inr (not_lt.mp none), fun _ => Or.inr (not_lt.mp none), triggers,
      fun _ => Or.inr (not_lt.mp none)⟩

section Effects

variable {memory after : Memory} {moved : Pc}

/-- A test of `signal` or of the chain-wakeup check moves on, whatever it finds. -/
theorem moves_of_same {token : ℤ} {pc after : Pc} (registered : after.registered = pc.registered)
    (commits : after.committed = pc.committed) (blocks : after.blocked = pc.blocked)
    (triggers : pc.triggers = false) (attends : after.attends = pc.attends) : Moves token pc after :=
  ⟨registered, fun there => Or.inl (commits ▸ there), fun there => Or.inl (blocks ▸ there), triggers,
    fun here => Or.inl (attends.trans here)⟩

theorem moves_tryLoad (caller : Caller) (token : ℤ) :
    Moves token (.tryLoad caller) (tryLoop caller token) := by
  rcases caller with _ | timed | (_ | _) | (_ | _) <;>
    exact moves_tryLoop rfl (fun _ => ⟨rfl, rfl, rfl⟩) rfl

theorem moves_tryCas (caller : Caller) (s : {s : ℤ // 0 < s}) (token : ℤ) :
    Moves token (.tryCas caller s) (tryLoop caller token) := by
  rcases caller with _ | timed | (_ | _) | (_ | _) <;>
    exact moves_tryLoop rfl (fun _ => ⟨rfl, rfl, rfl⟩) rfl

theorem atomicStep_effect {choice : Choice} {pc : Pc}
    (stepped : atomicStep choice memory pc = some (after, moved)) : Effect memory pc after moved := by
  cases pc with
  | idle | kevent | keventFor => cases stepped
  | signalLoad =>
    cases (ordinary_eq_some stepped).2
    split <;> exact .moves rfl (moves_of_same rfl rfl rfl rfl rfl)
  | signalCas =>
    rcases compareExchangeStrong_cases stepped with ⟨-, -, same⟩ | ⟨-, same⟩
    · cases same
      exact .signal (by decide) (fun _ _ _ => rfl) rfl rfl (Or.inl rfl)
    · cases same
      exact .moves rfl (moves_of_same rfl rfl rfl rfl rfl)
  | signalAdd =>
    cases (ordinary_eq_some stepped).2
    refine .signal (inInt32_int32 _) (fun range low positive => ?_) rfl rfl ?_
    · have next : int32 (memory.token + 1) = memory.token + 1 :=
        int32_eq_self ⟨by have := range.1; omega, by omega⟩
      exact if_pos (by omega)
    · split
      · exact Or.inl rfl
      · exact Or.inr rfl
  | trigger =>
    cases (ordinary_eq_some stepped).2
    exact .trigger rfl rfl (Or.inl rfl)
  | tryLoad caller =>
    cases (ordinary_eq_some stepped).2
    exact .moves rfl (moves_tryLoad caller _)
  | tryCas caller s =>
    rcases compareExchangeWeak_cases stepped with ⟨-, found, same⟩ | ⟨-, same⟩
    · cases same
      exact .take rfl found
    · cases same
      exact .moves rfl (moves_tryCas caller s _)
  | register timed =>
    cases (ordinary_eq_some stepped).2
    exact .register rfl
  | chainToken woken =>
    cases (ordinary_eq_some stepped).2
    split
    · cases woken <;> exact .moves rfl (moves_of_same rfl rfl rfl rfl rfl)
    · rename_i none
      exact .moves rfl ⟨rfl, fun _ => Or.inl rfl, nofun, rfl, fun _ => Or.inr (not_lt.mp none)⟩
  | chainCount woken =>
    cases (ordinary_eq_some stepped).2
    split
    · rename_i others
      exact .chain rfl others
    · rename_i alone
      exact .unchained rfl alone
  | chainTrigger =>
    cases (ordinary_eq_some stepped).2
    exact .trigger rfl rfl (Or.inr rfl)
  | leave =>
    cases (ordinary_eq_some stepped).2
    exact .leave rfl

theorem keventFor_effect {choice : Choice ⊕ Kevent} {point : KeventFor}
    (stepped : step choice memory (.keventFor point) = some (after, moved)) :
    Effect memory (.keventFor point) after moved := by
  obtain ⟨⟨queue, result⟩, waits, same⟩ := Option.map_eq_some_iff.mp stepped
  rcases KeventFor.step_cases waits with ⟨-, -, -, rfl⟩ | ⟨-, -, rfl⟩ | ⟨left, failed⟩
  · cases same
    exact .wakes rfl
  · cases same
    exact .wakes rfl
  · rcases result with next | _ | _
    · cases same
      exact .moves left (moves_of_same rfl rfl rfl rfl rfl)
    · cases same
      exact .moves left ⟨rfl, fun _ => Or.inl rfl, nofun, rfl, nofun⟩
    · exact absurd rfl failed

/-- **Every step has one of the effects.** -/
theorem step_effect {choice : Choice ⊕ Kevent} {pc : Pc}
    (stepped : step choice memory pc = some (after, moved)) : Effect memory pc after moved := by
  have atomic : ∀ {pc}, (choice.getLeft?.bind (atomicStep · memory pc)) = some (after, moved) →
      Effect memory pc after moved := by
    intro pc performed
    obtain ⟨choice, -, performed⟩ := Option.bind_eq_some_iff.mp performed
    exact atomicStep_effect performed
  cases pc with
  | kevent =>
    obtain ⟨outcome, -, called⟩ := Option.bind_eq_some_iff.mp stepped
    obtain ⟨queue, -, same⟩ := Option.map_eq_some_iff.mp called
    cases same
    exact .wakes rfl
  | keventFor point => exact keventFor_effect stepped
  | _ => exact atomic stepped

end Effects

theorem call_moves {op : Op} {pc moved : Pc} {token : ℤ} (called : call op pc = some moved) :
    Moves token pc moved := by
  unfold call at called
  split at called
  · cases called
    exact moves_of_same rfl rfl rfl rfl rfl
  · cases called
    exact moves_of_same rfl rfl rfl rfl rfl
  · cases called
    exact moves_of_same rfl rfl rfl rfl rfl
  · cases called
    split <;> exact moves_of_same rfl rfl rfl rfl rfl
  · cases called

variable {initiallySet : Bool} {Thread : Type*} [DecidableEq Thread] [Fintype Thread]

/-- A step of the system is one thread's; a call touches no memory. -/
theorem next_effect {state after : State Thread Memory Pc}
    {action : Action Thread Op (Choice ⊕ Kevent)}
    (taken : (system initiallySet Thread).next state action = some after) :
    ∃ t memory moved, after = ⟨memory, Function.update state.thread t moved⟩ ∧
      Effect state.memory (state.thread t) memory moved := by
  rcases program_silent.next_cases taken with ⟨t, op, moved, -, called, rfl⟩ |
    ⟨t, choice, memory, moved, -, stepped, rfl⟩
  · exact ⟨t, _, moved, rfl, .moves rfl (call_moves called)⟩
  · exact ⟨t, memory, moved, rfl, step_effect stepped⟩

/-! ### `wait_count_` -/

theorem registered_of_blocked {pc : Pc} (blocked : pc.blocked = true) : pc.registered = true := by
  cases pc with
  | kevent | keventFor => rfl
  | _ => cases blocked

theorem committed_of_registered {pc : Pc} (registered : pc.registered = true) : pc.committed = true := by
  cases pc with
  | register => rfl
  | _ => exact registered

theorem uncounted_of_uncommitted {pc : Pc} (outside : pc.committed = false) : pc.registered = false := by
  by_contra inside
  rw [committed_of_registered (Bool.eq_true_of_not_eq_false inside)] at outside
  cases outside

theorem committed_of_attends {pc : Pc} (attends : pc.attends = true) : pc.committed = true := by
  unfold Pc.attends at attends
  split at attends <;> first | rfl | cases attends

theorem taken_same (caller : Caller) (s : {s : ℤ // 0 < s}) :
    (taken caller).registered = (Pc.tryCas caller s).registered ∧ (taken caller).blocked = false ∧
      (taken caller).committed = (Pc.tryCas caller s).committed ∧
      (taken caller).attends = (Pc.tryCas caller s).attends := by
  rcases caller with _ | _ | _ | _ <;> exact ⟨rfl, rfl, rfl, rfl⟩

/-- **`wait_count_` is the number of counted threads, modulo its width**, and while there are tokens
somebody is not counted: the last thread to commit itself has seen none, and who brings one is not
committed. -/
structure Counted (state : State Thread Memory Pc) : Prop where
  range : InInt32 state.memory.token
  word : state.memory.waitCount = BitVec.ofNat 32 (count Pc.registered state.thread)
  free : 0 < state.memory.token → ∃ u, (state.thread u).committed = false

section Effect

variable {state : State Thread Memory Pc} {t : Thread} {memory : Memory} {moved : Pc}

/-- Somebody stays uncommitted when a thread moves. -/
theorem exists_uncommitted (free : ∃ u, (state.thread u).committed = false)
    (own : (state.thread t).committed = false → moved.committed = false) :
    ∃ u, (Function.update state.thread t moved u).committed = false := by
  obtain ⟨u, outside⟩ := free
  by_cases same : u = t
  · subst same
    exact ⟨u, by rw [Function.update_self]; exact own outside⟩
  · exact ⟨u, by rw [Function.update_of_ne same]; exact outside⟩

/-- A move that does not touch the counts. -/
theorem Counted.same (counted : Counted state) (range : InInt32 memory.token)
    (waitCount : memory.waitCount = state.memory.waitCount)
    (registered : moved.registered = (state.thread t).registered)
    (free : 0 < memory.token → ∃ u, (Function.update state.thread t moved u).committed = false) :
    Counted ⟨memory, Function.update state.thread t moved⟩ :=
  ⟨range, by rw [waitCount, count_update_same registered]; exact counted.word, free⟩

theorem Counted.effect (counted : Counted state)
    (effect : Effect state.memory (state.thread t) memory moved) :
    Counted ⟨memory, Function.update state.thread t moved⟩ := by
  cases effect with
  | moves _ moves =>
    refine counted.same counted.range rfl moves.registered fun some =>
      exists_uncommitted (counted.free some) fun outside => ?_
    by_contra inside
    rcases moves.commits (Bool.eq_true_of_not_eq_false inside) with before | none
    · rw [outside] at before
      cases before
    · exact absurd some (not_lt.mpr none)
  | signal range _ outside _ rests =>
    have uncommitted : moved.committed = false := by rcases rests with rfl | rfl <;> rfl
    refine counted.same range rfl ?_ fun _ => ⟨t, by rw [Function.update_self]; exact uncommitted⟩
    rw [uncounted_of_uncommitted outside]
    rcases rests with rfl | rfl <;> rfl
  | @take caller s here found =>
    have same := taken_same caller s
    rw [← here] at same
    refine counted.same ?_ rfl same.1 fun _ =>
      exists_uncommitted (counted.free (found ▸ s.2)) fun outside => same.2.2.1.trans outside
    have positive := s.2
    have high := counted.range.2
    rw [found] at high
    exact ⟨show -2 ^ 31 ≤ s.1 - 1 by omega, show s.1 - 1 < 2 ^ 31 by omega⟩
  | @register timed here =>
    have outside : (state.thread t).registered = false := by
      rw [here]
      rfl
    refine ⟨counted.range, ?_, fun some => exists_uncommitted (counted.free some) ?_⟩
    · rw [count_update_enter outside rfl, counted.word]
      exact (BitVec.ofNat_add _ _).symm
    · rw [here]
      nofun
  | wakes blocked =>
    have inside := registered_of_blocked blocked
    refine counted.same counted.range rfl inside.symm fun some =>
      exists_uncommitted (counted.free some) ?_
    rw [committed_of_registered inside]
    nofun
  | chain here | unchained here =>
    refine counted.same counted.range rfl (by rw [here]; rfl) fun some =>
      exists_uncommitted (counted.free some) ?_
    rw [here]
    nofun
  | trigger triggers registered rests =>
    refine counted.same counted.range rfl registered fun some =>
      exists_uncommitted (counted.free some) fun outside => ?_
    rcases rests with rfl | rfl
    · rfl
    · rw [committed_of_registered registered.symm] at outside
      cases outside
  | leave here =>
    have inside : (state.thread t).registered = true := by
      rw [here]
      rfl
    refine ⟨counted.range, ?_, fun some => exists_uncommitted (counted.free some) fun _ => rfl⟩
    have fewer : count Pc.registered (Function.update state.thread t .idle) + 1 =
        count Pc.registered state.thread := count_update_leave inside rfl
    show state.memory.waitCount - 1 = _
    rw [counted.word, ← fewer]
    bv_omega

end Effect

theorem counted_of_reachable [Nonempty Thread] {state : State Thread Memory Pc}
    (reached : (system initiallySet Thread).Reachable state) : Counted state := by
  refine reached.invariant ?_ fun state action after _ counted _ taken => ?_
  · refine ⟨?_, ?_, fun _ => ⟨Classical.arbitrary Thread, rfl⟩⟩
    · cases initiallySet with
      | false => exact (by decide : InInt32 0)
      | true => exact (by decide : InInt32 1)
    · have none : count Pc.registered (system initiallySet Thread).start.thread = 0 := count_const rfl
      rw [none]
      rfl
  · obtain ⟨t, memory, moved, rfl, effect⟩ := next_effect taken
    exact counted.effect effect

/-! ### The next wakeup -/

/-- **The next wakeup is on its way**: the user event is pending, somebody has decided to trigger it, or
a woken waiter has its chain-wakeup check before it. -/
def Served (state : State Thread Memory Pc) : Prop :=
  state.memory.queue.triggered = true ∨ (∃ u, (state.thread u).triggers = true) ∨
    ∃ u, (state.thread u).attends = true

/-- **While there are tokens and somebody is blocked, the next wakeup is on its way.** -/
def Attended (state : State Thread Memory Pc) : Prop :=
  0 < state.memory.token → (∃ u, (state.thread u).blocked = true) → Served state

section Attended

variable {state : State Thread Memory Pc} {t : Thread} {memory : Memory} {moved : Pc}

/-- A thread's move keeps the wakeup of every other thread. -/
theorem Served.move (served : Served state)
    (flag : state.memory.queue.triggered = true →
      Served ⟨memory, Function.update state.thread t moved⟩)
    (triggers : (state.thread t).triggers = true →
      Served ⟨memory, Function.update state.thread t moved⟩)
    (attends : (state.thread t).attends = true →
      Served ⟨memory, Function.update state.thread t moved⟩) :
    Served ⟨memory, Function.update state.thread t moved⟩ := by
  rcases served with pending | ⟨u, there⟩ | ⟨u, there⟩
  · exact flag pending
  · by_cases same : u = t
    · exact triggers (same ▸ there)
    · exact Or.inr (Or.inl ⟨u, by simp only [Function.update_of_ne same]; exact there⟩)
  · by_cases same : u = t
    · exact attends (same ▸ there)
    · exact Or.inr (Or.inr ⟨u, by simp only [Function.update_of_ne same]; exact there⟩)

theorem served_of_triggers (here : moved.triggers = true) :
    Served ⟨memory, Function.update state.thread t moved⟩ :=
  Or.inr (Or.inl ⟨t, by simp only [Function.update_self]; exact here⟩)

theorem served_of_attends (here : moved.attends = true) :
    Served ⟨memory, Function.update state.thread t moved⟩ :=
  Or.inr (Or.inr ⟨t, by simp only [Function.update_self]; exact here⟩)

/-- A thread that does not become blocked, does not bring the first token and stands for no wakeup, or
stands for it still. -/
theorem Attended.keep (attended : Attended state) (token : 0 < memory.token → 0 < state.memory.token)
    (blocks : moved.blocked = true → (state.thread t).blocked = true)
    (flag : memory.queue.triggered = state.memory.queue.triggered)
    (triggers : (state.thread t).triggers = false)
    (attends : (state.thread t).attends = true → moved.attends = true) :
    Attended ⟨memory, Function.update state.thread t moved⟩ := by
  rintro some ⟨u, blocked⟩
  have before : ∃ u, (state.thread u).blocked = true := by
    rcases update_cases Pc.blocked blocked with ⟨-, here⟩ | ⟨-, there⟩
    · exact ⟨t, blocks here⟩
    · exact ⟨u, there⟩
  refine (attended (token some) before).move (fun pending => Or.inl (flag.trans pending)) ?_
    fun here => served_of_attends (attends here)
  rw [triggers]
  nofun

/-- With a blocked thread beside it and somebody uncommitted, a counted thread reads more than one. -/
theorem one_lt_waitCount (few : Fintype.card Thread ≤ 2 ^ 32) (counted : Counted state)
    (some : 0 < state.memory.token) {u : Thread} (here : (state.thread t).registered = true)
    (there : (state.thread u).registered = true) (apart : u ≠ t) : state.memory.waitCount > 1 := by
  have several : ¬ count Pc.registered state.thread ≤ 1 :=
    fun single => apart (eq_of_count_le_one single there here)
  obtain ⟨v, outside⟩ := counted.free some
  have uncounted := uncounted_of_uncommitted outside
  have room : count Pc.registered state.thread + count (fun pc => !pc.registered) state.thread ≤
      Fintype.card Thread := count_add_count_le_card fun t here => by rw [here]; rfl
  have left : 0 < count (fun pc => !pc.registered) state.thread :=
    count_pos (t := v) (by rw [uncounted]; rfl)
  rw [counted.word]
  have fits : count Pc.registered state.thread < 2 ^ 32 := by omega
  rw [gt_iff_lt, BitVec.lt_def, BitVec.toNat_ofNat, Nat.mod_eq_of_lt fits]
  exact not_le.mp several

theorem Attended.effect (few : Fintype.card Thread ≤ 2 ^ 32) (counted : Counted state)
    (attended : Attended state) (effect : Effect state.memory (state.thread t) memory moved) :
    Attended ⟨memory, Function.update state.thread t moved⟩ := by
  cases effect with
  | moves flag moves =>
    by_cases some : 0 < state.memory.token
    · refine attended.keep (fun _ => some) (fun there => ?_) flag moves.triggers fun here => ?_
      · exact (moves.blocks there).resolve_right (not_le.mpr some)
      · exact (moves.attends here).resolve_right (not_le.mpr some)
    · exact fun positive => absurd positive some
  | signal _ first outside triggers rests =>
    by_cases some : 0 < state.memory.token
    · refine attended.keep (fun _ => some) (fun there => ?_) rfl triggers fun here => ?_
      · rcases rests with rfl | rfl <;> cases there
      · rw [committed_of_attends here] at outside
        cases outside
    · intro positive _
      have triggering := first counted.range (not_lt.mp some) positive
      exact served_of_triggers (by rw [triggering]; rfl)
  | @take caller s here found =>
    have same := taken_same caller s
    rw [← here] at same
    refine attended.keep (fun _ => found ▸ s.2) (fun there => ?_) rfl (by rw [here]; rfl)
      fun attends => same.2.2.2.trans attends
    rw [same.2.1] at there
    cases there
  | register here =>
    refine attended.keep id nofun rfl (by rw [here]; rfl) ?_
    rw [here]
    nofun
  | wakes => exact fun _ _ => served_of_attends rfl
  | chain => exact fun _ _ => served_of_triggers rfl
  | unchained here alone =>
    rintro some ⟨u, blocked⟩
    obtain ⟨apart, blocked⟩ := ne_of_update Pc.blocked rfl blocked
    refine absurd (one_lt_waitCount few counted some ?_ (registered_of_blocked blocked) apart) alone
    rw [here]
    rfl
  | trigger => exact fun _ _ => Or.inl rfl
  | leave here =>
    refine attended.keep id nofun rfl (by rw [here]; rfl) ?_
    rw [here]
    nofun

end Attended

theorem attended_of_reachable [Nonempty Thread] (few : Fintype.card Thread ≤ 2 ^ 32)
    {state : State Thread Memory Pc} (reached : (system initiallySet Thread).Reachable state) :
    Attended state := by
  refine reached.invariant (P := Attended) ?_ fun state action after before attended _ taken => ?_
  · rintro _ ⟨u, blocked⟩
    cases blocked
  · obtain ⟨t, memory, moved, rfl, effect⟩ := next_effect taken
    exact attended.effect few (counted_of_reachable before) effect

/-- **Nothing is on its way**: the user event is not pending, and every thread is outside the event or
blocked. -/
def Quiescent (state : State Thread Memory Pc) : Prop :=
  state.memory.queue.triggered = false ∧
    ∀ t, state.thread t = .idle ∨ (state.thread t).blocked = true

/-- **No wakeup is lost** between at most `2 ^ 32` threads: while there are tokens and somebody is
blocked, the next wakeup is on its way, so nobody is left blocked beside a token. -/
theorem nativeAutoResetEvent_no_lost_wakeup (few : Fintype.card Thread ≤ 2 ^ 32)
    {state : State Thread Memory Pc} (reached : (system initiallySet Thread).Reachable state) :
    (0 < state.memory.token → (∃ t, (state.thread t).blocked = true) → Served state) ∧
      (Quiescent state → ¬ (0 < state.memory.token ∧ ∃ t, (state.thread t).blocked = true)) := by
  have attended : Attended state := by
    rintro some ⟨u, blocked⟩
    have : Nonempty Thread := ⟨u⟩
    exact attended_of_reachable few reached some ⟨u, blocked⟩
  refine ⟨attended, ?_⟩
  rintro ⟨clear, settled⟩ ⟨some, waiting⟩
  rcases attended some waiting with pending | ⟨u, there⟩ | ⟨u, there⟩
  · rw [clear] at pending
    cases pending
  · rcases settled u with idle | blocked
    · rw [idle] at there
      cases there
    · generalize state.thread u = pc at there blocked
      cases pc with
      | trigger | chainTrigger => cases blocked
      | _ => cases there
  · rcases settled u with idle | blocked
    · rw [idle] at there
      cases there
    · generalize state.thread u = pc at there blocked
      cases pc with
      | kevent | keventFor => cases there
      | _ => cases blocked

/-- Two waiters are blocked, two tokens are there, and the first waiter has been woken and has taken one:
its chain-wakeup check is before it. -/
theorem nativeAutoResetEvent_no_lost_wakeup_chained :
    ∃ state, (system false (Fin 3)).Reachable state ∧ 0 < state.memory.token ∧
      (state.thread 1).blocked = true ∧ Served state ∧ ¬ Quiescent state := by
  obtain ⟨state, reached, chained⟩ := System.exists_reachable_of_run (system false (Fin 3))
    [.call 0 .wait, .step 0 (.inl .go), .step 0 (.inl .go), .step 0 (.inl .go),
      .call 1 (.tryWaitFor true), .step 1 (.inl .go), .step 1 (.inl .go), .step 1 (.inl .go),
      .call 2 .signal, .step 2 (.inl .go), .step 2 (.inl .go), .step 2 (.inl .go),
      .call 2 .signal, .step 2 (.inl .go), .step 2 (.inl .go),
      .step 0 (.inr (.event .user)), .step 0 (.inl .go), .step 0 (.inl .go)]
    (fun state => decide (0 < state.memory.token) && (state.thread 1).blocked) (by decide +kernel)
  obtain ⟨tokens, blocked⟩ := Bool.and_eq_true_iff.mp chained
  have some := of_decide_eq_true tokens
  have safe := nativeAutoResetEvent_no_lost_wakeup (by decide) reached
  exact ⟨state, reached, some, blocked, safe.1 some ⟨1, blocked⟩,
    fun quiescent => safe.2 quiescent ⟨some, 1, blocked⟩⟩

section Overflow

/-- Any set of threads can be blocked in `wait`. -/
theorem crowd_reachable (crowd : Finset Thread) :
    (system false Thread).Reachable ⟨{ waitCount := BitVec.ofNat 32 crowd.card },
      crowd.piecewise (fun _ => .kevent) fun _ => .idle⟩ := by
  induction crowd using Finset.induction_on with
  | empty =>
    rw [Finset.piecewise_empty]
    exact .start
  | insert t crowd fresh ih =>
    have idle : crowd.piecewise (fun _ => Pc.kevent) (fun _ => .idle) t = .idle :=
      Finset.piecewise_eq_of_notMem _ _ _ fresh
    have blocked := Program.reachable_operation t .wait [.inl .go, .inl .go, .inl .go] ih
      (by rw [idle]; rfl) rfl
    rw [Finset.piecewise_insert, Finset.card_insert_of_notMem fresh, BitVec.ofNat_add]
    exact blocked

/-- All threads but one are blocked in `wait`. -/
theorem exists_crowd (n : ℕ) : ∃ thread : Option (Fin n) → Pc, (∀ i, thread (some i) = .kevent) ∧
    thread none = .idle ∧
      (system false (Option (Fin n))).Reachable ⟨{ waitCount := BitVec.ofNat 32 n }, thread⟩ := by
  let crowd : Finset (Option (Fin n)) := Finset.univ.map Function.Embedding.some
  refine ⟨crowd.piecewise (fun _ => .kevent) fun _ => .idle, fun i => ?_, ?_, ?_⟩
  · exact Finset.piecewise_eq_of_mem _ _ _ (Finset.mem_map_of_mem _ (Finset.mem_univ i))
  · exact Finset.piecewise_eq_of_notMem _ _ _ (by simp [crowd])
  · have card : crowd.card = n := by rw [Finset.card_map, Finset.card_univ, Fintype.card_fin]
    have reached := crowd_reachable crowd
    rw [card] at reached
    exact reached

/-- **`2 ^ 32 + 1` waiters are one too many.** `wait_count_` has wrapped to one when two tokens come: the
waiter that takes the first does not chain, and the second is left beside `2 ^ 32` blocked waiters. -/
theorem nativeAutoResetEvent_wakeup_lost :
    ¬ ∀ (Thread : Type) [DecidableEq Thread] [Fintype Thread] (initiallySet : Bool)
      (state : State Thread Memory Pc), (system initiallySet Thread).Reachable state →
        (0 < state.memory.token → (∃ t, (state.thread t).blocked = true) → Served state) ∧
        (Quiescent state → ¬ (0 < state.memory.token ∧ ∃ t, (state.thread t).blocked = true)) := by
  intro safe
  generalize size : 2 ^ 32 + 1 = n
  have wrapped : BitVec.ofNat 32 n = 1 := by
    rw [← size]
    rfl
  have many : 1 < n := by omega
  obtain ⟨thread, waiting, idle, blocked⟩ := exists_crowd n
  rw [wrapped] at blocked
  have once : (system false (Option (Fin n))).Reachable
      ⟨⟨1, 1, { triggered := true }⟩, Function.update thread none .idle⟩ :=
    Program.reachable_operation none .signal [.inl .go, .inl .go, .inl .go] blocked
      (by rw [idle]; rfl) rfl
  have twice : (system false (Option (Fin n))).Reachable
      ⟨⟨2, 1, { triggered := true }⟩, Function.update thread none .idle⟩ := by
    have again := Program.reachable_operation none .signal [.inl .go, .inl .go] once
      (by rw [Function.update_self]; rfl) rfl
    rw [Function.update_idem] at again
    exact again
  let taker : Option (Fin n) := some ⟨0, by omega⟩
  have woken : Function.update thread none .idle taker = .kevent := by
    rw [Function.update_of_ne (Option.some_ne_none _)]
    exact waiting _
  have left : (system false (Option (Fin n))).Reachable ⟨{ token := 1 },
      Function.update (Function.update thread none .idle) taker .idle⟩ := by
    let choices : List (Choice ⊕ Kevent) :=
      [.inr (.event .user), .inl .go, .inl .go, .inl .go, .inl .go, .inl .go]
    have computed : program.alone (⟨2, 1, { triggered := true }⟩, .kevent) choices =
        some ({ token := 1 }, .idle) := rfl
    rw [← woken] at computed
    exact Program.reachable_alone twice computed
  have rests : ∀ t, Function.update (Function.update thread none .idle) taker .idle t = .idle ∨
      (Function.update (Function.update thread none .idle) taker .idle t).blocked = true := by
    intro t
    by_cases first : t = taker
    · subst first
      exact Or.inl (Function.update_self ..)
    rw [Function.update_of_ne first]
    cases t with
    | none => exact Or.inl (Function.update_self ..)
    | some i =>
      rw [Function.update_of_ne (Option.some_ne_none i), waiting]
      exact Or.inr rfl
  have other : (Function.update (Function.update thread none .idle) taker .idle
      (some ⟨1, many⟩)).blocked = true := by
    rw [Function.update_of_ne (by simp [taker]), Function.update_of_ne (Option.some_ne_none _),
      waiting]
    rfl
  exact (safe _ _ _ left).2 ⟨rfl, rests⟩ ⟨Int.one_pos, some ⟨1, many⟩, other⟩

end Overflow

end NovaSync.NativeAutoResetEventKqueue
