/-
  The kernel together with its tasks: what the running task may call, what is left of a call
  whose task has lost the CPU, and the interrupts.

  A step is one critical section with the tests that the source makes before it locks the
  scheduler. Most calls have one; a pend that finds nothing has two, and whatever the caller does
  after it was blocked is a section of its own. Between two sections any other task may run, and
  `SysTick_Handler` may come. An interrupt that makes a post while a section is locked defers it;
  the requests `rs` of a step are those that its section drains when it unlocks. The context switch
  that a section requests is taken at its end.

  Tests outside the lock are atomic with the section here. In the source a task can lose the CPU
  between the two: the posts and the flag calls are taken apart there in `Gap`, all calls on events
  in `EvtPoint`. The calls of task.c, time.c and mutex.c are whole calls throughout.

  The idle task makes no calls.
-/
import CoOS.Kernel.Service

namespace CoOS

open Function (update)

/-! ## Calls -/

inductive Call where
  | createTask (task stk parameter : Nat)
  | delTask (t : Nat)
  | exitTask
  | suspendTask (t : Nat)
  | awakeTask (t : Nat)
  | setPriority (t p : Nat)
  | tickDelay (n : Nat)
  | resetDelay (t n : Nat)
  | accept (k : EventType) (id : Nat)
  | pend (k : EventType) (id timeout : Nat)
  | post (k : EventType) (id mail : Nat)
  | createFlag (bAutoReset bInitialState : Nat)
  | delFlag (id opt : Nat)
  | setFlag (id : Nat)
  | clearFlag (id : Nat)
  | acceptFlag (id : Nat)
  | acceptFlags (flags : BitVec 32) (waitType : Nat)
  | waitFlag (id timeout : Nat)
  | waitFlags (flags : BitVec 32) (waitType timeout : Nat)
  | enterMutex (m : Nat)
  | leaveMutex (m : Nat)
  deriving DecidableEq, Repr

/-- What is left of a call that has not returned: the second critical section of a pend, or
    what comes after the task was blocked. -/
inductive Cont where
  | none
  | block (k : EventType) (id timeout : Nat)
  | wait (k : EventType) (id timeout : Nat)
  | waitFlag (id timeout : Nat)
  | waitFlags (flags : BitVec 32) (waitType timeout : Nat)
  | enterMutex (m : Nat)
  deriving DecidableEq, Repr

/-- What a call returns: a value (a mail, the flags, the id of a new object; else `0`) and a
    status. -/
abbrev Ret := Nat × StatusType

/-- After a section: the kernel, what is left of the call, and its result if it has returned. -/
abbrev Outcome := Kernel × Cont × Option Ret

/-- The call returned `ret`. -/
def returned (k : Kernel) (ret : Ret) : Outcome := (k, .none, some ret)

/-- The first section of each call, with the tests in front of it. -/
def Call.exec (cfg : Env) (k : Kernel) : Call → Option Outcome
  | .createTask task stk parameter =>
    (CoOS.createTask cfg k task stk parameter).map fun x => returned x.1 (x.2, .E_OK)
  | .delTask t => (coDelTask cfg k t).map fun x => returned x.1 (0, x.2)
  | .exitTask => (coExitTask cfg k).map fun x => returned x.1 (0, x.2)
  | .suspendTask t => (coSuspendTask cfg k t).map fun x => returned x.1 (0, x.2)
  | .awakeTask t => (coAwakeTask cfg k t).map fun x => returned x.1 (0, x.2)
  | .setPriority t p => (coSetPriority cfg k t p).map fun x => returned x.1 (0, x.2)
  | .tickDelay n => (coTickDelay cfg k n).map fun x => returned x.1 (0, x.2)
  | .resetDelay t n => (coResetTaskDelayTick cfg k t n).map fun x => returned x.1 (0, x.2)
  | .accept kd id => (acceptEvent cfg k kd id).map fun x => returned x.1 x.2
  | .pend kd id timeout => (pendEvent cfg k kd id).map fun x =>
    match x.2 with
    | some ret => returned x.1 ret
    | none => (x.1, .block kd id timeout, none)
  | .post kd id mail => (postEvent cfg k kd id mail).map fun x => returned x.1 (0, x.2)
  | .createFlag auto init => (coCreateFlag cfg k auto init).map fun x => returned x.1 (x.2, .E_OK)
  | .delFlag id opt => (coDelFlag cfg k id opt).map fun x => returned x.1 (0, x.2)
  | .setFlag id => (coSetFlag cfg k id).map fun x => returned x.1 (0, x.2)
  | .clearFlag id => some (returned (coClearFlag k id).1 (0, (coClearFlag k id).2))
  | .acceptFlag id => (coAcceptSingleFlag cfg k id).map fun x => returned x.1 (0, x.2)
  | .acceptFlags flags waitType => (coAcceptMultipleFlags cfg k flags waitType).map fun x =>
    returned x.1 (x.2.1.toNat, x.2.2)
  | .waitFlag id timeout => (coWaitForSingleFlag cfg k id timeout).map fun x =>
    match x.2 with
    | some st => returned x.1 (0, st)
    | none => (x.1, .waitFlag id timeout, none)
  | .waitFlags flags waitType timeout =>
    (coWaitForMultipleFlags cfg k flags waitType timeout).map fun x =>
      match x.2 with
      | some ret => returned x.1 (ret.1.toNat, ret.2)
      | none => (x.1, .waitFlags flags waitType timeout, none)
  | .enterMutex m => (coEnterMutexSection cfg k m).map fun x =>
    if x.2 = .E_OK ∧ k.mutexOccupied m then (x.1, .enterMutex m, none) else returned x.1 (0, x.2)
  | .leaveMutex m => (coLeaveMutexSection cfg k m).map fun x => returned x.1 (0, x.2)

/-- The next section of a call of the task `r` that has not returned. -/
def Cont.exec (cfg : Env) (k : Kernel) (r : Nat) : Cont → Option Outcome
  | .none => Option.none
  | .block kd id timeout => (pendWait cfg k id timeout).map fun k =>
    (k, .wait kd id timeout, Option.none)
  | .wait _ _ timeout => some (returned (pendReturn k r timeout).1 (pendReturn k r timeout).2)
  | .waitFlag id timeout => (waitSingleReturn cfg k r id timeout).map fun x => returned x.1 (0, x.2)
  | .waitFlags flags _ timeout => (waitMultipleReturn cfg k r flags timeout).map fun x =>
    returned x.1 (x.2.1.toNat, x.2.2)
  | .enterMutex _ => some (returned k (0, .E_OK))

/-! ## Steps -/

/-- A section that a task has executed, and the result when the call returned. -/
structure Entry where
  task : Nat
  op : Call ⊕ Cont
  ret : Option Ret
  deriving DecidableEq, Repr

structure Sys where
  k : Kernel
  cont : Nat → Cont
  log : List Entry

/-- What comes next: the running task makes a call, or goes on with the call it is in, or
    `SysTick_Handler`. -/
inductive Act where
  | call (c : Call)
  | resume
  | tick
  deriving DecidableEq, Repr

/-- The task that a call ends, if it succeeds. -/
def Call.ends (r : Nat) : Call → Option Nat
  | .delTask t => some t
  | .exitTask => some r
  | _ => Option.none

/-- A deleted task is in no call any more. -/
def forget (cont : Nat → Cont) (t : Option Nat) (ret : Option Ret) : Nat → Cont :=
  match t, ret with
  | some t, some (_, .E_OK) => update cont t .none
  | _, _ => cont

/-- The requests that interrupts put in the ring. -/
def Kernel.defer (cfg : Env) (k : Kernel) (rs : List SQC) : Kernel :=
  rs.foldl (fun k c => (insertInSRQ cfg k c.type c.id c.arg).1) k

/-- The state after a section of the task `r`. -/
def Sys.after (m : Sys) (r : Nat) (op : Call ⊕ Cont) (ends : Option Nat) (x : Outcome) : Sys where
  k := takeSwitch x.1
  cont := forget (update m.cont r x.2.1) ends x.2.2
  log := m.log ++ [⟨r, op, x.2.2⟩]

/-- One step, before it is known that the ring is empty again. -/
def Sys.exec (cfg : Env) (m : Sys) (rs : List SQC) (a : Act) : Option Sys :=
  let k := m.k.defer cfg rs
  match a, m.k.TCBRunning with
  | .tick, _ => (sysTick_Handler cfg k).map fun k => { m with k := takeSwitch k }
  | .call c, some r =>
    if r = 0 ∨ m.cont r ≠ .none then none
    else (c.exec cfg k).map (m.after r (.inl c) (c.ends r))
  | .resume, some r =>
    if m.cont r = .none then none
    else ((m.cont r).exec cfg k r).map (m.after r (.inr (m.cont r)) none)
  | _, none => none

/-- One step. An interrupt that finds the scheduler unlocked defers nothing, so the requests
    of a step are gone after it. -/
def Sys.step (cfg : Env) (m : Sys) (rs : List SQC) (a : Act) : Option Sys :=
  (m.exec cfg.served rs a).filter fun m => !m.k.IsrReq

/-! ## Start -/

/-- What is created before `CoStartOS`. -/
inductive Setup where
  | task (task stk parameter : Nat)
  | sem (initCnt maxCnt sortType : Nat)
  | mbox (sortType : Nat)
  | queue (qStart size sortType : Nat)
  | flag (bAutoReset bInitialState : Nat)
  | mutex
  deriving DecidableEq, Repr

def Setup.exec (cfg : Env) (k : Kernel) : Setup → Option Kernel
  | .task entry stk parameter => (createTask cfg k entry stk parameter).map Prod.fst
  | .sem initCnt maxCnt sortType => (coCreateSem cfg k initCnt maxCnt sortType).map Prod.fst
  | .mbox sortType => (coCreateMbox cfg k sortType).map Prod.fst
  | .queue qStart size sortType => (coCreateQueue cfg k qStart size sortType).map Prod.fst
  | .flag auto init => (coCreateFlag cfg k auto init).map Prod.fst
  | .mutex => (coCreateMutex cfg k).map Prod.fst

def setUp (cfg : Env) (k : Kernel) (us : List Setup) : Option Kernel := us.foldlM (Setup.exec cfg) k

/-- The idle task and its stack; `OsError.h` bounds `CFG_IDLE_STACK_SIZE` from below, the 12
    bits that `CreateTask` has for it from above. -/
structure Idle where
  task : Nat
  stk : Nat
  stkSz : Nat
  task_ne : task ≠ 0
  stk_ne : stk ≠ 0
  stkSz_ge : 25 ≤ stkSz
  stkSz_lt : stkSz < 4096

/-- `CoInitOS`, the creations `us`, and `CoStartOS`. -/
def boot (cfg : Env) (i : Idle) (us : List Setup) : Option Sys := do
  let k ← coInitOS cfg.served Kernel.zero i.task i.stk i.stkSz
  let k ← setUp cfg.served k us
  let k ← coStartOS cfg.served k
  some ⟨takeSwitch k, fun _ => .none, []⟩

/-! ## Runs -/

/-- The states that steps allowed by `ok` reach from `m0`. -/
inductive Reach (cfg : Env) (ok : Sys → List SQC → Act → Prop) (m0 : Sys) : Sys → Prop
  | start : Reach cfg ok m0 m0
  | step {m m' : Sys} {rs : List SQC} {a : Act} (h : Reach cfg ok m0 m) (hok : ok m rs a)
      (hs : m.step cfg rs a = some m') : Reach cfg ok m0 m'

/-- The run that takes the given steps, as long as `ok` allows them. -/
def runs (cfg : Env) (ok : Sys → List SQC → Act → Prop) [∀ m rs a, Decidable (ok m rs a)] :
    Sys → List (List SQC × Act) → Option Sys
  | m, [] => some m
  | m, (rs, a) :: l => if ok m rs a then (m.step cfg rs a).bind fun m => runs cfg ok m l else none

theorem runs_reach {cfg : Env} {ok : Sys → List SQC → Act → Prop} [∀ m rs a, Decidable (ok m rs a)]
    {m0 : Sys} (l : List (List SQC × Act)) : ∀ {m m' : Sys}, Reach cfg ok m0 m →
      runs cfg ok m l = some m' → Reach cfg ok m0 m' := by
  induction l with
  | nil =>
    intro m m' h e
    rw [← Option.some.inj e]
    exact h
  | cons x l ih =>
    intro m m' h e
    unfold runs at e
    split at e
    · next hok =>
      obtain ⟨m1, e1, e2⟩ := Option.bind_eq_some_iff.mp e
      exact ih (h.step hok e1) e2
    · exact nomatch e

/-- A run from the start, from what can be computed of its last state. -/
theorem ran {cfg : Env} {ok : Sys → List SQC → Act → Prop} [∀ m rs a, Decidable (ok m rs a)]
    {i : Idle} {us : List Setup} {l : List (List SQC × Act)} {α : Type} {f : Sys → α} {v : α}
    (h : (((boot cfg i us).bind fun m => runs cfg ok m l).map f) = some v) :
    ∃ m0 m, boot cfg i us = some m0 ∧ Reach cfg ok m0 m ∧ f m = v := by
  obtain ⟨m, hm, hf⟩ := Option.map_eq_some_iff.mp h
  obtain ⟨m0, h0, hr⟩ := Option.bind_eq_some_iff.mp hm
  exact ⟨m0, m, h0, runs_reach l .start hr, hf⟩

/-- An idle task with the stack of the shipped `OsConfig.h`. -/
def shippedIdle : Idle where
  task := 1
  stk := 1
  stkSz := 25
  task_ne := by decide
  stk_ne := by decide
  stkSz_ge := by decide
  stkSz_lt := by decide

/-- A task of the priority `p` with a stack of 25 words. -/
def Setup.plainTask (p : Nat) : Setup := .task 1 1 (p ||| (25 <<< 8))

end CoOS
