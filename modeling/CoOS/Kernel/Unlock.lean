/-
  `OsSchedUnlock` and `RespondSRQ` statement by statement, with interrupts between the statements.

  `Stmt` is the statement that comes next. What stands between `IRQ_DISABLE_SAVE` and
  `IRQ_ENABLE_RESTORE` is one statement, and so is a call of another function. An interrupt runs
  to completion: `SysTick_Handler`, or an ISR with one `isr_` post between `CoEnterISR` and
  `CoExitISR`. Outside of `OsSchedUnlock` the task locks the scheduler, writes what the section of
  its call writes, and begins to unlock.

  Run without interrupts, the statements are `osSchedUnlock` (`unlock_stmts`).
-/
import CoOS.Kernel.Frame
import CoOS.Kernel.System

namespace CoOS

open Function (update)

/-! ## Interrupts -/

/-- `CoEnterISR`. -/
def coEnterISR (s : Kernel) : Kernel := { s with OSIntNesting := s.OSIntNesting + 1 }

/-- `CoExitISR`. -/
def coExitISR (cfg : Env) (s : Kernel) : Option Kernel :=
  let s := { s with OSIntNesting := s.OSIntNesting - 1 }
  if s.OSIntNesting = 0 ∧ s.TaskSchedReq then
    (schedule cfg (osSchedLock s)).map fun s => { s with OSSchedLock := s.OSSchedLock - 1 }
  else some s

/-- The `isr_` function for the request `c`. -/
def isrPost (cfg : Env) (s : Kernel) (c : SQC) : Option (Kernel × StatusType) :=
  match c.type with
  | .SEM_REQ => isr_PostSem cfg s c.id
  | .MBOX_REQ => isr_PostMail cfg s c.id c.arg
  | .FLAG_REQ => isr_SetFlag cfg s c.id
  | .QUEUE_REQ => isr_PostQueueMail cfg s c.id c.arg

/-- An ISR that makes the post `c`. -/
def isrWith (cfg : Env) (s : Kernel) (c : SQC) : Option Kernel :=
  (isrPost cfg (coEnterISR s) c).bind fun x => coExitISR cfg x.1

/-! ## Statements -/

/-- The statement that comes next: `out` outside of `OsSchedUnlock`. -/
inductive Stmt where
  | out
  -- OsSchedUnlock up to the call of RespondSRQ
  | ifLock1 | decLock | ifIsrReq
  -- RespondSRQ
  | ifTimeReq | timeDispose | clearTimeReq
  | ifTimerReq | tmrDispose | clearTimerReq
  | whileCnt | pop | switch (cell : SQC)
  | clearIsrReq
  -- OsSchedUnlock from there on
  | ifSchedReq | schedule | zeroLock
  deriving DecidableEq, Repr

/-- The environment of the functions that `RespondSRQ` calls; their unlocks do not drain. -/
def Env.inner (cfg : Env) : Env := { cfg with respondSRQ := fun _ => none }

/-- One statement. The switch that `Schedule` asks for is taken when the lock is gone. -/
def Stmt.exec (cfg : Env) (k : Kernel) : Stmt → Option (Kernel × Stmt)
  | .out => none
  | .ifLock1 => some (k, if k.OSSchedLock = 1 then .ifIsrReq else .decLock)
  | .decLock => some ({ k with OSSchedLock := k.OSSchedLock - 1 }, .out)
  | .ifIsrReq => some (k, if k.IsrReq then .ifTimeReq else .ifSchedReq)
  | .ifTimeReq => some (k, if k.TimeReq then .timeDispose else .ifTimerReq)
  | .timeDispose => (CoOS.timeDispose cfg.inner cfg.tasks k).map fun k => (k, .clearTimeReq)
  | .clearTimeReq => some ({ k with TimeReq := false }, .ifTimerReq)
  | .ifTimerReq => some (k, if k.TimerReq then .tmrDispose else .whileCnt)
  | .tmrDispose => (CoOS.tmrDispose cfg.inner cfg.maxTmr k).map fun k => (k, .clearTimerReq)
  | .clearTimerReq => some ({ k with TimerReq := false }, .whileCnt)
  | .whileCnt => some (k, if k.ServiceReq.cnt = 0 then .clearIsrReq else .pop)
  | .pop =>
    let q := k.ServiceReq
    some ({ k with ServiceReq := { q with
      head := (q.head + 1) % cfg.maxServiceRequest, cnt := q.cnt - 1 } }, .switch (q.cell q.head))
  | .switch c => (serve cfg.inner k c).map fun x => (x.1, .whileCnt)
  | .clearIsrReq => some (endRespond k, .ifSchedReq)
  | .ifSchedReq => some (k, if k.TaskSchedReq then .schedule else .zeroLock)
  | .schedule => (CoOS.schedule cfg.served k).map fun k => (k, .zeroLock)
  | .zeroLock => some (takeSwitch { k with OSSchedLock := 0 }, .out)

structure Unlocking where
  k : Kernel
  pc : Stmt

/-- What comes next: the task locks, writes, begins to unlock or executes the next statement of
    `OsSchedUnlock`; or an interrupt. -/
inductive UnlockAct where
  | lock
  | write (f : Kernel → Option Kernel)
  | unlock
  | next
  | tick
  | isr (c : SQC)

/-- A switch is taken at once when the scheduler is not locked. -/
def switchIfFree (k : Kernel) : Kernel := if k.OSSchedLock = 0 then takeSwitch k else k

def Unlocking.step (cfg : Env) (m : Unlocking) : UnlockAct → Option Unlocking
  | .lock => if m.pc = .out then some { m with k := osSchedLock m.k } else none
  | .write f => if m.pc = .out ∧ 0 < m.k.OSSchedLock then (f m.k).map fun k =>
    { m with k := k } else none
  | .unlock => if m.pc = .out ∧ 0 < m.k.OSSchedLock then some { m with pc := .ifLock1 } else none
  | .next => (m.pc.exec cfg m.k).map fun x => ⟨x.1, x.2⟩
  | .tick => (sysTick_Handler cfg.served m.k).map fun k => { m with k := switchIfFree k }
  | .isr c => (isrWith cfg.served m.k c).map fun k => { m with k := switchIfFree k }

/-- The states that steps allowed by `ok` reach from `m0`. -/
inductive UnlockReach (cfg : Env) (ok : Unlocking → UnlockAct → Prop) (m0 : Unlocking) :
    Unlocking → Prop
  | start : UnlockReach cfg ok m0 m0
  | step {m m' : Unlocking} {a : UnlockAct} (h : UnlockReach cfg ok m0 m) (hok : ok m a)
      (hs : m.step cfg a = some m') : UnlockReach cfg ok m0 m'

/-- The run that takes the given steps, as long as `P` allows them. -/
def unlockRuns (cfg : Env) (P : Unlocking → UnlockAct → Bool) :
    Unlocking → List UnlockAct → Option Unlocking
  | m, [] => some m
  | m, a :: l => if P m a then (m.step cfg a).bind fun m => unlockRuns cfg P m l else none

theorem unlockRuns_reach {cfg : Env} {P : Unlocking → UnlockAct → Bool}
    {ok : Unlocking → UnlockAct → Prop} {m0 : Unlocking} (l : List UnlockAct)
    (hok : ∀ a ∈ l, ∀ m, P m a = true → ok m a) : ∀ {m m' : Unlocking}, UnlockReach cfg ok m0 m →
      unlockRuns cfg P m l = some m' → UnlockReach cfg ok m0 m' := by
  induction l with
  | nil =>
    intro m m' h e
    rw [← Option.some.inj e]
    exact h
  | cons a l ih =>
    intro m m' h e
    unfold unlockRuns at e
    split at e
    · next hp =>
      obtain ⟨m1, e1, e2⟩ := Option.bind_eq_some_iff.mp e
      exact ih (fun b hb => hok b (List.mem_cons_of_mem a hb))
        (h.step (hok a List.mem_cons_self m hp) e1) e2
    · exact nomatch e

/-! ## Without interrupts -/

/-- `n` statements. -/
def stmts (cfg : Env) : Nat → Unlocking → Option Unlocking
  | 0, m => some m
  | n + 1, m => (m.step cfg .next).bind (stmts cfg n)

section Stmts

variable {cfg : Env} {k k' : Kernel} {m m'' : Unlocking}

/-- Some number of statements leads from `m` to `m'`. -/
def Leads (cfg : Env) (m m' : Unlocking) : Prop := ∃ n, stmts cfg n m = some m'

theorem leads_step (m' : Unlocking) (e : m.pc.exec cfg m.k = some (m'.k, m'.pc))
    (h : Leads cfg m' m'') :
    Leads cfg m m'' := by
  obtain ⟨n, hn⟩ := h
  refine ⟨n + 1, ?_⟩
  unfold stmts Unlocking.step
  rw [e]
  exact hn

theorem serveLoop_stmts (fuel : Nat) : ∀ {k : Kernel}, serveLoop cfg.inner fuel k = some k' →
    Leads cfg ⟨k', .clearIsrReq⟩ m → Leads cfg ⟨k, .whileCnt⟩ m := by
  induction fuel with
  | zero =>
    intro k e h
    unfold serveLoop at e
    split at e
    · next hc =>
      rw [Option.some.inj e]
      refine leads_step ⟨k', .clearIsrReq⟩ ?_ h
      rw [Option.some.inj e] at hc
      exact congrArg (fun a => some (k', a)) (if_pos hc)
    · exact nomatch e
  | succ fuel ih =>
    intro k e h
    unfold serveLoop at e
    split at e
    · next hc =>
      rw [Option.some.inj e]
      refine leads_step ⟨k', .clearIsrReq⟩ ?_ h
      rw [Option.some.inj e] at hc
      exact congrArg (fun a => some (k', a)) (if_pos hc)
    · next hc =>
      obtain ⟨x, e1, e2⟩ := Option.bind_eq_some_iff.mp e
      let q := k.ServiceReq
      let k1 : Kernel := { k with ServiceReq := { q with
        head := (q.head + 1) % cfg.maxServiceRequest, cnt := q.cnt - 1 } }
      refine leads_step ⟨k, .pop⟩ (congrArg (fun a => some (k, a)) (if_neg hc)) ?_
      refine leads_step ⟨k1, .switch (q.cell q.head)⟩ rfl ?_
      refine leads_step ⟨x.1, .whileCnt⟩ ?_ (ih e2 h)
      exact congrArg (Option.map fun x => (x.1, Stmt.whileCnt)) e1

theorem respondSRQ_stmts (e : respondSRQ cfg.inner k = some k')
    (h : Leads cfg ⟨k', .ifSchedReq⟩ m) : Leads cfg ⟨k, .ifTimeReq⟩ m := by
  rw [respondSRQ_parts] at e
  obtain ⟨k1, e1, e⟩ := Option.bind_eq_some_iff.mp e
  obtain ⟨k2, e2, e⟩ := Option.bind_eq_some_iff.mp e
  obtain ⟨k3, e3, rfl⟩ := Option.map_eq_some_iff.mp e
  have h3 : Leads cfg ⟨k2, .whileCnt⟩ m :=
    serveLoop_stmts cfg.maxServiceRequest e3 (leads_step ⟨endRespond k3, .ifSchedReq⟩ rfl h)
  have h2 : Leads cfg ⟨k1, .ifTimerReq⟩ m := by
    unfold respondTimer at e2
    split at e2
    · next hr =>
      obtain ⟨k4, e4, rfl⟩ := Option.map_eq_some_iff.mp e2
      refine leads_step ⟨k1, .tmrDispose⟩ (congrArg (fun a => some (k1, a)) (if_pos hr)) ?_
      refine leads_step ⟨k4, .clearTimerReq⟩ ?_ (leads_step _ (by rfl) h3)
      exact congrArg (Option.map fun k => (k, Stmt.clearTimerReq)) e4
    · next hr =>
      rw [← Option.some.inj e2] at h3
      exact leads_step ⟨k1, .whileCnt⟩ (congrArg (fun a => some (k1, a)) (if_neg hr)) h3
  unfold respondTime at e1
  split at e1
  · next hr =>
    obtain ⟨k4, e4, rfl⟩ := Option.map_eq_some_iff.mp e1
    refine leads_step ⟨k, .timeDispose⟩ (congrArg (fun a => some (k, a)) (if_pos hr)) ?_
    refine leads_step ⟨k4, .clearTimeReq⟩ ?_ (leads_step _ (by rfl) h2)
    exact congrArg (Option.map fun k => (k, Stmt.clearTimeReq)) e4
  · next hr =>
    rw [← Option.some.inj e1] at h2
    exact leads_step ⟨k, .ifTimerReq⟩ (congrArg (fun a => some (k, a)) (if_neg hr)) h2

/-- The statements of `OsSchedUnlock`, with nothing between them, are `osSchedUnlock`. -/
theorem unlock_stmts (hl : k.OSSchedLock = 1) (e : osSchedUnlock cfg.served k = some k') :
    Leads cfg ⟨k, .ifLock1⟩ ⟨takeSwitch k', .out⟩ := by
  rw [osSchedUnlock_parts, if_pos hl] at e
  obtain ⟨k1, e1, e⟩ := Option.bind_eq_some_iff.mp e
  obtain ⟨k2, e2, rfl⟩ := Option.map_eq_some_iff.mp e
  have hz : Leads cfg ⟨k2, .zeroLock⟩ ⟨takeSwitch { k2 with OSSchedLock := 0 }, .out⟩ := ⟨1, rfl⟩
  have h2 : Leads cfg ⟨k1, .ifSchedReq⟩ ⟨takeSwitch { k2 with OSSchedLock := 0 }, .out⟩ := by
    split at e2
    · next hr =>
      refine leads_step ⟨k1, .schedule⟩ (congrArg (fun a => some (k1, a)) (if_pos hr)) ?_
      exact leads_step ⟨k2, .zeroLock⟩ (congrArg (Option.map fun k => (k, Stmt.zeroLock)) e2) hz
    · next hr =>
      rw [← Option.some.inj e2] at hz ⊢
      exact leads_step ⟨k1, .zeroLock⟩ (congrArg (fun a => some (k1, a)) (if_neg hr)) hz
  refine leads_step ⟨k, .ifIsrReq⟩ (congrArg (fun a => some (k, a)) (if_pos hl)) ?_
  split at e1
  · next hr =>
    refine leads_step ⟨k, .ifTimeReq⟩ (congrArg (fun a => some (k, a)) (if_pos hr)) ?_
    exact respondSRQ_stmts e1 h2
  · next hr =>
    rw [← Option.some.inj e1] at h2
    exact leads_step ⟨k, .ifSchedReq⟩ (congrArg (fun a => some (k, a)) (if_neg hr)) h2

end Stmts

end CoOS
