/-
  Software timers (`timer.c`) and the tick handler (`SysTick_Handler` of `arch.c`).

  `tmrCnt` of a running timer counts from the timer before it, so the timer list is a delta
  list in the columns `tmrNext`, `tmrPrev`, `tmrCnt`. Every change of it stands between
  `OsSchedLock` and `OsSchedUnlock`, as in the source.

  A call is one step. `CoStopTmr`, `CoDelTmr` and `CoSetTmrCnt` test `tmrState` before
  `RemoveTmrList` locks the scheduler; a tick that fires a one-shot timer in between, so that it is
  no longer linked, is not among the runs here.

  `callBacks` records each call of a callback with the value of `OSTickCnt`; what the callback
  itself does is `cfg.runCallBack`.
-/
import CoOS.Kernel.Task

namespace CoOS

open Function (update)

/-- The timer list with its counters. -/
def Tmr.delta (m : Tmr) : DList.Delta Nat := ⟨⟨m.TmrList, m.tmrNext, m.tmrPrev⟩, m.tmrCnt⟩

def Tmr.setDelta (m : Tmr) (D : DList.Delta Nat) : Tmr :=
  { m with TmrList := D.head, tmrNext := D.next, tmrPrev := D.prev, tmrCnt := D.cnt }

/-- `InsertTmrList`. -/
def insertTmrList (cfg : Env) (s : Kernel) (t : Nat) : Option Kernel :=
  if s.tmr.tmrCnt t = 0 then some s
  else do
    let s := osSchedLock s
    let D ← s.tmr.delta.insert cfg.maxTmr t (s.tmr.tmrCnt t)
    osSchedUnlock cfg { s with tmr := s.tmr.setDelta D }

/-- `RemoveTmrList`. -/
def removeTmrList (cfg : Env) (s : Kernel) (t : Nat) : Option Kernel :=
  let s := osSchedLock s
  osSchedUnlock cfg { s with tmr := s.tmr.setDelta (s.tmr.delta.remove t) }

/-- The first free timer id from `i` on. -/
def freeTmr (m : Tmr) : Nat → Nat → Option Nat
  | 0, _ => none
  | n + 1, i => if m.TmrIDVessel i then freeTmr m n (i + 1) else some i

/-- `CoCreateTmr`: the timer id, or `E_CREATE_FAIL`. `tmrType` is `TMR_TYPE_ONE_SHOT` (0) or
    `TMR_TYPE_PERIODIC` (1). -/
def coCreateTmr (cfg : Env) (s : Kernel) (tmrType tmrCnt tmrReload func : Nat) :
    Option (Kernel × Nat) :=
  if (tmrType ≠ 0 ∧ tmrType ≠ 1) ∨ func = 0 then some (s, INVALID_ID)
  else
    let s := osSchedLock s
    match freeTmr s.tmr cfg.maxTmr 0 with
    | none => do
      let s ← osSchedUnlock cfg s
      some (s, INVALID_ID)
    | some i => do
      let s ← osSchedUnlock cfg
        { s with tmr := { s.tmr with TmrIDVessel := update s.tmr.TmrIDVessel i true } }
      let m := s.tmr
      some ({ s with tmr := { m with
        tmrPeriodic := update m.tmrPeriodic i (tmrType == 1)
        tmrRunning := update m.tmrRunning i false
        tmrCnt := update m.tmrCnt i tmrCnt
        tmrReload := update m.tmrReload i tmrReload
        tmrCallBack := update m.tmrCallBack i func
        tmrPrev := update m.tmrPrev i none
        tmrNext := update m.tmrNext i none } }, i)

/-- The parameter check of the timer functions. -/
def badTmr (cfg : Env) (s : Kernel) (t : Nat) : Prop :=
  cfg.maxTmr ≤ t ∨ s.tmr.TmrIDVessel t = false

instance (cfg : Env) (s : Kernel) (t : Nat) : Decidable (badTmr cfg s t) :=
  inferInstanceAs (Decidable (_ ∨ _))

/-- `CoStartTmr`. -/
def coStartTmr (cfg : Env) (s : Kernel) (t : Nat) : Option (Kernel × StatusType) :=
  if badTmr cfg s t then some (s, .E_INVALID_ID)
  else if s.tmr.tmrRunning t then some (s, .E_OK)
  else do
    let s ← insertTmrList cfg
      { s with tmr := { s.tmr with tmrRunning := update s.tmr.tmrRunning t true } } t
    some (s, .E_OK)

/-- `tmrState = TMR_STATE_STOPPED`. -/
def stopTmr (s : Kernel) (t : Nat) : Kernel :=
  { s with tmr := { s.tmr with tmrRunning := update s.tmr.tmrRunning t false } }

/-- `CoStopTmr`, test and section in one. -/
def coStopTmr (cfg : Env) (s : Kernel) (t : Nat) : Option (Kernel × StatusType) :=
  if badTmr cfg s t then some (s, .E_INVALID_ID)
  else if ¬ s.tmr.tmrRunning t then some (s, .E_OK)
  else do
    let s ← removeTmrList cfg s t
    some (stopTmr s t, .E_OK)

/-- `CoDelTmr`, test and section in one. The state of the timer is not reset. -/
def coDelTmr (cfg : Env) (s : Kernel) (t : Nat) : Option (Kernel × StatusType) :=
  if badTmr cfg s t then some (s, .E_INVALID_ID)
  else do
    let s ← if s.tmr.tmrRunning t then removeTmrList cfg s t else some s
    some ({ s with tmr := { s.tmr with TmrIDVessel := update s.tmr.TmrIDVessel t false } }, .E_OK)

/-- `CoGetCurTmrCnt`. -/
def coGetCurTmrCnt (cfg : Env) (s : Kernel) (t : Nat) : Nat × StatusType :=
  if badTmr cfg s t then (0, .E_INVALID_ID) else (s.tmr.tmrCnt t, .E_OK)

/-- `CoSetTmrCnt`, test and sections in one. -/
def coSetTmrCnt (cfg : Env) (s : Kernel) (t tmrCnt tmrReload : Nat) :
    Option (Kernel × StatusType) :=
  if badTmr cfg s t then some (s, .E_INVALID_ID)
  else
    let s := { s with tmr := { s.tmr with
      tmrCnt := update s.tmr.tmrCnt t tmrCnt
      tmrReload := update s.tmr.tmrReload t tmrReload } }
    if s.tmr.tmrRunning t then do
      let s ← removeTmrList cfg s t
      let s ← insertTmrList cfg s t
      some (s, .E_OK)
    else some (s, .E_OK)

/-- `(pTmr->tmrCallBack)()`. -/
def callBack (cfg : Env) (s : Kernel) (t : Nat) : Option Kernel :=
  cfg.runCallBack (s.tmr.tmrCallBack t) { s with callBacks := s.callBacks ++ [(t, s.OSTickCnt)] }

/-- The body of the loop of `TmrDispose`, for the timer at the head of the list. -/
def fireTmr (cfg : Env) (s : Kernel) (t : Nat) : Option Kernel :=
  if s.tmr.tmrPeriodic t then do
    let s ← removeTmrList cfg s t
    let s := { s with tmr := { s.tmr with
      tmrCnt := update s.tmr.tmrCnt t (s.tmr.tmrReload t) } }
    let s ← insertTmrList cfg s t
    callBack cfg s t
  else do
    let s ← removeTmrList cfg s t
    callBack cfg (stopTmr s t) t

/-- `TmrDispose`. The fuel is the number of timers; a loop that needs more is `none`. -/
def tmrDispose (cfg : Env) : Nat → Kernel → Option Kernel
  | fuel, s =>
    match s.tmr.TmrList with
    | none => some s
    | some t =>
      if s.tmr.tmrCnt t ≠ 0 then some s
      else
        match fuel with
        | 0 => none
        | fuel + 1 => do
          let s ← fireTmr cfg s t
          tmrDispose cfg fuel s

/-- `isr_TmrDispose`. -/
def isr_TmrDispose (cfg : Env) (s : Kernel) : Option Kernel :=
  if 1 < s.OSSchedLock then some { s with IsrReq := true, TimerReq := true }
  else tmrDispose cfg cfg.maxTmr s

/-- The `CFG_TMR_EN` part of `SysTick_Handler`. -/
def sysTickTmr (cfg : Env) (s : Kernel) : Option Kernel :=
  match s.tmr.TmrList with
  | none => some s
  | some h =>
    if 1 < s.tmr.tmrCnt h then
      some { s with tmr := { s.tmr with tmrCnt := update s.tmr.tmrCnt h (s.tmr.tmrCnt h - 1) } }
    else isr_TmrDispose cfg
      { s with tmr := { s.tmr with tmrCnt := update s.tmr.tmrCnt h 0 } }

/-- `SysTick_Handler`. -/
def sysTick_Handler (cfg : Env) (s : Kernel) : Option Kernel := do
  let s := osSchedLock s
  let s ← sysTickDelay cfg { s with OSTickCnt := s.OSTickCnt + 1 }
  let s ← sysTickTmr cfg s
  osSchedUnlock cfg { s with TaskSchedReq := true }

end CoOS
