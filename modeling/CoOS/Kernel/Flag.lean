/-
  Flags (`flag.c`). A blocked task owns one node, on its stack, so a node is named by its task;
  the nodes form one list, kept in `headNode`, `tailNode`, `nextNode` and `prevNode`.

  A wait is one critical section that tests the flags and, when they are not set, enters the
  list. The flags it consumes are cleared by the caller when it runs again
  (`waitSingleReturn`, `waitMultipleReturn`), not by `CoSetFlag`.

  The calls test `flagActive` before they lock the scheduler, and `CoSetFlag` writes `flagRdy`
  before it does; what each does from `OsSchedLock` on is a function of its own.
-/
import CoOS.Kernel.Task

namespace CoOS

open Function (update)

/-- `1<<id`. -/
def flagBit (id : Nat) : BitVec 32 := 1#32 <<< id

/-- `FLAG_MAX_NUM`. -/
def FLAG_MAX_NUM : Nat := 32

/-- The first inactive flag from `i` on. -/
def freeFlag (active : BitVec 32) : Nat → Nat → Option Nat
  | 0, _ => none
  | n + 1, i => if active &&& flagBit i = 0 then some i else freeFlag active n (i + 1)

/-- `CoCreateFlag`: the id of the flag, or `E_CREATE_FAIL`. -/
def coCreateFlag (cfg : Env) (s : Kernel) (bAutoReset bInitialState : Nat) :
    Option (Kernel × Nat) :=
  let s := osSchedLock s
  match freeFlag s.flagActive FLAG_MAX_NUM 0 with
  | some i => do
    let s ← osSchedUnlock cfg { s with
      flagActive := s.flagActive ||| flagBit i
      flagRdy := s.flagRdy ||| (BitVec.ofNat 32 bInitialState <<< i)
      resetOpt := s.resetOpt ||| (BitVec.ofNat 32 bAutoReset <<< i) }
    some (s, i)
  | none => do
    let s ← osSchedUnlock cfg s
    some (s, INVALID_ID)

/-! ## The waiting list -/

/-- `FlagBlock`, for the running task `t`. -/
def flagBlock (s : Kernel) (t : Nat) (flags : BitVec 32) (waitType : Nat) : Kernel :=
  let s := { s with
    pnode := update s.pnode t (.node t)
    waitFlags := update s.waitFlags t flags
    waitType := update s.waitType t waitType }
  match s.tailNode with
  | none => { s with
      nextNode := update s.nextNode t none
      prevNode := update s.prevNode t none
      headNode := some t
      tailNode := some t }
  | some p => { s with
      nextNode := update (update s.nextNode p (some t)) t none
      prevNode := update s.prevNode t (some p)
      tailNode := some t }

/-- `RemoveFromLink`, for the node of `t`; the loops go on with `nextNode t`, which it keeps. -/
def removeFromLink (cfg : Env) (s : Kernel) (t : Nat) : Option Kernel :=
  let s := removeLinkNode s t
  let s := if s.delayTick t ≠ INVALID_VALUE then removeDelayList s t else s
  let s := { s with pnode := update s.pnode t .ones }
  if some t = s.TCBRunning then some { s with state := update s.state t .RUNNING }
  else insertToTCBRdyList cfg s t

/-- The loop of `CoDelFlag` from the node `pnode` on; `true` when it returns
    `E_TASK_WAITING`. -/
def delFlagLoop (cfg : Env) (id opt : Nat) : Nat → Kernel → Option Nat → Option (Kernel × Bool)
  | _, s, none => some (s, false)
  | 0, _, some _ => none
  | fuel + 1, s, some t =>
    if s.waitFlags t &&& flagBit id ≠ 0 then
      if opt = OPT_DEL_NO_PEND then some (s, true)
      else if opt = OPT_DEL_ANYWAY then
        if s.waitType t = OPT_WAIT_ALL ∧ s.waitFlags t ≠ flagBit id then
          let s := { s with waitFlags := update s.waitFlags t (s.waitFlags t &&& ~~~ flagBit id) }
          delFlagLoop cfg id opt fuel s (s.nextNode t)
        else do
          let s ← removeFromLink cfg s t
          delFlagLoop cfg id opt fuel s (s.nextNode t)
      else delFlagLoop cfg id opt fuel s (s.nextNode t)
    else delFlagLoop cfg id opt fuel s (s.nextNode t)

/-- `CoDelFlag` from its `OsSchedLock` on. -/
def delFlagSection (cfg : Env) (s : Kernel) (id opt : Nat) : Option (Kernel × StatusType) := do
  let s := osSchedLock s
  let (s, waiting) ← delFlagLoop cfg id opt cfg.tasks s s.headNode
  if waiting then
    let s ← osSchedUnlock cfg s
    some (s, .E_TASK_WAITING)
  else
    let s ← osSchedUnlock cfg { s with
      flagActive := s.flagActive &&& ~~~ flagBit id
      flagRdy := s.flagRdy &&& ~~~ flagBit id
      resetOpt := s.resetOpt &&& ~~~ flagBit id }
    some (s, .E_OK)

/-- `CoDelFlag`. -/
def coDelFlag (cfg : Env) (s : Kernel) (id opt : Nat) : Option (Kernel × StatusType) :=
  if 0 < s.OSIntNesting then some (s, .E_CALL)
  else if s.flagActive &&& flagBit id = 0 then some (s, .E_INVALID_ID)
  else delFlagSection cfg s id opt

/-! ## Accepting -/

/-- The check of a flag id. -/
def badFlag (s : Kernel) (id : Nat) : Prop := FLAG_MAX_NUM ≤ id ∨ s.flagActive &&& flagBit id = 0

instance (s : Kernel) (id : Nat) : Decidable (badFlag s id) := inferInstanceAs (Decidable (_ ∨ _))

/-- `CoAcceptSingleFlag` from its `OsSchedLock` on. -/
def acceptFlagSection (cfg : Env) (s : Kernel) (id : Nat) : Option (Kernel × StatusType) := do
  let s := osSchedLock s
  let s ← osSchedUnlock cfg { s with flagRdy := s.flagRdy &&& ~~~ (s.resetOpt &&& flagBit id) }
  some (s, .E_OK)

/-- `CoAcceptSingleFlag`. -/
def coAcceptSingleFlag (cfg : Env) (s : Kernel) (id : Nat) : Option (Kernel × StatusType) :=
  if badFlag s id then some (s, .E_INVALID_ID)
  else if s.flagRdy &&& flagBit id ≠ 0 then acceptFlagSection cfg s id
  else some (s, .E_FLAG_NOT_READY)

/-- Do the ready flags `springFlag` among `flags` suffice? -/
def springs (springFlag flags : BitVec 32) (waitType : Nat) : Prop :=
  (springFlag ≠ 0 ∧ waitType = OPT_WAIT_ANY) ∨ (springFlag = flags ∧ waitType = OPT_WAIT_ALL)

instance (springFlag flags : BitVec 32) (waitType : Nat) :
    Decidable (springs springFlag flags waitType) := inferInstanceAs (Decidable (_ ∨ _))

/-- `CoAcceptMultipleFlags` from its `OsSchedLock` on; it has read `springFlag` before. -/
def acceptFlagsSection (cfg : Env) (s : Kernel) (springFlag flags : BitVec 32) (waitType : Nat) :
    Option (Kernel × BitVec 32 × StatusType) :=
  let s := osSchedLock s
  if springs springFlag flags waitType then do
    let s ← osSchedUnlock cfg { s with flagRdy := s.flagRdy &&& ~~~ (springFlag &&& s.resetOpt) }
    some (s, springFlag, .E_OK)
  else do
    let s ← osSchedUnlock cfg s
    some (s, 0, .E_FLAG_NOT_READY)

/-- `CoAcceptMultipleFlags`. -/
def coAcceptMultipleFlags (cfg : Env) (s : Kernel) (flags : BitVec 32) (waitType : Nat) :
    Option (Kernel × BitVec 32 × StatusType) :=
  if flags &&& s.flagActive ≠ flags then some (s, 0, .E_INVALID_PARAMETER)
  else acceptFlagsSection cfg s (flags &&& s.flagRdy) flags waitType

/-! ## Waiting -/

/-- The blocking of the running task: it enters the flag list, and the delay list with a
    timeout. -/
def flagWait (cfg : Env) (s : Kernel) (flags : BitVec 32) (waitType timeout : Nat) :
    Option Kernel :=
  match s.TCBRunning with
  | none => none
  | some cur => do
    let s := flagBlock s cur flags waitType
    let s ← if timeout = 0 then
        some { s with state := update s.state cur .WAITING, TaskSchedReq := true }
      else insertDelayList cfg s cur timeout
    osSchedUnlock cfg s

/-- `CoWaitForSingleFlag` from its `OsSchedLock` until it returns or its caller is blocked (`none`
    as the status). -/
def waitFlagSection (cfg : Env) (s : Kernel) (id timeout : Nat) :
    Option (Kernel × Option StatusType) :=
  let s := osSchedLock s
  if s.flagRdy &&& flagBit id ≠ 0 then do
    let s ← osSchedUnlock cfg { s with flagRdy := s.flagRdy &&& ~~~ (s.resetOpt &&& flagBit id) }
    some (s, some .E_OK)
  else do
    let s ← flagWait cfg s (flagBit id) OPT_WAIT_ONE timeout
    some (s, none)

/-- `CoWaitForSingleFlag` until it returns or its caller is blocked. -/
def coWaitForSingleFlag (cfg : Env) (s : Kernel) (id timeout : Nat) :
    Option (Kernel × Option StatusType) :=
  if 0 < s.OSIntNesting then some (s, some .E_CALL)
  else if s.OSSchedLock ≠ 0 then some (s, some .E_OS_IN_LOCK)
  else if badFlag s id then some (s, some .E_INVALID_ID)
  else waitFlagSection cfg s id timeout

/-- What is left of `CoWaitForSingleFlag` when its caller `cur` runs again. -/
def waitSingleReturn (cfg : Env) (s : Kernel) (cur id timeout : Nat) :
    Option (Kernel × StatusType) :=
  if timeout ≠ 0 ∧ s.pnode cur = .null then some (s, .E_TIMEOUT)
  else do
    let s := osSchedLock { s with pnode := update s.pnode cur .null }
    let s ← osSchedUnlock cfg { s with flagRdy := s.flagRdy &&& ~~~ (flagBit id &&& s.resetOpt) }
    some (s, .E_OK)

/-- `CoWaitForMultipleFlags` from its `OsSchedLock` on. -/
def waitFlagsSection (cfg : Env) (s : Kernel) (flags : BitVec 32) (waitType timeout : Nat) :
    Option (Kernel × Option (BitVec 32 × StatusType)) :=
  let s := osSchedLock s
  let springFlag := flags &&& s.flagRdy
  if springs springFlag flags waitType then do
    let s ← osSchedUnlock cfg { s with flagRdy := s.flagRdy &&& ~~~ (springFlag &&& s.resetOpt) }
    some (s, some (springFlag, .E_OK))
  else do
    let s ← flagWait cfg s flags waitType timeout
    some (s, none)

/-- `CoWaitForMultipleFlags` until it returns or its caller is blocked. -/
def coWaitForMultipleFlags (cfg : Env) (s : Kernel) (flags : BitVec 32) (waitType timeout : Nat) :
    Option (Kernel × Option (BitVec 32 × StatusType)) :=
  if 0 < s.OSIntNesting then some (s, some (0, .E_CALL))
  else if s.OSSchedLock ≠ 0 then some (s, some (0, .E_OS_IN_LOCK))
  else if flags &&& s.flagActive ≠ flags then some (s, some (0, .E_INVALID_PARAMETER))
  else waitFlagsSection cfg s flags waitType timeout

/-- What is left of `CoWaitForMultipleFlags` when its caller `cur` runs again. -/
def waitMultipleReturn (cfg : Env) (s : Kernel) (cur : Nat) (flags : BitVec 32) (timeout : Nat) :
    Option (Kernel × BitVec 32 × StatusType) :=
  if timeout ≠ 0 ∧ s.pnode cur = .null then some (s, 0, .E_TIMEOUT)
  else do
    let s := osSchedLock { s with pnode := update s.pnode cur .null }
    let springFlag := flags &&& s.flagRdy
    let s ← osSchedUnlock cfg { s with flagRdy := s.flagRdy &&& ~~~ (springFlag &&& s.resetOpt) }
    some (s, springFlag, .E_OK)

/-! ## Setting and clearing -/

/-- `CoClearFlag`. -/
def coClearFlag (s : Kernel) (id : Nat) : Kernel × StatusType :=
  if badFlag s id then (s, .E_INVALID_ID)
  else ({ s with flagRdy := s.flagRdy &&& ~~~ flagBit id }, .E_OK)

/-- Is the node of `t` satisfied by the flags `rdy`? -/
def satisfied (s : Kernel) (rdy : BitVec 32) (t : Nat) : Prop :=
  if s.waitType t = OPT_WAIT_ALL then s.waitFlags t &&& rdy = s.waitFlags t
  else s.waitFlags t &&& rdy ≠ 0

instance (s : Kernel) (rdy : BitVec 32) (t : Nat) : Decidable (satisfied s rdy t) := by
  unfold satisfied
  infer_instance

/-- The loop of `CoSetFlag` from the node `pnode` on. -/
def setFlagLoop (cfg : Env) (id : Nat) : Nat → Kernel → Option Nat → Option Kernel
  | _, s, none => some s
  | 0, _, some _ => none
  | fuel + 1, s, some t =>
    if satisfied s s.flagRdy t then do
      let s ← removeFromLink cfg s t
      if s.resetOpt &&& flagBit id ≠ 0 then some s
      else setFlagLoop cfg id fuel s (s.nextNode t)
    else setFlagLoop cfg id fuel s (s.nextNode t)

/-- `pfcb->flagRdy |= (1<<id)`, with which `CoSetFlag` follows its tests, still unlocked. -/
def writeRdy (s : Kernel) (id : Nat) : Kernel := { s with flagRdy := s.flagRdy ||| flagBit id }

/-- `CoSetFlag` from its `OsSchedLock` on. -/
def setFlagSection (cfg : Env) (s : Kernel) (id : Nat) : Option (Kernel × StatusType) := do
  let s := osSchedLock s
  let s ← setFlagLoop cfg id cfg.tasks s s.headNode
  let s ← osSchedUnlock cfg s
  some (s, .E_OK)

/-- `CoSetFlag`, when nothing comes between its tests, its write and its `OsSchedLock`. -/
def coSetFlag (cfg : Env) (s : Kernel) (id : Nat) : Option (Kernel × StatusType) :=
  if badFlag s id then some (s, .E_INVALID_ID)
  else if s.flagRdy &&& flagBit id ≠ 0 then some (s, .E_OK)
  else setFlagSection cfg (writeRdy s id) id

end CoOS
