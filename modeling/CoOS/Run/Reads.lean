/-
  The pointers through which the scheduler reads (`CFG_ROBIN_EN`).

  `InsertToTCBRdyList` compares the priority of the new task with that of `TCBRunning`,
  `Schedule` compares at its end `TCBNext` with the head that is left in the ready list, and
  `CoSetPriority` compares the running task with the head. Each function is given the list of
  the pointers `TCBRdy` and `TCBRunning` as they stand when it reads a field through them.

  `InsertToTCBRdyList` tests `TCBRunning` for null only after it has read through it, so every
  task created before `CoStartOS` reads through null, the idle task first (`runReads_null`).
-/
import CoOS.Run.Robin

namespace CoOS

open Function (update)
open DList KeyOrder

/-! ## What is read -/

/-- The pointers through which fields are read. -/
abbrev Reads := List (Option Nat)

/-- What is read after a computation, if it gets that far. -/
def readsAfter (x : Option Kernel) (f : Kernel → Reads) : Reads := (x.map f).getD []

/-- `InsertToTCBRdyList`: the robin part reads through `TCBRunning`; the ordered build then reads
    through `TCBRdy`, which it has tested. -/
def insertReads (cfg : Env) (s : Kernel) : Reads :=
  (if cfg.robinEn then [s.TCBRunning] else []) ++
    (if cfg.orderListScheduleEn ∧ s.TCBRdy ≠ none then [s.TCBRdy] else [])

/-- The robin part at the end of `Schedule`: `TCBNext->prio == TCBRdy->prio`. -/
def resetReads (cfg : Env) (s : Kernel) : Reads := if cfg.robinEn then [s.TCBRdy] else []

/-- `Schedule` when it puts the running task back: `InsertToTCBRdyList`, then the end. -/
def preemptReads (cfg : Env) (s : Kernel) (cur rdy : Nat) : Reads :=
  let s := { s with TCBNext := some rdy }
  insertReads cfg s ++ readsAfter ((insertToTCBRdyList cfg s cur).bind fun s =>
    removeFromTCBRdyList cfg s rdy) (resetReads cfg)

/-- `Schedule`: the two priorities and the state of the running task, and what its branch reads. -/
def scheduleReads (cfg : Env) (s : Kernel) : Reads :=
  match s.TCBRdy with
  | none => []
  | some rdy =>
    if s.TCBRunning ≠ s.TCBNext ∨ 1 < s.OSSchedLock ∨ 0 < s.OSIntNesting then []
    else s.TCBRunning :: some rdy :: match s.TCBRunning with
      | none => []
      | some cur =>
        let s := { s with TaskSchedReq := false }
        if s.state cur ≠ .RUNNING then
          readsAfter (removeFromTCBRdyList cfg
            { s with TCBNext := some rdy, state := update s.state rdy .RUNNING } rdy)
            (resetReads cfg)
        else if s.prio rdy < s.prio cur then preemptReads cfg s cur rdy
        else if cfg.robinEn ∧ s.prio cur = s.prio rdy ∧ s.OSCheckTime = s.OSTickCnt then
          preemptReads cfg s cur rdy
        else []

/-- `OsSchedUnlock`. -/
def unlockReads (cfg : Env) (s : Kernel) : Reads :=
  if s.OSSchedLock = 1 then
    readsAfter (if s.IsrReq then cfg.respondSRQ s else some s) fun s =>
      if s.TaskSchedReq then scheduleReads cfg s else []
  else []

/-- `InsertToTCBRdyList` and `OsSchedUnlock` in a locked section. -/
def readyReads (cfg : Env) (s : Kernel) (t : Nat) : Reads :=
  insertReads cfg s ++ readsAfter (insertToTCBRdyList cfg s t) (unlockReads cfg)

/-- `AssignTCB`. -/
def assignReads (cfg : Env) (s : Kernel) : Reads :=
  match s.FreeTCB with
  | none => unlockReads cfg (osSchedLock s)
  | some t => unlockReads cfg { osSchedLock s with FreeTCB := s.TCBnext t }

/-- `CreateTask`. -/
def createTaskReads (cfg : Env) (s : Kernel) (task stk parameter : Nat) : Reads :=
  if task = 0 ∨ stk = 0 ∨ cfg.lowestPrio < parameter &&& 0xff ∨
    (parameter &&& 0xfff00) >>> 8 < 20 then []
  else assignReads cfg s ++ match assignTCB cfg s with
    | some (s, some t) =>
      let s := { s.assigned t (parameter &&& 0xff) (newSlice cfg parameter) with
        FreeTCB := s.FreeTCB }
      readsAfter (if cfg.orderListScheduleEn then some s else activeTaskPri s (parameter &&& 0xff))
        fun s =>
        if parameter >>> 31 = 0 then readyReads cfg (osSchedLock s) t else []
    | _ => []

/-- `CoDelTask` of a task that holds no mutex. -/
def delTaskReads (cfg : Env) (s : Kernel) (t : Nat) : Reads :=
  if cfg.tasks ≤ t ∨ s.state t = .DORMANT ∨ t = 0 ∨
    (s.state t = .RUNNING ∧ s.OSSchedLock ≠ 0) then []
  else
    readsAfter (match s.state t with
      | .READY => removeFromTCBRdyList cfg (osSchedLock s) t
      | .WAITING => leaveWaiting cfg (osSchedLock s) t
      | _ => some (osSchedLock s)) fun s =>
    let s := { s with state := update s.state t .DORMANT, TaskSchedReq := true }
    readsAfter (if cfg.orderListScheduleEn then some s else deleteTaskPri s (s.prio t)) fun s =>
    unlockReads cfg (s.freed t)

/-- `CoSuspendTask`. -/
def suspendTaskReads (cfg : Env) (s : Kernel) (t : Nat) : Reads :=
  if t = 0 ∨ cfg.tasks ≤ t ∨ s.state t = .DORMANT ∨ s.OSSchedLock ≠ 0 ∨ s.state t = .WAITING then []
  else
    readsAfter (if some t ≠ s.TCBRunning then removeFromTCBRdyList cfg (osSchedLock s) t
      else some { osSchedLock s with TaskSchedReq := true }) fun s =>
    unlockReads cfg { s with state := update s.state t .WAITING }

/-- `CoAwakeTask`. -/
def awakeTaskReads (cfg : Env) (s : Kernel) (t : Nat) : Reads :=
  if t = 0 ∨ cfg.tasks ≤ t ∨ s.state t ≠ .WAITING ∨ s.delayTick t ≠ INVALID_VALUE ∨
    s.pnode t ≠ .null ∨ s.eventID t ≠ INVALID_ID ∨ s.mutexID t ≠ INVALID_ID then []
  else readyReads cfg (osSchedLock s) t

/-- `CoTickDelay`. -/
def tickDelayReads (cfg : Env) (s : Kernel) (ticks : Nat) : Reads :=
  if 0 < s.OSIntNesting ∨ ticks = INVALID_VALUE ∨ ticks = 0 ∨ s.OSSchedLock ≠ 0 then []
  else match s.TCBRunning with
    | none => []
    | some r => readsAfter (insertDelayList cfg (osSchedLock s) r ticks) (unlockReads cfg)

/-- `CoResetTaskDelayTick`. -/
def resetDelayReads (cfg : Env) (s : Kernel) (t ticks : Nat) : Reads :=
  if cfg.tasks ≤ t ∨ ¬ s.hasStk t ∨ s.delayTick t = INVALID_VALUE then []
  else
    let s := removeDelayList (osSchedLock s) t
    if ticks = 0 then readyReads cfg s t
    else readsAfter (insertDelayList cfg s t ticks) (unlockReads cfg)

/-- `EventTaskToWait` of a task that leaves the waiting list to be put in anew. -/
def reorderWaitingReads (cfg : Env) (s : Kernel) (t : Nat) : Reads :=
  if s.eventID t ≠ INVALID_ID ∧ s.eventSortType (s.eventID t) = sortPrio then
    let k := osSchedLock (removeEventWaittingList s t)
    readsAfter (linkWaiting cfg { k with eventID := update k.eventID t (s.eventID t) }
      (s.eventID t) t)
      fun k => unlockReads cfg { k with state := update k.state t .WAITING, TaskSchedReq := true }
  else []

/-- `CoSetPriority` of a task without a mutex; with a running task it reads through `TCBRdy`. -/
def setPriorityReads (cfg : Env) (s : Kernel) (t p : Nat) : Reads :=
  if t = 0 ∨ cfg.tasks ≤ t ∨ s.state t = .DORMANT ∨ cfg.lowestPrio < p ∨ s.prio t = p then []
  else readsAfter (changeTaskPri cfg s (s.prio t) p) fun s =>
    let s := { s with prio := update s.prio t p }
    match s.state t with
    | .READY => readsAfter (removeFromTCBRdyList cfg (osSchedLock s) t) fun s => readyReads cfg s t
    | .RUNNING => s.TCBRdy ::
        if prioOf cfg s s.TCBRdy < s.prio t then
          unlockReads cfg { osSchedLock s with TaskSchedReq := true }
        else []
    | _ => reorderWaitingReads cfg s t

/-- `TimeDispose`: one insertion for each task whose time is up. -/
def timeDisposeReads (cfg : Env) : Nat → Kernel → Reads
  | 0, _ => []
  | fuel + 1, s =>
    match s.DlyList with
    | none => []
    | some t =>
      if s.delayTick t ≠ 0 then []
      else
        let s := if s.eventID t ≠ INVALID_ID then removeEventWaittingList s t else s
        let s := dropFlagNode s t
        let s := { s with
          delayTick := update s.delayTick t INVALID_VALUE
          DlyList := s.TCBnext t
          TCBnext := update s.TCBnext t none }
        insertReads cfg s ++ readsAfter (insertToTCBRdyList cfg s t) fun s =>
          timeDisposeReads cfg fuel (match s.DlyList with
            | none => s
            | some h => { s with TCBprev := update s.TCBprev h none })

/-- The delay part of `SysTick_Handler`. -/
def sysTickDelayReads (cfg : Env) (s : Kernel) : Reads :=
  match s.DlyList with
  | none => []
  | some h =>
    if 1 < s.delayTick h ∨ 1 < s.OSSchedLock then []
    else timeDisposeReads cfg cfg.tasks { s with delayTick := update s.delayTick h 0 }

/-- `SysTick_Handler`. -/
def sysTickReads (cfg : Env) (s : Kernel) : Reads :=
  let s := { osSchedLock s with OSTickCnt := s.OSTickCnt + 1 }
  sysTickDelayReads cfg s ++
    readsAfter ((sysTickDelay cfg s).bind (sysTickTmr cfg)) fun s =>
      unlockReads cfg { s with TaskSchedReq := true }

/-- The calls of the runs in question. -/
def Call.reads (cfg : Env) (k : Kernel) : Call → Reads
  | .createTask task stk parameter => createTaskReads cfg k task stk parameter
  | .delTask t => delTaskReads cfg k t
  | .exitTask => (k.TCBRunning.map fun r => delTaskReads cfg k r).getD []
  | .suspendTask t => suspendTaskReads cfg k t
  | .awakeTask t => awakeTaskReads cfg k t
  | .setPriority t p => setPriorityReads cfg k t p
  | .tickDelay n => tickDelayReads cfg k n
  | .resetDelay t n => resetDelayReads cfg k t n
  | _ => []

def Sys.reads (cfg : Env) (m : Sys) : Act → Reads
  | .call c => c.reads cfg.served m.k
  | .tick => sysTickReads cfg.served m.k
  | .resume => []

/-- `CoInitOS`, which creates the idle task. -/
def initReads (cfg : Env) (i : Idle) : Reads :=
  createTaskReads cfg (Kernel.start cfg) i.task i.stk
    (cfg.lowestPrio ||| ((i.stkSz <<< 8) &&& 0x000FFF00))

/-- The creations before `CoStartOS`. -/
def setUpReads (cfg : Env) : Kernel → List Setup → Reads
  | _, [] => []
  | k, u :: us => (match u with
      | .task entry stk parameter => createTaskReads cfg k entry stk parameter
      | _ => []) ++ readsAfter (u.exec cfg k) fun k => setUpReads cfg k us

/-- `CoStartOS`. -/
def startReads (cfg : Env) (k : Kernel) : Reads :=
  readsAfter (removeFromTCBRdyList cfg
    { k with TCBRunning := some 0, TCBNext := some 0, state := update k.state 0 .RUNNING } 0)
    (unlockReads cfg)

/-- From `CoInitOS` to the end of `CoStartOS`. -/
def bootReads (cfg : Env) (i : Idle) (us : List Setup) : Reads :=
  initReads cfg.served i ++
    readsAfter (coInitOS cfg.served Kernel.zero i.task i.stk i.stkSz) fun k =>
      setUpReads cfg.served k us ++ readsAfter (setUp cfg.served k us) (startReads cfg.served)

/-- The steps `as` from `m` on, without interrupts that post. -/
def stepsReads (cfg : Env) : Sys → List Act → Reads
  | _, [] => []
  | m, a :: as => m.reads cfg a ++ ((m.step cfg [] a).map fun m => stepsReads cfg m as).getD []

/-- A whole run: `CoInitOS`, the creations `us`, `CoStartOS`, and the steps `as`. -/
def runReads (cfg : Env) (i : Idle) (us : List Setup) (as : List Act) : Reads :=
  bootReads cfg i us ++ ((boot cfg i us).map fun m => stepsReads cfg m as).getD []

/-! ## Before `CoStartOS` -/

section Before

variable {cfg : Env} {s s' : Kernel} {t : Nat}

theorem mem_readsAfter {x : Option Kernel} {f : Kernel → Reads} {a : Option Nat} :
    a ∈ readsAfter x f ↔ ∃ k, x = some k ∧ a ∈ f k := by
  unfold readsAfter
  cases x with
  | none => exact ⟨fun h => absurd h List.not_mem_nil, fun ⟨_, e, _⟩ => nomatch e⟩
  | some k => exact ⟨fun h => ⟨k, rfl, h⟩, fun ⟨_, e, h⟩ => Option.some.inj e ▸ h⟩

theorem readsAfter_some (k : Kernel) (f : Kernel → Reads) : readsAfter (some k) f = f k := rfl

/-- An insertion reads through null exactly when nobody runs. -/
theorem null_insertReads (hrob : cfg.robinEn = true) :
    none ∈ insertReads cfg s ↔ s.TCBRunning = none := by
  have hrdy : none ∉ if cfg.orderListScheduleEn ∧ s.TCBRdy ≠ none then [s.TCBRdy] else [] := by
    split
    · next h => exact fun e => h.2 (List.mem_singleton.mp e).symm
    · exact List.not_mem_nil
  unfold insertReads
  rw [if_pos hrob, List.mem_append, List.mem_singleton, or_iff_left hrdy]
  exact eq_comm

/-- A task that is created ready while nobody runs. -/
theorem createTask_null (hrob : cfg.robinEn = true) (hrun : s.TCBRunning = none)
    (hl : s.OSSchedLock ≠ 0) (hi : s.IsrReq = false) {task stk parameter : Nat}
    (hw : parameter >>> 31 = 0) (hc : createTask cfg s task stk parameter = some (s', t))
    (ht : t ≠ INVALID_ID) : none ∈ createTaskReads cfg s task stk parameter := by
  unfold createTask at hc
  dsimp only at hc
  split at hc
  · exact absurd (congrArg Prod.snd (Option.some.inj hc)).symm ht
  next hbad =>
  rw [assignTCB_locked hl hi, Option.bind_eq_bind, Option.bind_some] at hc
  unfold createTaskReads
  rw [if_neg hbad, assignTCB_locked hl hi]
  cases hfree : s.FreeTCB with
  | none =>
    rw [hfree] at hc
    exact absurd (congrArg Prod.snd (Option.some.inj hc)).symm ht
  | some u =>
    rw [hfree] at hc
    dsimp only at hc ⊢
    simp only [Option.bind_eq_bind] at hc
    rw [ite_bind] at hc
    obtain ⟨k, hk, -⟩ := Option.bind_eq_some_iff.mp hc
    refine List.mem_append_right _ (mem_readsAfter.mpr ⟨k, hk, ?_⟩)
    rw [if_pos hw]
    refine List.mem_append_left _ ((null_insertReads hrob).mpr ?_)
    have hslot : k.slot = (s.assigned u (parameter &&& 0xff) (newSlice cfg parameter)).slot := by
      have htab : Ensures (if cfg.orderListScheduleEn then
          some (s.assigned u (parameter &&& 0xff) (newSlice cfg parameter))
          else activeTaskPri (s.assigned u (parameter &&& 0xff) (newSlice cfg parameter))
            (parameter &&& 0xff)) fun k =>
          k.slot = (s.assigned u (parameter &&& 0xff) (newSlice cfg parameter)).slot :=
        .ite (fun _ => .some rfl) fun _ => activeTaskPri_slot _ _
      exact htab k hk
    exact (congrArg (fun v : Slot => v.frame.TCBRunning) hslot).trans hrun

/-- `CoInitOS` creates the idle task while nobody runs. -/
theorem initReads_null (hrob : cfg.robinEn = true) (i : Idle) : none ∈ initReads cfg i := by
  have hlp : cfg.lowestPrio < 256 := by
    have := cfg.lowestPrio_le
    omega
  obtain ⟨p1, p2, p3⟩ := parameter_fields hlp i.stkSz_lt
  have h := start_before cfg
  have hfree : (Ghost.start cfg).tcb.lst .free = 0 :: (List.range cfg.maxUserTasks).map Nat.succ :=
    List.range_succ_eq_map
  obtain ⟨k, g, e1, -⟩ := @createTask_locked cfg _ _ _ _ h.coh h.locked h.fresh.req i.task i.stk
    (cfg.lowestPrio ||| ((i.stkSz <<< 8) &&& 0x000FFF00)) i.task_ne i.stk_ne (by rw [p1])
    (by rw [p2]; have := i.stkSz_ge; omega) hfree
  exact createTask_null hrob h.running h.locked h.fresh.req p3 e1 (by decide)

end Before

/-- In every run the robin part of `InsertToTCBRdyList` reads `TCBRunning->prio` with `TCBRunning`
    null. -/
theorem runReads_null {cfg : Env} (hrob : cfg.robinEn = true) (i : Idle) (us : List Setup)
    (as : List Act) : none ∈ runReads cfg i us as :=
  List.mem_append_left _ (List.mem_append_left _ (@initReads_null cfg.served hrob i))

/-! ## `Schedule` and `OsSchedUnlock` after `CoStartOS` -/

section Unlock

variable {cfg : Env} {s s' : Kernel} {g : Ghost} {cur hd : Nat} {l : List Nat}

theorem null_resetReads (hrob : cfg.robinEn = true) :
    none ∈ resetReads cfg s ↔ s.TCBRdy = none := by
  unfold resetReads
  rw [if_pos hrob, List.mem_singleton]
  exact eq_comm

theorem resetCheckTime_rdy (cfg : Env) (s : Kernel) (n : Nat) :
    (resetCheckTime cfg s n).TCBRdy = s.TCBRdy := by
  obtain ⟨ct, e⟩ := resetCheckTime_eq cfg s n
  rw [e]

/-- The ready list is empty exactly when `TCBRdy` is null. -/
theorem rdy_none (h : Rep cfg s g) : s.TCBRdy = none ↔ g.tcb.lst .rdy = [] := by
  rw [head_rdy h, List.head?_eq_none_iff]

/-- A task that is put back is in the ready list when its successor has left it. -/
theorem preemptReads_safe (hrob : cfg.robinEn = true) (h : Coh cfg s g) (hcur : cur < cfg.tasks)
    (hrun : s.TCBRunning = some cur) (hnext : s.TCBNext = some cur)
    (hstate : s.state cur = .RUNNING)
    (hreq : s.TaskSchedReq = false) (hl : g.tcb.lst .rdy = hd :: l) (hle : s.prio hd ≤ s.prio cur) :
    none ∉ preemptReads cfg s cur hd := by
  obtain ⟨s', g', e, hs, -, hp⟩ := preempt_spec h hcur hnext hstate hreq hl hle
  have hclive : Live cfg g cur := ⟨hcur, fun e => h.free_not_running e hstate⟩
  have hlive : Live cfg g' cur := (hs.frame.live cur).mpr hclive
  have hne : cur ≠ hd := by
    rintro rfl
    have hloc := (h.rep.tcb.mem .rdy cur).mp (by rw [hl]; exact List.mem_cons_self)
    rw [(h.loc_of_running hclive hstate).1] at hloc
    exact nomatch hloc
  have hready : s'.state cur = .READY := by
    cases hst : s'.state cur with
    | READY => rfl
    | RUNNING =>
      have hn := hs.coh.run cur hlive hst
      rw [hp.next] at hn
      exact absurd (Option.some.inj hn).symm hne
    | WAITING =>
      have hw := (hs.waiting cur).mp hst
      rw [hstate] at hw
      exact nomatch hw
    | DORMANT => exact absurd hst (hs.coh.not_dormant hlive)
  have hmem : cur ∈ g'.tcb.lst .rdy :=
    (hs.coh.rep.tcb.mem .rdy cur).mpr ((hs.coh.ready_iff hlive).mpr hready)
  unfold preempt at e
  obtain ⟨s1, e1, e⟩ := Option.bind_eq_some_iff.mp e
  obtain ⟨s2, e2, e⟩ := Option.bind_eq_some_iff.mp e
  have hrdy : s'.TCBRdy = s2.TCBRdy := by
    rw [← Option.some.inj e]
    exact resetCheckTime_rdy ..
  unfold preemptReads
  dsimp only
  rw [List.mem_append, null_insertReads hrob, e1, Option.bind_some, e2, readsAfter_some,
    null_resetReads hrob, ← hrdy, rdy_none hs.coh.rep]
  rintro (e3 | e3)
  · rw [show s.TCBRunning = none from e3] at hrun
    exact nomatch hrun
  · exact List.ne_nil_of_mem hmem e3

/-- `Schedule` when it does not return at once. -/
theorem scheduleReads_eq (hrd : s.TCBRdy = some hd) (hrun : s.TCBRunning = some cur)
    (hnext : s.TCBNext = some cur) (hlock : s.OSSchedLock ≤ 1) (hnest : s.OSIntNesting = 0) :
    scheduleReads cfg s = some cur :: some hd ::
      if s.state cur ≠ .RUNNING then
        readsAfter (removeFromTCBRdyList cfg { s with
          TaskSchedReq := false, TCBNext := some hd, state := update s.state hd .RUNNING } hd)
          (resetReads cfg)
      else if s.prio hd < s.prio cur then preemptReads cfg { s with TaskSchedReq := false } cur hd
      else if cfg.robinEn ∧ s.prio cur = s.prio hd ∧ s.OSCheckTime = s.OSTickCnt then
        preemptReads cfg { s with TaskSchedReq := false } cur hd
      else [] := by
  have hcond : ¬ (s.TCBRunning ≠ s.TCBNext ∨ 1 < s.OSSchedLock ∨ 0 < s.OSIntNesting) := by
    rw [hrun, hnext, hnest]
    simp only [ne_eq, not_true, false_or, Nat.lt_irrefl, or_false]
    omega
  unfold scheduleReads
  split
  · next e =>
    rw [hrd] at e
    exact nomatch e
  · next hd' e =>
    obtain rfl : hd = hd' := Option.some.inj (hrd.symm.trans e)
    rw [if_neg hcond]
    refine congrArg₂ List.cons hrun (congrArg (some hd :: ·) ?_)
    split
    · next e' =>
      rw [hrun] at e'
      exact nomatch e'
    · next cur' e' =>
      obtain rfl : cur = cur' := Option.some.inj (hrun.symm.trans e')
      rfl

/-- **Schedule** reads through null exactly when it replaces a task that has stopped by the only
    ready one. -/
theorem null_scheduleReads (hrob : cfg.robinEn = true) (h : Coh cfg s g) (hcur : cur < cfg.tasks)
    (hrun : s.TCBRunning = some cur) (hnext : s.TCBNext = some cur) (hlock : s.OSSchedLock ≤ 1) :
    none ∈ scheduleReads cfg s ↔ s.state cur ≠ .RUNNING ∧ ∃ a, g.tcb.lst .rdy = [a] := by
  cases hl : g.tcb.lst .rdy with
  | nil =>
    unfold scheduleReads
    rw [(rdy_none h.rep).mpr hl]
    exact ⟨fun e => absurd e List.not_mem_nil, fun ⟨_, _, e⟩ => nomatch e⟩
  | cons hd l =>
    have hrd : s.TCBRdy = some hd := by
      rw [head_rdy h.rep, hl]
      rfl
    rw [scheduleReads_eq hrd hrun hnext hlock h.nest, List.mem_cons, List.mem_cons,
      or_iff_right (fun e => nomatch e), or_iff_right (fun e => nomatch e)]
    let s1 : Kernel := { s with TaskSchedReq := false }
    have h1 : Coh cfg s1 g := h.congr rfl
    by_cases hstate : s.state cur = .RUNNING
    · have hno : ∀ {x : Reads}, none ∉ x →
          (none ∈ x ↔ s.state cur ≠ .RUNNING ∧ ∃ a, hd :: l = [a]) := fun hx =>
        ⟨fun e => absurd e hx, fun e => absurd hstate e.1⟩
      rw [if_neg (not_not.mpr hstate)]
      have hsafe : s.prio hd ≤ s.prio cur → none ∉ preemptReads cfg s1 cur hd :=
        @preemptReads_safe cfg s1 g cur hd l hrob h1 hcur hrun hnext hstate rfl hl
      split
      · next hlt => exact hno (hsafe (Nat.le_of_lt hlt))
      · split
        · next heq => exact hno (hsafe (Nat.le_of_eq heq.2.1.symm))
        · exact hno List.not_mem_nil
    · rw [if_pos hstate]
      have hloc : g.tcb.loc hd = some .rdy :=
        (h.rep.tcb.mem .rdy hd).mp (by rw [hl]; exact List.mem_cons_self)
      have hrep : Rep cfg { s1 with TCBNext := some hd, state := update s.state hd .RUNNING } g :=
        h.rep.congr rfl rfl rfl rfl rfl
      obtain ⟨T, e1, e2⟩ := hrep.unready hloc
      have hlst : (g.unready hd).tcb.lst .rdy = l := by
        refine (Family.take_lst_self ..).trans ?_
        rw [hl, List.erase_cons_head]
      rw [e1, readsAfter_some, null_resetReads hrob, rdy_none e2, hlst]
      exact ⟨fun e => ⟨hstate, hd, by rw [e]⟩, fun ⟨_, a, e⟩ => (List.cons.inj e).2⟩

/-- **OsSchedUnlock** at the end of a section. -/
theorem Pending.null_unlockReads (h : Pending cfg s g cur) (hrob : cfg.robinEn = true)
    (hl : s.OSSchedLock = 1) (hi : s.IsrReq = false) :
    none ∈ unlockReads cfg s ↔ s.state cur ≠ .RUNNING ∧ ∃ a, g.tcb.lst .rdy = [a] := by
  have hn : ¬ s.IsrReq = true := by
    rw [hi]
    decide
  unfold unlockReads
  rw [if_pos hl, if_neg hn, readsAfter_some]
  by_cases hreq : s.TaskSchedReq = true
  · rw [if_pos hreq]
    exact null_scheduleReads hrob h.coh h.lt h.running h.next (Nat.le_of_eq hl)
  · rw [if_neg hreq]
    exact ⟨fun e => absurd e List.not_mem_nil, fun e => absurd (h.req.resolve_left hreq).1 e.1⟩

/-- A task that runs on. -/
theorem Pending.unlockReads_safe (h : Pending cfg s g cur) (hrob : cfg.robinEn = true)
    (hl : s.OSSchedLock = 1) (hi : s.IsrReq = false) (hst : s.state cur = .RUNNING) :
    none ∉ unlockReads cfg s := fun e => ((h.null_unlockReads hrob hl hi).mp e).1 hst

/-- Another task becomes ready. -/
theorem Pending.readyReads_safe {t : Nat} (h : Pending cfg s g cur) (hrob : cfg.robinEn = true)
    (hl : s.OSSchedLock = 1) (hi : s.IsrReq = false) (hst : s.state cur = .RUNNING)
    (hlive : Live cfg g t) (ho : g.tcb.loc t = none) (he : g.evt.loc t = none) (htc : t ≠ cur) :
    none ∉ readyReads cfg s t := by
  obtain ⟨L, T, ct, req, e1, e2⟩ := h.insert hlive ho he htc
  unfold readyReads
  rw [List.mem_append, null_insertReads hrob, e1, readsAfter_some, h.running]
  rintro (e | e)
  · exact nomatch e
  · exact e2.unlockReads_safe hrob hl hi ((Function.update_of_ne (Ne.symm htc) ..).trans hst) e

/-- `InsertToTCBRdyList` overwrites the state of the task. -/
theorem readyReads_state (cfg : Env) (s : Kernel) (t : Nat) (st : TaskState) :
    readyReads cfg { s with state := update s.state t st } t = readyReads cfg s t := by
  unfold readyReads
  rw [insertToTCBRdyList_state]
  rfl

end Unlock

end CoOS
