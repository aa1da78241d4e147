/-
  Round robin among tasks of one priority, in every run: start-up establishes `Robin`
  (`boot_robin`) and the steps that `RobinStep` allows keep it (`Robin.step`).
-/
import CoOS.Run.SliceCalls

namespace CoOS

open Function (update)
open DList KeyOrder

/-! ## Runs -/

/-- A call of the runs in question, on a TCB other than the last one before its first use. The
    running task is not given the priority of the head of the ready list, unless its slice end
    is ahead anyway; in the binary build the priority of a ready task is left alone. -/
def Call.RobinFine (cfg : Env) (k : Kernel) : Call → Prop
  | .createTask .. | .exitTask => True
  | .delTask t | .suspendTask t | .awakeTask t => t + 1 = cfg.tasks → k.hasStk t = true
  | .setPriority t p => (t + 1 = cfg.tasks → k.hasStk t = true) ∧
    (cfg.orderListScheduleEn = true ∨ k.state t ≠ .READY) ∧
    (k.TCBRunning = some t → k.TCBRdy.map k.prio = some p → k.OSTickCnt < k.OSCheckTime)
  | .tickDelay n => n < 2 ^ 31
  | _ => False

instance (cfg : Env) (k : Kernel) (c : Call) : Decidable (c.RobinFine cfg k) :=
  match c with
  | .createTask .. | .exitTask => inferInstanceAs (Decidable True)
  | .delTask t | .suspendTask t | .awakeTask t =>
    inferInstanceAs (Decidable (t + 1 = cfg.tasks → k.hasStk t = true))
  | .setPriority .. => inferInstanceAs (Decidable (_ ∧ _ ∧ _))
  | .tickDelay n => inferInstanceAs (Decidable (n < 2 ^ 31))
  | .resetDelay .. | .accept .. | .pend .. | .post .. | .createFlag .. | .delFlag .. | .setFlag _
  | .clearFlag _ | .acceptFlag _ | .acceptFlags .. | .waitFlag .. | .waitFlags .. | .enterMutex _
  | .leaveMutex _ => inferInstanceAs (Decidable False)

/-- The steps of the runs in question. -/
def RobinStep (cfg : Env) (m : Sys) (rs : List SQC) : Act → Prop
  | .call c => rs = [] ∧ c.RobinFine cfg m.k
  | .tick => rs = []
  | .resume => False

instance (cfg : Env) (m : Sys) (rs : List SQC) (a : Act) : Decidable (RobinStep cfg m rs a) :=
  match a with
  | .call c => inferInstanceAs (Decidable (rs = [] ∧ c.RobinFine cfg m.k))
  | .tick => inferInstanceAs (Decidable (rs = []))
  | .resume => inferInstanceAs (Decidable False)

section Runs

variable {cfg : Env} {m m' m0 : Sys} {g : Ghost} {r : Nat} {F : List Nat} {rs : List SQC}
  {i : Idle} {us : List Setup}

theorem RobinStep.tame {act : Act} (h : RobinStep cfg m rs act) : Tame cfg m rs act := by
  have hor : ∀ t, (t + 1 = cfg.tasks → m.k.hasStk t = true) →
      m.k.alive cfg t ∨ (¬ m.k.alive cfg t ∧ (t + 1 = cfg.tasks → m.k.hasStk t = true)) :=
    fun t ht => (em (m.k.alive cfg t)).imp id fun e => ⟨e, ht⟩
  cases act with
  | call c =>
    obtain ⟨hrs, hc⟩ := h
    cases c with
    | createTask task stk parameter => exact Or.inl hrs
    | exitTask => exact Or.inl trivial
    | delTask t => exact hor t hc
    | suspendTask t => exact hor t hc
    | awakeTask t => exact hor t hc
    | setPriority t p => exact (hor t hc.1).imp (fun e => ⟨e, hc.2.1⟩) id
    | tickDelay n => exact Or.inl hc
    | _ => exact hc.elim
  | resume => trivial
  | tick => trivial

theorem Call.exec_robin (h : Inv cfg m g r F) (hr : r ≠ 0) (hR : Robin m.k)
    (hrob : cfg.robinEn = true) (hsl : 0 < cfg.defaultSlice) {c : Call} (hc : c.RobinFine cfg m.k) :
    Ensures (c.exec cfg.served m.k) fun x => Robin x.1 := by
  have hst := h.stable
  have hlive : ∀ {t}, m.k.alive cfg t → Live cfg.served g t :=
    fun ha => (alive_iff hst.coh.rep _).mp ha
  have hrej : c.Rejected cfg m.k → Ensures (c.exec cfg.served m.k) fun x => Robin x.1 := by
    intro hc
    obtain ⟨st, -, e⟩ := @Call.Rejected.exec cfg.served m.k g r hst c hc
    rw [e]
    exact .some hR
  cases c with
  | createTask task stk parameter =>
    exact Ensures.map (createTask_robin hst hr h.req hR hrob hsl task stk parameter)
  | exitTask =>
    refine Ensures.map ?_
    rw [coExitTask_eq hst]
    exact coDelTask_robin hst h.req hR hrob hst.picked.live (h.noMutex.id r hst.picked.live)
  | delTask t =>
    by_cases ha : m.k.alive cfg t
    · exact Ensures.map (coDelTask_robin hst h.req hR hrob (hlive ha) (h.noMutex.id t (hlive ha)))
    · exact hrej ⟨ha, hc⟩
  | suspendTask t =>
    by_cases ha : m.k.alive cfg t
    · exact Ensures.map (coSuspendTask_robin hst h.req hR hrob (hlive ha))
    · exact hrej ⟨ha, hc⟩
  | awakeTask t => exact Ensures.map (coAwakeTask_robin hst h.req hR hrob t)
  | setPriority t p =>
    by_cases ha : m.k.alive cfg t
    · refine Ensures.map (coSetPriority_robin hst h.req hR hrob (hlive ha)
        (h.noMutex.id t (hlive ha)) hc.2.1 ?_)
      rintro rfl a ha he
      refine hc.2.2 hst.running ?_
      rw [ha, ← he]
      rfl
    · exact hrej ⟨ha, hc.1⟩
  | tickDelay n => exact Ensures.map (coTickDelay_robin hst h.req hR hrob n)
  | _ => exact hc.elim

/-- One step. -/
theorem Robin.step (hR : Robin m.k) (h : Inv cfg m g r F) (hrob : cfg.robinEn = true)
    (hsl : 0 < cfg.defaultSlice) {act : Act} (hok : RobinStep cfg m rs act)
    (hs : m.step cfg rs act = some m') : Robin m'.k := by
  obtain ⟨hx, -⟩ := Option.filter_eq_some_iff.mp hs
  unfold Sys.exec at hx
  cases act with
  | call c =>
    obtain ⟨rfl, hc⟩ := hok
    rw [h.stable.running] at hx
    dsimp only at hx
    split at hx
    · exact nomatch hx
    · next hn =>
      obtain ⟨x, e1, e2⟩ := Option.map_eq_some_iff.mp hx
      rw [← e2]
      exact takeSwitch_robin (Call.exec_robin h (not_or.mp hn).1 hR hrob hsl hc x e1)
  | resume => exact hok.elim
  | tick =>
    obtain rfl : rs = [] := hok
    obtain ⟨k, e1, e2⟩ := Option.map_eq_some_iff.mp hx
    rw [← e2]
    exact takeSwitch_robin (sysTick_robin h.stable h.req hR hrob k e1)

end Runs

/-! ## Start-up -/

/-- What the creations before `CoStartOS` leave alone. -/
structure Early where
  hasStk : Nat → Bool
  timeSlice : Nat → Nat
  TCBRunning : Option Nat
  OSSchedLock : Nat
  OSCheckTime : Nat
  OSTickCnt : Nat

def Kernel.early (s : Kernel) : Early where
  hasStk := s.hasStk
  timeSlice := s.timeSlice
  TCBRunning := s.TCBRunning
  OSSchedLock := s.OSSchedLock
  OSCheckTime := s.OSCheckTime
  OSTickCnt := s.OSTickCnt

def Early.locked (v : Early) : Early := { v with OSSchedLock := v.OSSchedLock + 1 }

/-- Before `CoStartOS`: nobody runs and the clock stands, so no insertion moves the slice end. -/
structure Early.Ok (v : Early) : Prop where
  slices : ∀ t, v.hasStk t = true → 0 < v.timeSlice t
  running : v.TCBRunning = none
  lock : 0 < v.OSSchedLock
  check : v.OSCheckTime = v.OSTickCnt

section Early

variable {cfg : Env} {s : Kernel} {v : Early}

theorem osSchedUnlock_early (h : s.early = v.locked) (hv : 0 < v.OSSchedLock) :
    Ensures (osSchedUnlock cfg s) fun s' => s'.early = v := by
  have hl : s.OSSchedLock = v.OSSchedLock + 1 := congrArg Early.OSSchedLock h
  rw [osSchedUnlock_nested cfg (by omega)]
  refine .some ?_
  change { s.early with OSSchedLock := s.OSSchedLock - 1 } = v
  rw [h, hl]
  rfl

theorem creatEvent_early (h : s.early = v) (hv : 0 < v.OSSchedLock) (ty : EventType) (sort : Nat)
    (ptr : EventPtr) : Ensures (creatEvent cfg s ty sort ptr) fun x => x.1.early = v := by
  have h1 : (osSchedLock s).early = v.locked := congrArg Early.locked h
  unfold creatEvent
  dsimp only
  split
  · exact Ensures.bind (osSchedUnlock_early h1 hv) fun s2 h2 => .some h2
  · exact Ensures.bind (osSchedUnlock_early (by exact h1) hv) fun s2 h2 => .some h2

theorem insertToTCBRdyList_early (hr : s.TCBRunning = none) (t : Nat) :
    Ensures (insertToTCBRdyList cfg s t) fun s' => s'.early = s.early := by
  intro s' e
  have hf : s'.frame = s.frame := insertToTCBRdyList_frame cfg t rfl s' e
  have hc : s'.OSCheckTime = s.OSCheckTime := by
    rw [(insertToTCBRdyList_head cfg s t s' e).2.1]
    unfold robinCheck
    rw [hr]
  have h1 : s'.early = ⟨s'.frame.hasStk, s'.frame.timeSlice, s'.frame.TCBRunning,
    s'.frame.OSSchedLock, s'.OSCheckTime, s'.frame.OSTickCnt⟩ := rfl
  rw [h1, hf, hc]
  rfl

theorem createTask_early (h : s.early.Ok) (hsl : 0 < cfg.defaultSlice) (task stk parameter : Nat) :
    Ensures (createTask cfg s task stk parameter) fun x => x.1.early.Ok := by
  have hlock : (osSchedLock s).early = s.early.locked := rfl
  have hassign : Ensures (assignTCB cfg s) fun x => x.1.early = s.early := by
    unfold assignTCB
    dsimp only
    split
    · exact Ensures.bind (osSchedUnlock_early hlock h.lock) fun s2 h2 => .some h2
    · exact Ensures.bind (osSchedUnlock_early (by exact hlock) h.lock) fun s2 h2 => .some h2
  have hend : ∀ {k : Kernel} (t : Nat), k.early.Ok → Ensures (if parameter >>> 31 = 0 then do
        let s ← insertToTCBRdyList cfg (osSchedLock k) t
        let s ← osSchedUnlock cfg s
        some (s, t)
      else some ({ k with state := update k.state t .WAITING }, t)) fun x => x.1.early.Ok := by
    intro k t hk
    refine .ite (fun _ => ?_) fun _ => .some hk
    refine Ensures.bind (insertToTCBRdyList_early (s := osSchedLock k) hk.running t) fun k1 e1 => ?_
    refine Ensures.bind (osSchedUnlock_early (v := k.early) e1 hk.lock) fun k2 e2 => .some ?_
    rw [e2]
    exact hk
  unfold createTask
  refine .ite (fun _ => .some h) fun _ => ?_
  refine Ensures.bind hassign fun x hx => ?_
  dsimp only
  split
  · rw [← hx] at h
    exact .some h
  · next t _ =>
    have hs : ∀ u, x.1.hasStk u = true → 0 < x.1.timeSlice u := by
      rw [show x.1.hasStk = s.hasStk from congrArg Early.hasStk hx,
        show x.1.timeSlice = s.timeSlice from congrArg Early.timeSlice hx]
      exact h.slices
    let k : Kernel := { x.1 with
      hasStk := update x.1.hasStk t true
      prio := update x.1.prio t (parameter &&& 0xff)
      delayTick := update x.1.delayTick t INVALID_VALUE
      TCBnext := update x.1.TCBnext t none
      TCBprev := update x.1.TCBprev t none
      timeSlice := update x.1.timeSlice t (newSlice cfg parameter)
      pnode := update x.1.pnode t .null
      eventID := update x.1.eventID t INVALID_ID
      pmail := update x.1.pmail t 0
      waitNext := update x.1.waitNext t none
      waitPrev := update x.1.waitPrev t none
      mutexID := update x.1.mutexID t INVALID_ID }
    rw [← hx] at h
    have hk : k.early.Ok :=
      ⟨slices_update (newSlice_pos hsl parameter) hs, h.running, h.lock, h.check⟩
    refine .ite (fun _ => hend t hk) fun _ => ?_
    have hact : Ensures (activeTaskPri k (parameter &&& 0xff)) fun k' => k'.early = k.early := by
      unfold activeTaskPri
      refine Ensures.skip fun y => ?_
      exact .ite (fun _ => .some rfl) fun _ => .some rfl
    refine Ensures.bind hact fun k1 e1 => ?_
    rw [← e1] at hk
    exact hend t hk

theorem Setup.exec_early (h : s.early.Ok) (hsl : 0 < cfg.defaultSlice) (u : Setup) :
    Ensures (u.exec cfg s) fun s' => s'.early.Ok := by
  have hlock : (osSchedLock s).early = s.early.locked := rfl
  have hend : ∀ {res : Option (Kernel × Nat)}, (Ensures res fun x => x.1.early = s.early) →
      Ensures (res.map Prod.fst) fun s' => s'.early.Ok := fun he =>
    Ensures.map (he.imp fun x e => by
      rw [e]
      exact h)
  cases u with
  | task entry stk parameter => exact Ensures.map (createTask_early h hsl entry stk parameter)
  | sem initCnt maxCnt sortType =>
    refine hend ?_
    unfold coCreateSem
    refine .ite (fun _ => .some rfl) fun _ => ?_
    refine Ensures.bind (creatEvent_early rfl h.lock _ _ _) fun x hx => ?_
    dsimp only
    split
    · exact .some hx
    · exact .some hx
  | mbox sortType =>
    refine hend ?_
    unfold coCreateMbox
    refine Ensures.bind (creatEvent_early rfl h.lock _ _ _) fun x hx => ?_
    dsimp only
    split
    · exact .some hx
    · exact .some hx
  | queue qStart size sortType =>
    refine hend ?_
    unfold coCreateQueue
    refine .ite (fun _ => .some rfl) fun _ => ?_
    dsimp only
    split
    · exact Ensures.bind (osSchedUnlock_early hlock h.lock) fun s1 h1 => .some h1
    · refine Ensures.bind (osSchedUnlock_early (by exact hlock) h.lock) fun s1 h1 => ?_
      exact Ensures.bind (creatEvent_early (by exact h1) h.lock _ _ _) fun x hx => .some hx
  | flag auto init =>
    refine hend ?_
    unfold coCreateFlag
    dsimp only
    split
    · exact Ensures.bind (osSchedUnlock_early (by exact hlock) h.lock) fun s1 h1 => .some h1
    · exact Ensures.bind (osSchedUnlock_early hlock h.lock) fun s1 h1 => .some h1
  | mutex =>
    refine hend ?_
    unfold coCreateMutex
    refine .ite (fun _ => ?_) fun _ => ?_
    · exact Ensures.bind (osSchedUnlock_early (by exact hlock) h.lock) fun s1 h1 => .some h1
    · exact Ensures.bind (osSchedUnlock_early hlock h.lock) fun s1 h1 => .some h1

theorem setUp_early (hsl : 0 < cfg.defaultSlice) (us : List Setup) : ∀ {s : Kernel}, s.early.Ok →
    Ensures (setUp cfg s us) fun s' => s'.early.Ok := by
  induction us with
  | nil => exact fun h => .some h
  | cons u us ih =>
    intro s h
    unfold setUp
    rw [List.foldlM_cons]
    exact Ensures.bind (Setup.exec_early h hsl u) fun s1 h1 => ih h1

/-- The first `Schedule` dispatches, since the slice end and the clock are both at 0. -/
theorem boot_robin {m : Sys} {i : Idle} {us : List Setup} (hrob : cfg.robinEn = true)
    (hsl : 0 < cfg.defaultSlice) (hu : ∀ u ∈ us, u.Valid) (hb : boot cfg i us = some m) :
    Robin m.k := by
  obtain ⟨k1, g1, e1, e2, e3, e4⟩ := coInitOS_spec cfg.served i
  obtain ⟨k2, g2, n, f1, f2, f3, -, f5⟩ := setUp_makes us e2 e3 hu
  have h1 : k1.early.Ok := by
    let k0 : Kernel :=
      osSchedLock (createEventList cfg.served (createTCBList cfg.served Kernel.zero))
    have h0 : k0.early.Ok := ⟨(fun _ e => nomatch e), rfl, Nat.one_pos, rfl⟩
    unfold coInitOS at e1
    obtain ⟨x, ex, e1⟩ := Option.bind_eq_some_iff.mp e1
    rw [← Option.some.inj e1]
    exact @createTask_early cfg.served k0 h0 hsl _ _ _ x ex
  have h2 : k2.early.Ok := @setUp_early cfg.served hsl us k1 h1 k2 f1
  unfold boot at hb
  rw [e1, Option.bind_eq_bind, Option.bind_some, f1, Option.bind_some] at hb
  obtain ⟨k3, e5, hb⟩ := Option.bind_eq_some_iff.mp hb
  rw [← Option.some.inj hb]
  refine takeSwitch_robin ?_
  let k0 : Kernel := { k2 with
    TCBRunning := some 0, TCBNext := some 0, state := update k2.state 0 .RUNNING }
  have hlive : Live cfg.served g2 0 := (f5 0).mpr (Or.inr ((e4 0).mpr rfl))
  have hstart : Ensures (removeFromTCBRdyList cfg.served k0 0) fun k => Facing k 0 False := by
    have hrep0 : Rep cfg.served k0 g2 := f2.coh.rep.congr rfl rfl rfl rfl rfl
    obtain ⟨T, i1, -⟩ := hrep0.unready f3.idle
    rw [i1]
    refine .some ⟨rfl, rfl, f2.lock, f2.coh.nest, f2.fresh.req, f2.coh.stk 0 hlive, h2.slices,
      fun _ _ _ _ => Or.inr ⟨h2.check.symm, Or.inl f3.req⟩⟩
  exact Ensures.bind hstart (fun k hk => @Facing.unlock cfg.served k 0 hk hrob) k3 e5

end Early

section Main

variable {cfg : Env} {i : Idle} {us : List Setup} {m0 m : Sys}

theorem Reach.robin (hrob : cfg.robinEn = true) (hsl : 0 < cfg.defaultSlice)
    (hu : ∀ u ∈ us, u.Valid) (hb : boot cfg i us = some m0) (h : Reach cfg (RobinStep cfg) m0 m) :
    Robin m.k ∧ ∃ g r F, Inv cfg m g r F := by
  induction h with
  | start =>
    obtain ⟨g, r, hbt, -⟩ := booted hu hb
    exact ⟨boot_robin hrob hsl hu hb, g, r, [], hbt.inv⟩
  | step _ hok hs ih =>
    obtain ⟨hR, g, r, F, hi⟩ := ih
    exact ⟨hR.step hi hrob hsl hok hs, hi.tame hok.tame hs⟩

/-- **Round robin stays armed**: a running task that faces an equal has its slice end ahead. -/
theorem round_robin_armed (hrob : cfg.robinEn = true) (hsl : 0 < cfg.defaultSlice)
    (hu : ∀ u ∈ us, u.Valid) (hb : boot cfg i us = some m0) (h : Reach cfg (RobinStep cfg) m0 m)
    {r a : Nat} (hr : m.k.TCBRunning = some r) (ha : m.k.TCBRdy = some a)
    (hp : m.k.prio r = m.k.prio a) : m.k.OSTickCnt < m.k.OSCheckTime := by
  obtain ⟨hR, g, r', F, hi⟩ := h.robin hrob hsl hu hb
  have hst := hi.stable
  obtain rfl : r = r' := Option.some.inj (hr.symm.trans hst.running)
  exact hR.equals hst (hst.kept.rdy a ha) hp.symm

/-- Two equals, and a task that is raised to their priority. -/
theorem round_robin_armed_shipped : ∃ m0 m, boot shippedEnv shippedIdle
      [.plainTask 5, .plainTask 5, .plainTask 9] = some m0 ∧
    Reach shippedEnv (RobinStep shippedEnv) m0 m ∧ m.k.TCBRunning = some 2 ∧ m.k.TCBRdy = some 3 ∧
    m.k.prio 2 = m.k.prio 3 ∧ m.k.OSTickCnt < m.k.OSCheckTime := by
  obtain ⟨m0, m, h1, h2, h3⟩ := @ran shippedEnv (RobinStep shippedEnv) _ shippedIdle
    [.plainTask 5, .plainTask 5, .plainTask 9] [([], .tick), ([], .tick),
      ([], .call (.tickDelay 4)),
      ([], .tick), ([], .call (.setPriority 3 5))] _
    (fun m => (m.k.TCBRunning, m.k.TCBRdy, m.k.prio 2, m.k.prio 3)) (some 2, some 3, 5, 5)
    (by decide +kernel)
  have hr : m.k.TCBRunning = some 2 := congrArg (fun x => x.1) h3
  have ha : m.k.TCBRdy = some 3 := congrArg (fun x => x.2.1) h3
  have hp : m.k.prio 2 = m.k.prio 3 :=
    (congrArg (fun x => x.2.2.1) h3).trans (congrArg (fun x => x.2.2.2) h3).symm
  exact ⟨m0, m, h1, h2, hr, ha, hp,
    round_robin_armed (by decide) (by decide) (by decide) h1 h2 hr ha hp⟩

/-- The steps that the runs are made of, without conditions. -/
def RobinAct (_ : Sys) (rs : List SQC) : Act → Prop
  | .call (.createTask ..) | .call .exitTask | .call (.delTask _) | .call (.suspendTask _)
  | .call (.awakeTask _) | .call (.setPriority ..) | .call (.tickDelay _) | .tick => rs = []
  | _ => False

instance (m : Sys) (rs : List SQC) (a : Act) : Decidable (RobinAct m rs a) :=
  match a with
  | .call (.createTask ..) | .call .exitTask | .call (.delTask _) | .call (.suspendTask _)
  | .call (.awakeTask _) | .call (.setPriority ..) | .call (.tickDelay _) | .tick =>
    inferInstanceAs (Decidable (rs = []))
  | .call (.resetDelay ..) | .call (.accept ..) | .call (.pend ..) | .call (.post ..)
  | .call (.createFlag ..) | .call (.delFlag ..) | .call (.setFlag _) | .call (.clearFlag _)
  | .call (.acceptFlag _) | .call (.acceptFlags ..) | .call (.waitFlag ..) | .call (.waitFlags ..)
  | .call (.enterMutex _) | .call (.leaveMutex _) | .resume => inferInstanceAs (Decidable False)

/-- The running task lowers itself to the priority of the head of the ready list after the first
    tick: the slice end stays at 0. -/
theorem round_robin_disarmed : ∃ m0 m, boot shippedEnv shippedIdle [.plainTask 5, .plainTask 10] =
      some m0 ∧ Reach shippedEnv RobinAct m0 m ∧ m.k.TCBRunning = some 1 ∧ m.k.TCBRdy = some 2 ∧
    m.k.prio 1 = m.k.prio 2 ∧ ¬ m.k.OSTickCnt ≤ m.k.OSCheckTime := by
  obtain ⟨m0, m, h1, h2, h3⟩ := @ran shippedEnv RobinAct _ shippedIdle
    [.plainTask 5, .plainTask 10] [([], .tick), ([], .call (.setPriority 1 10))] _
    (fun m => (m.k.TCBRunning, m.k.TCBRdy, m.k.prio 1, m.k.prio 2, m.k.OSTickCnt, m.k.OSCheckTime))
    (some 1, some 2, 10, 10, 1, 0) (by decide +kernel)
  have ht : m.k.OSTickCnt = 1 := congrArg (fun x => x.2.2.2.2.1) h3
  have hc : m.k.OSCheckTime = 0 := congrArg (fun x => x.2.2.2.2.2) h3
  refine ⟨m0, m, h1, h2, congrArg (fun x => x.1) h3, congrArg (fun x => x.2.1) h3,
    (congrArg (fun x => x.2.2.1) h3).trans (congrArg (fun x => x.2.2.2.1) h3).symm, ?_⟩
  rw [ht, hc]
  decide

end Main

end CoOS
