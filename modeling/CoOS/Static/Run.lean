/-
  The table counts the tasks that are not DORMANT, and whoever is inserted has its priority in
  it, as long as no task is started again, and no longer (`static_priorities`).
-/
import CoOS.Static.Lists

namespace CoOS

open Function (update)
open DList KeyOrder

namespace Static

/-! ## The operations -/

/-- Between two operations, with the counts right. -/
def Steady (cfg : Env) (B : List Nat) (k : Kernel) : Prop :=
  ∃ rdy r, Between cfg B k (activated cfg B k) rdy r

/-- The operation goes through, keeps the counts right and inserts listed priorities only. -/
def Goes (cfg : Env) (B : List Nat) (x : Option Kernel) (l : Inserts) : Prop :=
  ∃ k', x = some k' ∧ Steady cfg B k' ∧ ∀ x ∈ l, Listed x.1 x.2

section Ops

variable {cfg : Env} {B rdy : List Nat} {k : Kernel} {cnt : Nat → Nat} {r t : Nat}

theorem Between.still (h : Between cfg B k cnt rdy r) : takeSwitch k = k := by
  unfold takeSwitch
  rw [if_pos (h.running.trans h.chosen.next.symm)]

theorem Between.stays (h : Between cfg B k (activated cfg B k) rdy r) :
    Goes cfg B (some (takeSwitch k)) [] := by
  rw [h.still]
  exact ⟨k, rfl, ⟨rdy, r, h⟩, fun x hx => absurd hx List.not_mem_nil⟩

theorem Between.lock_one (h : Between cfg B k cnt rdy r) : (osSchedLock k).OSSchedLock = 1 :=
  congrArg (· + 1) h.lock

/-- The end of an operation. -/
theorem Section.goes {s : Kernel} (h : Section cfg B s cnt rdy r) (hc : cnt = activated cfg B s) :
    ∃ s', osSchedUnlock cfg s = some s' ∧ Steady cfg B (takeSwitch s') ∧
      ∀ x ∈ unlockInserts cfg s, Listed x.1 x.2 := by
  obtain ⟨s', rdy', r', e1, e2, e3, e4⟩ := h.unlock
  rw [hc, ← e3.activated] at e2
  exact ⟨s', e1, ⟨rdy', r', e2⟩, e4⟩

/-- The state in which `CoDelTask` calls `DeleteTaskPri`. -/
theorem Between.stopped (h : Between cfg B k cnt rdy r) (ht : t ∈ B) (hd : k.state t ≠ .DORMANT) :
    ∃ L T rdy', (match k.state t with
        | .READY => removeFromTCBRdyList cfg (osSchedLock k) t
        | .WAITING => leaveWaiting (osSchedLock k) t
        | _ => some (osSchedLock k)) = some ((osSchedLock k).unreadied L T) ∧
      Lists cfg B { (osSchedLock k).unreadied L T with
        state := update k.state t .DORMANT, TaskSchedReq := true } cnt rdy' := by
  have hl : Lists cfg B (osSchedLock k) cnt rdy := h.chosen.lists.congr rfl
  have hno : k.state t ≠ .READY → t ∉ rdy := fun e hm => e ((hl.mem t).mp hm).2
  cases hs : k.state t with
  | READY =>
    obtain ⟨l1, l2, rfl⟩ := List.append_of_mem ((hl.mem t).mpr ⟨ht, hs⟩)
    obtain ⟨T, e1, e2⟩ := hl.remove (osSchedLock k) rfl rfl rfl
    exact ⟨_, T, l1 ++ l2, e1, hl.taken e2 .DORMANT nofun rfl⟩
  | RUNNING =>
    have hn := hno (by rw [hs]; exact nofun)
    exact ⟨k.rdyLinks, k.priTable, rdy, rfl, hl.aside hn .DORMANT nofun (fun _ => hd) rfl⟩
  | WAITING =>
    have hn := hno (by rw [hs]; exact nofun)
    obtain ⟨q1, q2, q3⟩ := hl.quiet t ht
    refine ⟨k.rdyLinks, k.priTable, rdy, ?_, hl.aside hn .DORMANT nofun (fun _ => hd) rfl⟩
    unfold leaveWaiting unlinkFlagNode
    rw [if_neg (not_not_intro q1)]
    dsimp only
    rw [if_neg (not_not_intro q2), q3]
    rfl
  | DORMANT => exact absurd hs hd

/-- The section of `CoDelTask`. -/
theorem coDelTask_section (hb : cfg.orderListScheduleEn = false) (hlt : ¬ cfg.tasks ≤ t)
    (hd : k.state t ≠ .DORMANT) (h0 : t ≠ 0) (hl : ¬ (k.state t = .RUNNING ∧ k.OSSchedLock ≠ 0)) :
    coDelTask cfg k t = (match k.state t with
        | .READY => removeFromTCBRdyList cfg (osSchedLock k) t
        | .WAITING => leaveWaiting (osSchedLock k) t
        | _ => some (osSchedLock k)).bind fun s =>
      (deleteTaskPri { s with state := update s.state t .DORMANT, TaskSchedReq := true }
        (s.prio t)).bind
        fun s => (osSchedUnlock cfg s).bind fun s => some (s, .E_OK) := by
  unfold coDelTask
  rw [if_neg hlt, if_neg hd, if_neg h0, if_neg hl]
  simp only [Option.bind_eq_bind, Option.bind_some, hb, if_neg Bool.false_ne_true]
  change (match k.state t with | .READY => _ | .WAITING => _ | _ => _) = _
  cases k.state t with
  | READY => rfl
  | WAITING => rfl
  | RUNNING => rfl
  | DORMANT => rfl

theorem Between.delTask (h : Between cfg B k (activated cfg B k) rdy r) (ht : t ∈ B) :
    Goes cfg B ((coDelTask cfg k t).map fun x => takeSwitch x.1) (delTaskInserts cfg k t) := by
  have hlt : ¬ cfg.tasks ≤ t := Nat.not_le_of_lt (h.chosen.lists.lt t ht)
  by_cases hd : k.state t = .DORMANT
  · unfold coDelTask delTaskInserts
    rw [if_neg hlt, if_pos hd, if_pos (Or.inr (Or.inl hd))]
    exact h.stays
  by_cases h0 : t = 0
  · unfold coDelTask delTaskInserts
    rw [if_neg hlt, if_neg hd, if_pos h0, if_pos (Or.inr (Or.inr (Or.inl h0)))]
    exact h.stays
  have hl : ¬ (k.state t = .RUNNING ∧ k.OSSchedLock ≠ 0) := fun e => e.2 h.lock
  obtain ⟨L, T, rdy', e1, e2⟩ := h.stopped ht hd
  let s3 : Kernel := { (osSchedLock k).unreadied L T with
    state := update k.state t .DORMANT
    TaskSchedReq := true }
  obtain ⟨T', f1, f2⟩ := e2.delete ht hd rfl rfl
  have hsec : Section cfg B (s3.setPriTable T') (activated cfg B s3) rdy' r := by
    refine ⟨f2, h.chosen.mem, h.running, h.chosen.next, fun u hu e => ?_,
      ⟨h.chosen.idle.1, ?_⟩, h.lock_one, Or.inr rfl⟩
    · have e : update k.state t .DORMANT u = .RUNNING := e
      by_cases hut : u = t
      · rw [hut, Function.update_self] at e
        exact nomatch e
      · rw [Function.update_of_ne hut] at e
        exact h.chosen.only u hu e
    · change update k.state t .DORMANT 0 = .READY ∨ update k.state t .DORMANT 0 = .RUNNING
      rw [Function.update_of_ne (Ne.symm h0)]
      exact h.chosen.idle.2
  obtain ⟨s', g1, g2, g3⟩ := hsec.goes rfl
  have f1' : deleteTaskPri s3 (k.prio t) = some (s3.setPriTable T') := f1
  refine ⟨takeSwitch s', ?_, g2, ?_⟩
  · rw [coDelTask_section e2.binary hlt hd h0 hl, e1]
    change Option.map _ ((deleteTaskPri s3 (k.prio t)).bind _) = _
    rw [f1', Option.bind_some, g1]
    rfl
  · have hguard : ¬ (cfg.tasks ≤ t ∨ k.state t = .DORMANT ∨ t = 0 ∨
        (k.state t = .RUNNING ∧ k.OSSchedLock ≠ 0)) := by
      rintro (e | e | e | e)
      · exact hlt e
      · exact hd e
      · exact h0 e
      · exact hl e
    unfold delTaskInserts
    rw [if_neg hguard]
    refine insertsAfter_all e1 ?_
    dsimp only
    rw [e2.binary, if_neg Bool.false_ne_true]
    change ∀ x ∈ ((deleteTaskPri s3 (k.prio t)).map _).getD [], _
    rw [f1']
    exact g3

/-- `CoActivateTask` inserts a DORMANT task: its priority is listed, or it is not. -/
theorem Between.activateTask (h : Between cfg B k cnt rdy r) (ht : t ∈ B)
    (hd : k.state t = .DORMANT) (hc : 0 < cnt (k.prio t)) :
    ∃ s' rdy' r', coActivateTask cfg k t = some (s', .E_OK) ∧
    Between cfg B (takeSwitch s') cnt rdy' r' ∧
      (takeSwitch s').prio = k.prio ∧
      ∀ u ∈ B, (takeSwitch s').state u = .DORMANT ↔ k.state u = .DORMANT ∧ u ≠ t := by
  have hl : Lists cfg B (osSchedLock k) cnt rdy := h.chosen.lists.congr rfl
  have hn : t ∉ rdy := by
    intro e
    have := ((hl.mem t).mp e).2
    rw [show (osSchedLock k).state t = k.state t from rfl, hd] at this
    exact nomatch this
  obtain ⟨L, T, ct, req, e1, e2, -⟩ := hl.insert ht hn hc
  have htr : t ≠ r := by
    rintro rfl
    rw [h.chosen.state] at hd
    exact nomatch hd
  let s1 := (osSchedLock k).readied t L T ct req
  have hst : s1.state = update k.state t .READY := rfl
  have hsec : Section cfg B s1 cnt (insertKey k.prio t rdy) r := by
    refine ⟨e2, h.chosen.mem, h.running, h.chosen.next, fun u hu e => ?_,
      ⟨h.chosen.idle.1, ?_⟩, h.lock_one, Or.inl ?_⟩
    · rw [hst] at e
      by_cases hut : u = t
      · rw [hut, Function.update_self] at e
        exact nomatch e
      · rw [Function.update_of_ne hut] at e
        exact h.chosen.only u hu e
    · rw [hst]
      by_cases h0 : 0 = t
      · rw [h0, Function.update_self]
        exact Or.inl rfl
      · rw [Function.update_of_ne h0]
        exact h.chosen.idle.2
    · rw [hst, Function.update_of_ne htr.symm]
      exact h.chosen.state
  obtain ⟨s', rdy', r', g1, g2, g3, -⟩ := hsec.unlock
  refine ⟨s', rdy', r', ?_, g2, g3.prio, fun u hu => (g3.dormant u hu).trans ?_⟩
  · unfold coActivateTask
    have hstk : k.hasStk t = true := hl.stk t ht
    rw [if_neg (Nat.not_le_of_lt (hl.lt t ht)), if_neg (not_not_intro hstk),
      if_neg (not_not_intro hd), e1]
    change (osSchedUnlock cfg s1).bind _ = _
    rw [g1]
    rfl
  · rw [hst]
    by_cases hut : u = t
    · rw [hut, Function.update_self]
      exact ⟨nofun, fun e => absurd rfl e.2⟩
    · rw [Function.update_of_ne hut]
      exact (and_iff_left hut).symm

theorem Between.tick (h : Between cfg B k (activated cfg B k) rdy r) :
    Goes cfg B ((sysTick_Handler cfg k).map takeSwitch) (sysTickInserts cfg k) := by
  have hd : k.DlyList = none := h.chosen.lists.dly
  have ht : k.tmr.TmrList = none := h.chosen.lists.tmr
  let s1 : Kernel := { osSchedLock k with OSTickCnt := k.OSTickCnt + 1 }
  have e1 : sysTickDelay cfg s1 = some s1 := by
    unfold sysTickDelay
    rw [show s1.DlyList = none from hd]
  have e2 : sysTickTmr cfg s1 = some s1 := by
    unfold sysTickTmr
    rw [show s1.tmr.TmrList = none from ht]
  have hsec : Section cfg B { s1 with TaskSchedReq := true } (activated cfg B k) rdy r :=
    ⟨h.chosen.lists.congr rfl, h.chosen.mem, h.running, h.chosen.next, h.chosen.only, h.chosen.idle,
      h.lock_one, Or.inr rfl⟩
  obtain ⟨s', g1, g2, g3⟩ := hsec.goes rfl
  refine ⟨takeSwitch s', ?_, g2, ?_⟩
  · unfold sysTick_Handler
    change (Option.map takeSwitch ((sysTickDelay cfg s1).bind _)) = _
    rw [e1, Option.bind_some, Option.bind_eq_bind, e2, Option.bind_some, g1]
    rfl
  · intro x hx
    rcases List.mem_append.mp hx with hx | hx
    · split at hx
      · exact absurd hx List.not_mem_nil
      · next e => exact nomatch hd.symm.trans e
    · change x ∈ insertsAfter ((sysTickDelay cfg s1).bind _) _ at hx
      rw [e1, Option.bind_some, e2] at hx
      exact g3 x hx

/-- **One operation** that does not start a task again. -/
theorem Steady.step (h : Steady cfg B k) {op : Op} (hop : op.On B) (hre : ¬ op.Reactivates k) :
    Goes cfg B (op.exec cfg k) (op.inserts cfg k) := by
  obtain ⟨rdy, r, hb⟩ := h
  cases op with
  | delTask t => exact hb.delTask hop
  | exitTask =>
    unfold Op.exec Op.inserts coExitTask
    rw [hb.running]
    exact hb.delTask hb.chosen.mem
  | activateTask t =>
    have hlt := hb.chosen.lists.lt t hop
    have hstk := hb.chosen.lists.stk t hop
    have hd : k.state t ≠ .DORMANT := hre
    unfold Op.exec Op.inserts coActivateTask activateTaskInserts
    dsimp only
    rw [if_neg (Nat.not_le_of_lt hlt), if_neg (not_not_intro hstk), if_pos hd,
      if_pos (Or.inr (Or.inr hd))]
    exact hb.stays
  | tick => exact hb.tick

theorem Maintains.counted {ops : List Op} (h : Maintains cfg B k ops) : Counted cfg B k := by
  cases ops with
  | nil => exact h
  | cons op ops => exact h.1

/-- A task that has ended is started again: its priority is not in the table, or its entry counts
    one task too few from now on. -/
theorem Steady.reactivates (h : Steady cfg B k) {op : Op} (hop : op.On B) (hre : op.Reactivates k)
    (ops : List Op) : ¬ Maintains cfg B k (op :: ops) := by
  obtain ⟨rdy, r, hb⟩ := h
  cases op with
  | delTask t => exact hre.elim
  | exitTask => exact hre.elim
  | tick => exact hre.elim
  | activateTask t =>
    intro hm
    obtain ⟨-, h2, h3⟩ := hm
    have hd : k.state t = .DORMANT := hre
    have hlt := hb.chosen.lists.lt t hop
    have hstk := hb.chosen.lists.stk t hop
    -- it was inserted under a listed priority
    have hlist : Listed (osSchedLock k) t := by
      refine h2 (osSchedLock k, t) ?_
      unfold Op.inserts activateTaskInserts
      dsimp only
      rw [if_neg (by
        intro e
        rcases e with e | e | e
        · omega
        · exact e hstk
        · exact e hd)]
      exact List.mem_cons_self
    obtain ⟨i, hi, ha⟩ := hlist
    have hc : 0 < activated cfg B k (k.prio t) := by
      have := hb.chosen.lists.indexed.table.pos i hi
      rwa [show k.ActivePri i = k.prio t from ha] at this
    obtain ⟨s', rdy', r', e1, e2, e3, e4⟩ := hb.activateTask hop hd hc
    unfold Op.exec at h3
    dsimp only at h3
    rw [e1] at h3
    -- the entry that the task was inserted under
    obtain ⟨j, hj, hja⟩ := e2.chosen.lists.indexed.table.mem _ hc
    have h5 : (takeSwitch s').TaskNumPerPri j = activated cfg B (takeSwitch s') _ :=
      h3.counted.1 j hj
    rw [e2.chosen.lists.indexed.table.num j hj, hja] at h5
    have hmore : activated cfg B k (k.prio t) < activated cfg B (takeSwitch s') (k.prio t) := by
      refine Finset.card_lt_card (Finset.ssubset_iff.mpr ⟨t, ?_, ?_⟩)
      · rw [Finset.mem_filter]
        exact fun e => e.2.1.2 hd
      · intro u hu
        rw [Finset.mem_filter, e3]
        rw [Finset.mem_insert, Finset.mem_filter] at hu
        rcases hu with rfl | ⟨h6, ⟨h7, h8⟩, h9⟩
        · exact ⟨Finset.mem_range.mpr hlt, ⟨hop, fun e => ((e4 u hop).mp e).2 rfl⟩, rfl⟩
        · exact ⟨h6, ⟨h7, fun e => h8 ((e4 u h7).mp e).1⟩, h9⟩
    exact Nat.ne_of_lt hmore h5

/-- **A run.** -/
theorem Steady.run {ops : List Op} : ∀ {k : Kernel}, Steady cfg B k → (∀ op ∈ ops, op.On B) →
    (Maintains cfg B k ops ↔ NoReactivation cfg k ops) := by
  induction ops with
  | nil =>
    intro k h _
    obtain ⟨rdy, r, hb⟩ := h
    exact ⟨fun _ => trivial, fun _ => hb.chosen.lists.counted⟩
  | cons op ops ih =>
    intro k h hops
    have hop := hops op List.mem_cons_self
    by_cases hre : op.Reactivates k
    · exact ⟨fun hm => absurd hm (h.reactivates hop hre ops), fun hn => absurd hre hn.1⟩
    · obtain ⟨k', e1, e2, e3⟩ := h.step hop hre
      have hrest := ih e2 fun o ho => hops o (List.mem_cons_of_mem op ho)
      obtain ⟨rdy, r, hb⟩ := h
      unfold Maintains NoReactivation
      rw [e1]
      exact ⟨fun hm => ⟨hre, hrest.mp hm.2.2⟩,
        fun hn => ⟨hb.chosen.lists.counted, e3, hrest.mpr hn.2⟩⟩

end Ops

/-! ## After `CoStartOS` -/

section Boot

variable {cfg : Env}

theorem booted_steady {m0 : Sys} {i : Idle} {us : List Setup}
    (hord : cfg.orderListScheduleEn = false)
    (hu : ∀ u ∈ us, u.Valid) (hb : boot cfg i us = some m0) :
    Steady cfg.served (bootTasks cfg i us) m0.k := by
  obtain ⟨g, r, hbt, hlive⟩ := booted hu hb
  have hst := hbt.inv.stable
  have hcoh := hst.coh
  have hmem : ∀ t, t ∈ g.tcb.lst .rdy ↔ t ∈ bootTasks cfg i us ∧ m0.k.state t = .READY := by
    intro t
    rw [hcoh.rep.tcb.mem .rdy t, ← hlive t]
    refine ⟨fun e => ?_, fun e => (hcoh.ready_iff e.1).mpr e.2⟩
    have hl := hcoh.rep.rdy_live ((hcoh.rep.tcb.mem .rdy t).mpr e)
    exact ⟨hl, (hcoh.ready_iff hl).mp e⟩
  -- nobody has a place in another list
  have hoff : ∀ t ∈ bootTasks cfg i us, t ∉ g.tcb.lst .rdy → g.tcb.loc t = none := by
    intro t ht hn
    cases hloc : g.tcb.loc t with
    | none => rfl
    | some c =>
      cases c with
      | rdy => exact absurd ((hcoh.rep.tcb.mem .rdy t).mpr hloc) hn
      | dly => exact absurd hloc (hbt.timed t)
      | free => exact absurd hloc ((hlive t).mpr ht).2
      | mtx e => exact absurd hloc (hbt.inv.noMutex.loc t e)
  have hawake : ∀ t ∈ bootTasks cfg i us, m0.k.state t ≠ .DORMANT := by
    intro t ht e
    by_cases hr : t ∈ g.tcb.lst .rdy
    · have := ((hmem t).mp hr).2
      rw [e] at this
      exact nomatch this
    · rcases (hcoh.task t ((hlive t).mpr ht)).off (hoff t ht hr) with h1 | h1
      · rw [e] at h1
        exact nomatch h1
      · rw [e] at h1
        exact nomatch h1.1
  have hact : activated cfg.served (bootTasks cfg i us) m0.k = g.count cfg.served m0.k.prio := by
    refine activated_eq cfg.served fun t ht => ?_
    rw [Ne, g.place_absent]
    refine ⟨fun e => ?_, fun e => ((hlive t).mpr e.1).2⟩
    have htB := (hlive t).mp ⟨ht, e⟩
    exact ⟨htB, hawake t htB⟩
  have hlists : Lists cfg.served (bootTasks cfg i us) m0.k
    (activated cfg.served (bootTasks cfg i us) m0.k)
      (g.tcb.lst .rdy) := by
    refine ⟨hord, hcoh.rep.ready, ?_, hmem, fun t ht hn => hcoh.rep.tcb.off t (hoff t ht hn),
      fun t ht hs => activated_pos ((hlive t).mpr ht).1 ht hs, fun t ht => ((hlive t).mpr ht).1,
      fun t ht => hcoh.stk t ((hlive t).mpr ht), fun t ht => ?_, hcoh.nest, hbt.inv.req,
        ?_, hcoh.tmr⟩
    · rw [hact]
      exact hcoh.rep.fits hord
    · obtain ⟨n, hf⟩ := hbt.fresh
      have hok := hcoh.task t ((hlive t).mpr ht)
      refine ⟨hok.tick (hbt.timed t), ?_, hf.pnode t⟩
      rw [hok.ev, hbt.evt]
      rfl
    · have hnil : g.tcb.lst .dly = [] :=
        List.eq_nil_iff_forall_not_mem.mpr fun t ht => hbt.timed t ((hcoh.rep.tcb.mem .dly t).mp ht)
      have hhead := (hcoh.rep.tcb.single .dly).head
      rw [hnil] at hhead
      exact hhead
  have h0 : 0 ∈ bootTasks cfg i us := List.mem_cons_self
  refine ⟨g.tcb.lst .rdy, r, ⟨hlists, (hlive r).mp hst.picked.live, hst.picked.next,
    hst.picked.running, fun t ht e => ?_, h0, ?_⟩, hst.running, hst.lock⟩
  · have := hcoh.run t ((hlive t).mpr ht) e
    rw [hst.picked.next] at this
    exact (Option.some.inj this).symm
  · exact hst.idle.imp (hcoh.ready_iff ((hlive 0).mpr h0)).mp And.right

/-- **Static tasks.** In the model without creation after `CoStartOS`, with binary scheduling, let
    any of the tasks end and be activated. Exactly in the runs that never activate a task that has
    ended, the entry of every priority is the number of its activated tasks, and whoever is inserted
    in the ready list has its priority in the table. -/
theorem static_priorities {m0 : Sys} {i : Idle} {us : List Setup}
    (hord : cfg.orderListScheduleEn = false)
    (hu : ∀ u ∈ us, u.Valid) (hb : boot cfg i us = some m0) (ops : List Op)
    (hops : ∀ op ∈ ops, op.On (bootTasks cfg i us)) :
    Maintains cfg.served (bootTasks cfg i us) m0.k ops ↔ NoReactivation cfg.served m0.k ops :=
  (booted_steady hord hu hb).run hops

theorem static_priorities_shipped : ∃ m0,
    boot (shippedEnv.build false) shippedIdle [.plainTask 5, .plainTask 9] = some m0 ∧
    Maintains (shippedEnv.build false).served
      (bootTasks (shippedEnv.build false) shippedIdle [.plainTask 5, .plainTask 9]) m0.k
      [.delTask 2, .activateTask 1, .tick, .exitTask] := by
  have h : (boot (shippedEnv.build false) shippedIdle [.plainTask 5, .plainTask 9]).map (fun m =>
      decide (NoReactivation (shippedEnv.build false).served m.k
        [.delTask 2, .activateTask 1, .tick, .exitTask])) = some true := by
    decide +kernel
  obtain ⟨m0, h0, hn⟩ := Option.map_eq_some_iff.mp h
  exact ⟨m0, h0,
    (static_priorities rfl (by decide) h0 _ (by decide +kernel)).mpr (of_decide_eq_true hn)⟩

/-- The task 2 ends and is started again: it is inserted behind the idle task, under the entry of
    the priority 64. -/
theorem static_priorities_fails : ∃ m0,
    boot (shippedEnv.build false) shippedIdle [.plainTask 5, .plainTask 9] = some m0 ∧
    (∀ op ∈ [Op.delTask 2, .activateTask 2],
      op.On (bootTasks (shippedEnv.build false) shippedIdle [.plainTask 5, .plainTask 9])) ∧
    ¬ Maintains (shippedEnv.build false).served
      (bootTasks (shippedEnv.build false) shippedIdle [.plainTask 5, .plainTask 9]) m0.k
      [.delTask 2, .activateTask 2] := by
  have h : (boot (shippedEnv.build false) shippedIdle [.plainTask 5, .plainTask 9]).map (fun m =>
      decide (Maintains (shippedEnv.build false).served
        (bootTasks (shippedEnv.build false) shippedIdle [.plainTask 5, .plainTask 9]) m.k
        [.delTask 2, .activateTask 2])) = some false := by
    decide +kernel
  obtain ⟨m0, h0, hn⟩ := Option.map_eq_some_iff.mp h
  exact ⟨m0, h0, by decide +kernel, of_decide_eq_false hn⟩

end Boot

end Static

end CoOS
