/-
  Runs of tasks with delays and semaphores: the lists of the kernel and the states of the tasks
  agree in every state reached, and the running task is the most urgent one.
-/
import CoOS.Run.Boot

namespace CoOS

open DList KeyOrder

/-- The calls that manage tasks that exist, delay them, and use semaphores, with delays below
    `2^31`. -/
def Call.Plain (cfg : Env) (k : Kernel) : Call → Prop
  | .createTask .. | .exitTask => True
  | .delTask t | .suspendTask t | .awakeTask t | .setPriority t _ => k.alive cfg t
  | .tickDelay n => n < 2 ^ 31
  | .accept kd _ | .post kd _ _ => kd = .sem
  | .pend kd _ n => kd = .sem ∧ n < 2 ^ 31
  | _ => False

instance (cfg : Env) (k : Kernel) (c : Call) : Decidable (c.Plain cfg k) :=
  match c with
  | .createTask .. | .exitTask => inferInstanceAs (Decidable True)
  | .delTask t | .suspendTask t | .awakeTask t | .setPriority t _ =>
    inferInstanceAs (Decidable (k.alive cfg t))
  | .tickDelay n => inferInstanceAs (Decidable (n < 2 ^ 31))
  | .accept kd _ | .post kd _ _ => inferInstanceAs (Decidable (kd = .sem))
  | .pend kd _ n => inferInstanceAs (Decidable (kd = .sem ∧ n < 2 ^ 31))
  | .resetDelay .. | .createFlag .. | .delFlag .. | .setFlag _ | .clearFlag _ | .acceptFlag _
  | .acceptFlags .. | .waitFlag .. | .waitFlags .. | .enterMutex _ | .leaveMutex _ =>
    inferInstanceAs (Decidable False)

/-- Such a call, the rest of one, or a tick; no request is deferred. -/
def PlainStep (cfg : Env) (m : Sys) (rs : List SQC) : Act → Prop
  | .call c => rs = [] ∧ c.Plain cfg m.k
  | _ => rs = []

instance (cfg : Env) (m : Sys) (rs : List SQC) (a : Act) : Decidable (PlainStep cfg m rs a) :=
  match a with
  | .call _ => inferInstanceAs (Decidable (_ ∧ _))
  | .resume | .tick => inferInstanceAs (Decidable (_ = _))

theorem PlainStep.fine {cfg : Env} (ho : cfg.orderListScheduleEn = true) (m : Sys) (rs : List SQC)
    (a : Act) (h : PlainStep cfg m rs a) : Fine cfg m rs a := by
  cases a with
  | call c =>
    obtain ⟨hrs, h⟩ := h
    have hsem : ∀ {kd : EventType}, kd = .sem → kd ≠ .invalid := by
      rintro kd rfl
      decide
    cases c with
    | createTask task stk parameter => exact hrs
    | setPriority t p => exact ⟨h, Or.inl ho⟩
    | accept kd id => exact hsem h
    | pend kd id n => exact ⟨hsem h.1, h.2⟩
    | post kd id v => exact hsem h
    | delTask t => exact h
    | exitTask => trivial
    | suspendTask t => exact h
    | awakeTask t => exact h
    | tickDelay n => exact h
    | _ => exact h.elim
  | resume => trivial
  | tick => trivial

theorem PlainStep.none {cfg : Env} {m : Sys} {rs : List SQC} {a : Act} (h : PlainStep cfg m rs a) :
    rs = [] := by
  cases a with
  | call c => exact h.1
  | resume => exact h
  | tick => exact h

/-- The lists hold exactly the tasks that they are for. -/
structure Coherent (cfg : Env) (k : Kernel) : Prop where
  running : ∃ r, k.TCBRunning = some r ∧ k.alive cfg r ∧
    ∀ t, k.alive cfg t → (k.state t = .RUNNING ↔ t = r)
  ready : ∃ l, IsDList k.rdyLinks l ∧ SortedKey k.prio l ∧
    ∀ t, t ∈ l ↔ k.alive cfg t ∧ k.state t = .READY
  delayed : ∃ l, IsDList k.dlyLinks l ∧
    ∀ t, t ∈ l ↔ k.alive cfg t ∧ k.delayTick t ≠ INVALID_VALUE
  waiting : ∀ e, e < cfg.maxEvent → ∃ l, IsDList (k.evtLinks e) l ∧
    ∀ t, t ∈ l ↔ k.alive cfg t ∧ k.state t = .WAITING ∧ k.eventID t = e

section Coherent

variable {cfg : Env} {k : Kernel} {g : Ghost} {r : Nat}

theorem Coh.eventID_eq (h : Coh cfg k g) {t e : Nat} (ht : Live cfg g t) (he : e < cfg.maxEvent) :
    k.eventID t = e ↔ g.evt.loc t = some e := by
  have hne : INVALID_ID ≠ e := by
    have := cfg.maxEvent_le
    unfold INVALID_ID
    omega
  rw [(h.task t ht).ev]
  cases g.evt.loc t with
  | none => exact ⟨fun hc => absurd hc hne, fun hc => nomatch hc⟩
  | some e' => exact ⟨fun hc => congrArg some hc, fun hc => Option.some.inj hc⟩

/-- Who is in the waiting list of `e`. -/
theorem Stable.mem_waiting (h : Stable cfg k g r) {e : Nat} (he : e < cfg.maxEvent) (t : Nat) :
    t ∈ g.evt.lst e ↔ k.alive cfg t ∧ k.state t = .WAITING ∧ k.eventID t = e := by
  rw [h.coh.rep.evt.mem e t, alive_iff h.coh.rep t]
  refine ⟨fun hl => ?_, fun hl => (h.coh.eventID_eq hl.1 he).mp hl.2.2⟩
  have hlive := h.coh.evt_live hl
  exact ⟨hlive, (h.coh.waits hlive hl).1, (h.coh.eventID_eq hlive he).mpr hl⟩

theorem Stable.coherent (h : Stable cfg k g r) : Coherent cfg k := by
  have ha := alive_iff h.coh.rep
  refine ⟨⟨r, h.running, (ha r).mpr h.picked.live, fun t ht => ⟨fun hr => ?_, fun e => ?_⟩⟩,
    ⟨g.tcb.lst .rdy, h.coh.rep.tcb.double .rdy rfl, h.coh.rep.sorted, fun t => ?_⟩,
    ⟨g.tcb.lst .dly, h.coh.rep.tcb.double .dly rfl, fun t => ?_⟩,
    fun e he => ⟨g.evt.lst e, h.coh.rep.evt.double e rfl, h.mem_waiting he⟩⟩
  · exact h.eq_of_running ((ha t).mp ht) hr
  · rw [e]
    exact h.picked.running
  · rw [h.coh.rep.tcb.mem .rdy t, ha t]
    refine ⟨fun hl => ?_, fun hl => (h.coh.ready_iff hl.1).mpr hl.2⟩
    have hlive : Live cfg g t := ⟨h.coh.rep.lt t _ hl, by rw [hl]; exact fun e => nomatch e⟩
    exact ⟨hlive, (h.coh.ready_iff hlive).mp hl⟩
  · rw [h.coh.rep.tcb.mem .dly t, ha t]
    refine ⟨fun hl => ?_, fun hl => (h.coh.delayTick_iff hl.1).mp hl.2⟩
    have hlive : Live cfg g t := ⟨h.coh.rep.lt t _ hl, by rw [hl]; exact fun e => nomatch e⟩
    exact ⟨hlive, (h.coh.delayTick_iff hlive).mpr hl⟩

end Coherent

section Runs

variable {cfg : Env} {i : Idle} {us : List Setup} {m0 m : Sys}

theorem Reach.plain (ho : cfg.orderListScheduleEn = true) (hu : ∀ u ∈ us, u.Valid)
    (hb : boot cfg i us = some m0)
    (h : Reach cfg (PlainStep cfg) m0 m) : ∃ g r F, Inv cfg m g r F := by
  obtain ⟨g, r, hbt, -⟩ := booted hu hb
  exact h.inv (PlainStep.fine ho) ⟨g, r, [], hbt.inv⟩

/-- **The kernel is coherent** in every state of a run of the ordered-list build, and every step
    that the run may take can be taken. -/
theorem kernel_coherent (ho : cfg.orderListScheduleEn = true) (hu : ∀ u ∈ us, u.Valid)
    (hb : boot cfg i us = some m0) (h : Reach cfg (PlainStep cfg) m0 m) :
    Coherent cfg m.k ∧ ∀ rs a r, PlainStep cfg m rs a → m.k.TCBRunning = some r → Enabled m r a →
      ∃ m', m.step cfg rs a = some m' := by
  obtain ⟨g, r, F, hi⟩ := h.plain ho hu hb
  have hc := hi.stable.coherent
  refine ⟨⟨hc.running, hc.ready, hc.delayed, hc.waiting⟩, fun rs a r' hp hr hen => ?_⟩
  rw [hi.stable.running] at hr
  cases hr
  have hrs := hp.none
  subst hrs
  exact hi.progress (PlainStep.fine ho m [] a hp) hen

theorem kernel_coherent_shipped : ∃ m0 m, boot shippedEnv shippedIdle
      [.plainTask 5, .plainTask 10, .sem 0 1 sortFifo] = some m0 ∧
    Reach shippedEnv (PlainStep shippedEnv) m0 m ∧ m.log.length = 6 ∧ Coherent shippedEnv m.k := by
  obtain ⟨m0, m, h1, h2, h3⟩ := @ran shippedEnv (PlainStep shippedEnv) _ shippedIdle
    [.plainTask 5, .plainTask 10, .sem 0 1 sortFifo]
    [([], .call (.pend .sem 0 3)), ([], .resume), ([], .tick), ([], .call (.setPriority 1 20)),
      ([], .call (.post .sem 0 0)), ([], .call (.delTask 1)), ([], .call (.tickDelay 2))] _
    (fun m => m.log.length) 6 (by decide +kernel)
  exact ⟨m0, m, h1, h2, h3, (kernel_coherent rfl (by decide) h1 h2).1⟩

/-- **Priority-preemptive scheduling**: no ready task is more urgent than the running one. -/
theorem running_most_urgent (ho : cfg.orderListScheduleEn = true) (hu : ∀ u ∈ us, u.Valid)
    (hb : boot cfg i us = some m0) (h : Reach cfg (PlainStep cfg) m0 m) :
    ∃ r, m.k.TCBRunning = some r ∧ m.k.state r = .RUNNING ∧
      ∀ t, m.k.alive cfg t → m.k.state t = .READY → m.k.prio r ≤ m.k.prio t := by
  obtain ⟨g, r, F, hi⟩ := h.plain ho hu hb
  refine ⟨r, hi.stable.running, hi.stable.picked.running, fun t ht hs => ?_⟩
  have hlive := (alive_iff hi.stable.coh.rep t).mp ht
  refine hi.stable.picked.first t ((hi.stable.coh.rep.tcb.mem .rdy t).mpr ?_)
  exact (hi.stable.coh.ready_iff hlive).mpr hs

theorem running_most_urgent_shipped : ∃ m0 m, boot shippedEnv shippedIdle
      [.plainTask 5, .plainTask 10, .sem 0 1 sortFifo] = some m0 ∧
    Reach shippedEnv (PlainStep shippedEnv) m0 m ∧ m.k.TCBRunning = some 2 ∧
    ∃ r, m.k.TCBRunning = some r ∧ m.k.state r = .RUNNING ∧
      ∀ t, m.k.alive shippedEnv t → m.k.state t = .READY → m.k.prio r ≤ m.k.prio t := by
  obtain ⟨m0, m, h1, h2, h3⟩ := @ran shippedEnv (PlainStep shippedEnv) _ shippedIdle
    [.plainTask 5, .plainTask 10, .sem 0 1 sortFifo]
    [([], .call (.setPriority 1 20)), ([], .call (.createTask 1 1 (30 ||| (25 <<< 8))))] _
    (fun m => m.k.TCBRunning) (some 2) (by decide +kernel)
  exact ⟨m0, m, h1, h2, h3, running_most_urgent rfl (by decide) h1 h2⟩

end Runs

end CoOS
