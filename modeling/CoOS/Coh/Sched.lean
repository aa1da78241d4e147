/-
  `Schedule`, `OsSchedUnlock` and the context switch on coherent states.

  `Schedule` keeps `Coh`, moves tasks only in and out of the ready list, and leaves in
  `TCBNext` a RUNNING task whose priority is at most that of every ready task
  (`schedule_spec`). A kernel function ends with `OsSchedUnlock`; it is enough that a request
  is pending whenever the running task has to be replaced (`Pending`), and the state after
  the context switch is `Stable` (`osSchedUnlock_spec`).
-/
import CoOS.Coh.Tasks

namespace CoOS

open Function (update)
open DList KeyOrder

/-! ## Moving tasks in and out of the ready list -/

/-- The ghost states differ only in who is ready. -/
structure RdyFrame (g g' : Ghost) : Prop where
  dly : g'.dly = g.dly
  evt : g'.evt = g.evt
  lst : ∀ k, k ≠ .rdy → g'.tcb.lst k = g.tcb.lst k
  loc : ∀ a k, k ≠ .rdy → (g'.tcb.loc a = some k ↔ g.tcb.loc a = some k)

theorem RdyFrame.refl (g : Ghost) : RdyFrame g g := ⟨rfl, rfl, fun _ _ => rfl, fun _ _ _ => Iff.rfl⟩

theorem RdyFrame.trans {g g' g'' : Ghost} (h : RdyFrame g g') (h' : RdyFrame g' g'') :
    RdyFrame g g'' :=
  ⟨h'.dly.trans h.dly, h'.evt.trans h.evt, fun k hk => (h'.lst k hk).trans (h.lst k hk),
    fun a k hk => (h'.loc a k hk).trans (h.loc a k hk)⟩

theorem RdyFrame.live {cfg : Env} {g g' : Ghost} (h : RdyFrame g g') (a : Nat) :
    Live cfg g' a ↔ Live cfg g a := by
  unfold Live
  rw [Ne, h.loc a .free (by decide)]

theorem rdyFrame_mkReady {g : Ghost} {prio : Nat → Nat} {t : Nat} (ho : g.tcb.loc t = none) :
    RdyFrame g (g.mkReady prio t) := by
  refine ⟨rfl, rfl, fun k hk => Family.put_lst_ne _ _ hk, fun a k hk => ?_⟩
  by_cases hat : a = t
  · rw [hat, ho]
    simp [Ghost.mkReady, Ne.symm hk]
  · simp [Ghost.mkReady, hat]

theorem rdyFrame_unready {g : Ghost} {t : Nat} (ho : g.tcb.loc t = some .rdy) :
    RdyFrame g (g.unready t) := by
  refine ⟨rfl, rfl, fun k hk => Family.take_lst_ne _ _ hk, fun a k hk => ?_⟩
  by_cases hat : a = t
  · rw [hat, ho]
    simp [Ghost.unready, Ne.symm hk]
  · simp [Ghost.unready, hat]

/-- What `Schedule` may write. -/
def Kernel.resched (s : Kernel) (L : Links Nat) (T : PriTable) (ct : Nat) (req : Bool)
    (st : Nat → TaskState) (nx : Option Nat) : Kernel :=
  { (s.setPriTable T).setRdyLinks L with
    OSCheckTime := ct, TaskSchedReq := req, state := st, TCBNext := nx }

/-- `s'` differs from `s` only in what `Schedule` may write. -/
def Resched (s s' : Kernel) : Prop := ∃ L T ct req st nx, s' = s.resched L T ct req st nx

theorem Resched.refl (s : Kernel) : Resched s s :=
  ⟨s.rdyLinks, s.priTable, s.OSCheckTime, s.TaskSchedReq, s.state, s.TCBNext, rfl⟩

/-- What a run of `Schedule` keeps. -/
structure Scheduled (cfg : Env) (s : Kernel) (g : Ghost) (s' : Kernel) (g' : Ghost) : Prop where
  coh : Coh cfg s' g'
  writes : Resched s s'
  frame : RdyFrame g g'
  waiting : ∀ a, s'.state a = .WAITING ↔ s.state a = .WAITING

/-- The task in `TCBNext` runs, and no ready task is more urgent. -/
structure Picked (cfg : Env) (s : Kernel) (g : Ghost) (r : Nat) : Prop where
  next : s.TCBNext = some r
  live : Live cfg g r
  running : s.state r = .RUNNING
  first : ∀ u ∈ g.tcb.lst .rdy, s.prio r ≤ s.prio u

section Sched

variable {cfg : Env} {s : Kernel} {g : Ghost} {cur hd : Nat} {l : List Nat}

theorem resetCheckTime_eq (cfg : Env) (s : Kernel) (t : Nat) :
    ∃ ct, resetCheckTime cfg s t = { s with OSCheckTime := ct } := by
  unfold resetCheckTime
  split
  · exact ⟨_, rfl⟩
  · exact ⟨_, rfl⟩

theorem head_rdy (h : Rep cfg s g) : s.TCBRdy = (g.tcb.lst .rdy).head? := h.ready.links.head

theorem insertKey_keeps_head {prio : Nat → Nat} (hle : prio hd ≤ prio cur) :
    insertKey prio cur (hd :: l) = hd :: insertKey prio cur l :=
  @insertKey_append _ prio cur [hd] l (fun z hz => by
    obtain rfl : z = hd := by simpa using hz
    exact hle)

/-- `InsertToTCBRdyList` overwrites the state of the task. -/
theorem insertToTCBRdyList_state (cfg : Env) (s : Kernel) (t : Nat) (st : TaskState) :
    insertToTCBRdyList cfg { s with state := update s.state t st } t =
      insertToTCBRdyList cfg s t := by
  unfold insertToTCBRdyList
  simp only [Function.update_idem]

/-- `Schedule` when it does not return at once. -/
theorem schedule_eq {hd : Nat} (hrd : s.TCBRdy = some hd) (hrun : s.TCBRunning = some cur)
    (hnext : s.TCBNext = some cur) (hlock : s.OSSchedLock ≤ 1) (hnest : s.OSIntNesting = 0) :
    schedule cfg s =
      if s.state cur ≠ .RUNNING then
        (removeFromTCBRdyList cfg { s with
          TaskSchedReq := false, TCBNext := some hd, state := update s.state hd .RUNNING } hd).map
          fun s => resetCheckTime cfg s hd
      else if s.prio hd < s.prio cur then preempt cfg { s with TaskSchedReq := false } cur hd
      else if cfg.robinEn ∧ s.prio cur = s.prio hd ∧ s.OSCheckTime = s.OSTickCnt then
        preempt cfg { s with TaskSchedReq := false } cur hd
      else some { s with TaskSchedReq := false } := by
  have hcond : ¬ (s.TCBRunning ≠ s.TCBNext ∨ 1 < s.OSSchedLock ∨ 0 < s.OSIntNesting) := by
    rw [hrun, hnext, hnest]
    simp only [ne_eq, not_true, false_or, Nat.lt_irrefl, or_false]
    omega
  unfold schedule
  split
  · next hd' cur' e1 e2 =>
    rw [hrd] at e1
    rw [hrun] at e2
    cases e1
    cases e2
    rw [if_neg hcond]
    dsimp only
    split
    · cases removeFromTCBRdyList cfg { s with
          TaskSchedReq := false, TCBNext := some hd, state := update s.state hd .RUNNING } hd with
      | none => rfl
      | some s' => rfl
    · rfl
  · next hno => exact absurd hrun (hno hd cur hrd)

theorem waiting_update {st : Nat → TaskState} {a : Nat} (h : st hd = .READY) :
    update st hd .RUNNING a = .WAITING ↔ st a = .WAITING := by
  by_cases ha : a = hd
  · rw [ha, Function.update_self, h]
    decide
  · rw [Function.update_of_ne ha]

theorem waiting_update' {st : Nat → TaskState} {a : Nat} (h : st cur = .RUNNING) :
    update st cur .READY a = .WAITING ↔ st a = .WAITING := by
  by_cases ha : a = cur
  · rw [ha, Function.update_self, h]
    decide
  · rw [Function.update_of_ne ha]

/-- The head of the ready list, off the list, gets the CPU. -/
theorem Coh.dispatch (h : Coh cfg s g) (hloc : g.tcb.loc hd = some .rdy)
    (hno : ∀ a, Live cfg g a → a ≠ hd → s.state a ≠ .RUNNING) {T : PriTable}
    (hrep : Rep cfg (s.unreadied (s.rdyLinks.unlink hd) T) (g.unready hd)) (ct : Nat) :
    Coh cfg { s.unreadied (s.rdyLinks.unlink hd) T with
      state := update s.state hd .RUNNING, TCBNext := some hd, OSCheckTime := ct }
      (g.unready hd) := by
  have hlive : Live cfg g hd := h.rep.rdy_live ((h.rep.tcb.mem .rdy hd).mpr hloc)
  have hok := h.task hd hlive
  refine h.retask (hrep.congr rfl rfl rfl rfl rfl) hlive (free_take hlive.2) (fun a ha => ?_) ?_
    (fun _ => rfl) (Or.inr hno) rfl rfl rfl
  · exact ⟨rfl, fun _ => rfl, Function.update_of_ne ha .., rfl, Family.take_loc_ne _ _ ha, rfl⟩
  · refine taskOk_off hok.ev (hok.tick ?_) (Family.take_loc_self ..)
      (Or.inr ⟨Function.update_self .., (hok.rdy hloc).2⟩)
    rw [hloc]
    exact fun e => nomatch e

/-- The rest of the ready list is not more urgent than its head. -/
theorem head_first (h : Rep cfg s g) (hl : g.tcb.lst .rdy = hd :: l) :
    ∀ u ∈ l, s.prio hd ≤ s.prio u := by
  have hs := h.sorted
  rw [hl] at hs
  exact (List.pairwise_cons.mp hs).1

/-- The running task is not RUNNING any more: the head of the ready list takes its place. -/
theorem schedule_replace (h : Coh cfg s g) (hrun : s.TCBRunning = some cur)
    (hnext : s.TCBNext = some cur) (hlock : s.OSSchedLock ≤ 1) (hstate : s.state cur ≠ .RUNNING)
    (hl : g.tcb.lst .rdy = hd :: l) :
    ∃ s' g', schedule cfg s = some s' ∧ Scheduled cfg s g s' g' ∧ s'.TaskSchedReq = false ∧
      Picked cfg s' g' hd := by
  have hrd : s.TCBRdy = some hd := by
    rw [head_rdy h.rep, hl]
    rfl
  have hmem : hd ∈ g.tcb.lst .rdy := by
    rw [hl]
    exact List.mem_cons_self
  have hloc : g.tcb.loc hd = some .rdy := (h.rep.tcb.mem .rdy hd).mp hmem
  have hlive : Live cfg g hd := h.rep.rdy_live hmem
  let s0 : Kernel := { s with
    TaskSchedReq := false
    TCBNext := some hd
    state := update s.state hd .RUNNING }
  have hrep0 : Rep cfg s0 g := h.rep.congr rfl rfl rfl rfl rfl
  obtain ⟨T, h1, h2⟩ := hrep0.unready hloc
  obtain ⟨ct, hct⟩ := resetCheckTime_eq cfg (s0.unreadied (s0.rdyLinks.unlink hd) T) hd
  have hfr := rdyFrame_unready hloc
  have hsched : schedule cfg s =
      some { s0.unreadied (s0.rdyLinks.unlink hd) T with OSCheckTime := ct } := by
    rw [schedule_eq hrd hrun hnext hlock h.nest, if_pos hstate]
    change (removeFromTCBRdyList cfg s0 hd).map _ = _
    rw [h1, ← hct]
    rfl
  have hno : ∀ a, Live cfg g a → a ≠ hd → s.state a ≠ .RUNNING := by
    intro a ha _ hst
    have hc := h.run a ha hst
    rw [hnext] at hc
    obtain rfl : cur = a := Option.some.inj hc
    exact hstate hst
  have h0 : Coh cfg { s with TaskSchedReq := false } g := h.congr rfl
  have hready := ((h.task hd hlive).rdy hloc).1
  refine ⟨_, g.unready hd, hsched, ⟨?_, ⟨s0.rdyLinks.unlink hd, T, ct, false,
    update s.state hd .RUNNING, some hd, rfl⟩, hfr, fun a => waiting_update hready⟩, rfl, rfl,
    (hfr.live hd).mpr hlive, Function.update_self .., ?_⟩
  · have hrep : Rep cfg (({ s with TaskSchedReq := false } : Kernel).unreadied
        (s.rdyLinks.unlink hd) T) (g.unready hd) := h2.congr rfl rfl rfl rfl rfl
    exact h0.dispatch hloc hno hrep ct
  · intro u hu
    have he : (g.unready hd).tcb.lst .rdy = l := by
      simp only [Ghost.unready, Family.take_lst_self, hl, List.erase_cons_head]
    rw [he] at hu
    exact head_first h.rep hl u hu

/-- The head of the ready list takes the place of a RUNNING task, which becomes ready. -/
theorem preempt_spec (h : Coh cfg s g) (hcur : cur < cfg.tasks) (hnext : s.TCBNext = some cur)
    (hstate : s.state cur = .RUNNING) (hreq : s.TaskSchedReq = false)
    (hl : g.tcb.lst .rdy = hd :: l) (hle : s.prio hd ≤ s.prio cur) :
    ∃ s' g', preempt cfg s cur hd = some s' ∧ Scheduled cfg s g s' g' ∧ s'.TaskSchedReq = false ∧
      Picked cfg s' g' hd := by
  have hmem : hd ∈ g.tcb.lst .rdy := by
    rw [hl]
    exact List.mem_cons_self
  have hloc : g.tcb.loc hd = some .rdy := (h.rep.tcb.mem .rdy hd).mp hmem
  have hlive : Live cfg g hd := h.rep.rdy_live hmem
  have hclive : Live cfg g cur := ⟨hcur, fun e => h.free_not_running e hstate⟩
  obtain ⟨hco, hce⟩ := h.loc_of_running hclive hstate
  have hne : hd ≠ cur := by
    rintro rfl
    rw [hco] at hloc
    exact nomatch hloc
  -- nobody runs while the running task goes back to the list
  have hno : ∀ a, Live cfg g a → update s.state cur .WAITING a ≠ .RUNNING := by
    intro a ha hst
    by_cases hac : a = cur
    · rw [hac, Function.update_self] at hst
      exact nomatch hst
    · rw [Function.update_of_ne hac] at hst
      have hc := h.run a ha hst
      rw [hnext] at hc
      exact hac (Option.some.inj hc).symm
  let s0 : Kernel := { s with TCBNext := some hd }
  have hw : Coh cfg { s with state := update s.state cur .WAITING } g := h.setWaiting hclive hco
  have h0 : Coh cfg { s0 with state := update s0.state cur .WAITING } g :=
    ⟨hw.rep.congr rfl rfl rfl rfl rfl, fun a ha => (hw.task a ha).congr
      ⟨rfl, fun _ => rfl, rfl, rfl, rfl, rfl⟩, hw.free, fun a ha hst => absurd hst (hno a ha),
      h.nest, h.tmr, h.stk, h.spare⟩
  obtain ⟨L, T, ct, h1, h2⟩ := h0.mkReady hclive hco hce
  rw [insertToTCBRdyList_state] at h1
  have hins : insertKey s.prio cur (g.tcb.lst .rdy) = hd :: insertKey s.prio cur l := by
    rw [hl]
    exact insertKey_keeps_head hle
  have hreq1 : (s.TaskSchedReq ||
      decide ((insertKey s.prio cur (g.tcb.lst .rdy)).head? = some cur)) = false := by
    rw [hreq, hins]
    simp [hne]
  let s1 : Kernel := s0.readied cur L T ct false
  have hidem :
    ({ s0 with state := update s0.state cur .WAITING } : Kernel).readied cur L T ct false =
      s1 := by
    unfold Kernel.readied
    simp only [Function.update_idem]
    rfl
  have h1' : insertToTCBRdyList cfg s0 cur = some s1 := by
    rw [h1, ← hidem]
    exact congrArg (fun b => some (Kernel.readied _ cur L T ct b)) hreq1
  have hc1 : Coh cfg s1 (g.mkReady s.prio cur) := by
    rw [← hidem]
    exact h2 false
  have hloc1 : (g.mkReady s.prio cur).tcb.loc hd = some .rdy :=
    (Family.put_loc_ne _ _ hne).trans hloc
  obtain ⟨T', h3, h4⟩ := hc1.rep.unready hloc1
  let s2 : Kernel := s1.unreadied (s1.rdyLinks.unlink hd) T'
  obtain ⟨ct', hct⟩ := resetCheckTime_eq cfg { s2 with state := update s2.state hd .RUNNING } hd
  have hfr : RdyFrame g ((g.mkReady s.prio cur).unready hd) :=
    (rdyFrame_mkReady hco).trans (rdyFrame_unready hloc1)
  have hno1 : ∀ a, Live cfg (g.mkReady s.prio cur) a → a ≠ hd → s1.state a ≠ .RUNNING := by
    intro a ha _
    change update s.state cur .READY a ≠ .RUNNING
    by_cases hac : a = cur
    · rw [hac, Function.update_self]
      exact fun e => nomatch e
    · rw [Function.update_of_ne hac]
      have := hno a ((rdyFrame_mkReady hco).live a |>.mp ha)
      rwa [Function.update_of_ne hac] at this
  have hready : s1.state hd = .READY :=
    (Function.update_of_ne hne ..).trans ((h.task hd hlive).rdy hloc).1
  have hwait : ∀ a, update s1.state hd .RUNNING a = .WAITING ↔ s.state a = .WAITING := fun a =>
    (waiting_update hready).trans (waiting_update' hstate)
  refine ⟨{ s2 with state := update s2.state hd .RUNNING, OSCheckTime := ct' },
    (g.mkReady s.prio cur).unready hd, ?_, ⟨hc1.dispatch hloc1 hno1 h4 ct',
    ⟨s1.rdyLinks.unlink hd, T', ct', false, update s1.state hd .RUNNING, some hd, rfl⟩, hfr, hwait⟩,
    rfl, rfl, (hfr.live hd).mpr hlive, Function.update_self .., ?_⟩
  · unfold preempt
    change (insertToTCBRdyList cfg s0 cur).bind _ = _
    rw [h1']
    change (removeFromTCBRdyList cfg s1 hd).bind _ = _
    rw [h3]
    exact congrArg some hct
  · intro u hu
    have he : ((g.mkReady s.prio cur).unready hd).tcb.lst .rdy = insertKey s.prio cur l := by
      simp only [Ghost.unready, Family.take_lst_self, Ghost.mkReady, Family.put_lst_self, hins,
        List.erase_cons_head]
    rw [he] at hu
    rcases mem_insertKey.mp hu with rfl | hu
    · exact hle
    · exact head_first h.rep hl u hu

/-- **Schedule** on a coherent state. -/
theorem schedule_spec (h : Coh cfg s g) (hcur : cur < cfg.tasks) (hrun : s.TCBRunning = some cur)
    (hnext : s.TCBNext = some cur) (hlock : s.OSSchedLock ≤ 1) :
    ∃ s' g', schedule cfg s = some s' ∧ Scheduled cfg s g s' g' ∧
      (g.tcb.lst .rdy = [] → s' = s ∧ g' = g) ∧
      (g.tcb.lst .rdy ≠ [] → s'.TaskSchedReq = false ∧ ∃ r, Picked cfg s' g' r) := by
  cases hl : g.tcb.lst .rdy with
  | nil =>
    have hrd : s.TCBRdy = none := by
      rw [head_rdy h.rep, hl]
      rfl
    refine ⟨s, g, ?_, ⟨h, .refl s, .refl g, fun _ => Iff.rfl⟩, fun _ => ⟨rfl, rfl⟩,
      fun e => absurd rfl e⟩
    unfold schedule
    split
    · next e _ =>
      rw [hrd] at e
      exact nomatch e
    · rfl
  | cons hd l =>
    have hrd : s.TCBRdy = some hd := by
      rw [head_rdy h.rep, hl]
      rfl
    have hcons : hd :: l ≠ [] := by simp
    by_cases hstate : s.state cur = .RUNNING
    · have heq := @schedule_eq cfg s cur hd hrd hrun hnext hlock h.nest
      rw [if_neg (by simpa using hstate)] at heq
      have h0 : Coh cfg { s with TaskSchedReq := false } g := h.congr rfl
      have hclive : Live cfg g cur := ⟨hcur, fun e => h.free_not_running e hstate⟩
      -- both ways to preempt
      have hpre : s.prio hd ≤ s.prio cur →
          schedule cfg s = preempt cfg { s with TaskSchedReq := false } cur hd →
          ∃ s' g', schedule cfg s = some s' ∧ Scheduled cfg s g s' g' ∧
            s'.TaskSchedReq = false ∧ Picked cfg s' g' hd := by
        intro hle he
        obtain ⟨s', g', e1, ⟨e2, ⟨L, T, ct, req, st, nx, e3⟩, e4, e5⟩, e6, e7⟩ :=
          preempt_spec h0 hcur hnext hstate rfl hl hle
        exact ⟨s', g', he.trans e1, ⟨e2, ⟨L, T, ct, req, st, nx, e3⟩, e4, e5⟩, e6, e7⟩
      by_cases hlt : s.prio hd < s.prio cur
      · rw [if_pos hlt] at heq
        obtain ⟨s', g', e1, e2, e3, e4⟩ := hpre (Nat.le_of_lt hlt) heq
        exact ⟨s', g', e1, e2, fun e => absurd e hcons, fun _ => ⟨e3, hd, e4⟩⟩
      · rw [if_neg hlt] at heq
        by_cases hrobin : cfg.robinEn ∧ s.prio cur = s.prio hd ∧ s.OSCheckTime = s.OSTickCnt
        · rw [if_pos hrobin] at heq
          obtain ⟨s', g', e1, e2, e3, e4⟩ := hpre (Nat.le_of_eq hrobin.2.1.symm) heq
          exact ⟨s', g', e1, e2, fun e => absurd e hcons, fun _ => ⟨e3, hd, e4⟩⟩
        · rw [if_neg hrobin] at heq
          refine ⟨_, g, heq, ⟨h0, ⟨s.rdyLinks, s.priTable, s.OSCheckTime, false, s.state, s.TCBNext,
            rfl⟩, .refl g, fun _ => Iff.rfl⟩, fun e => absurd e hcons,
            fun _ => ⟨rfl, cur, hnext, hclive, hstate, ?_⟩⟩
          intro u hu
          have hle : s.prio cur ≤ s.prio hd := Nat.le_of_not_lt hlt
          rw [hl] at hu
          rcases List.mem_cons.mp hu with rfl | hu
          · exact hle
          · exact Nat.le_trans hle (head_first h.rep hl u hu)
    · obtain ⟨s', g', e1, e2, e3, e4⟩ := schedule_replace h hrun hnext hlock hstate hl
      exact ⟨s', g', e1, e2, fun e => absurd e hcons, fun _ => ⟨e3, hd, e4⟩⟩

end Sched

/-! ## The end of a kernel function -/

/-- The idle task is ready or runs. -/
def IdleOk (s : Kernel) (g : Ghost) : Prop :=
  g.tcb.loc 0 = some .rdy ∨ (g.tcb.loc 0 = none ∧ s.state 0 = .RUNNING)

/-- The next outermost unlock ends the delays that have come to 0. -/
def Kernel.Late (s : Kernel) : Prop := s.IsrReq = true ∧ s.TimeReq = true

/-- Inside a locked section: a request is pending when the running task has to be replaced. -/
structure Pending (cfg : Env) (s : Kernel) (g : Ghost) (cur : Nat) : Prop where
  coh : Coh cfg s g
  lt : cur < cfg.tasks
  running : s.TCBRunning = some cur
  next : s.TCBNext = some cur
  lock : 0 < s.OSSchedLock
  req : s.TaskSchedReq = true ∨
    (s.state cur = .RUNNING ∧ ∀ u ∈ g.tcb.lst .rdy, s.prio cur ≤ s.prio u)
  ticks : ¬ s.Late → ∀ x ∈ g.dly, 1 ≤ x.2
  idle : IdleOk s g

/-- Between two calls, with no context switch outstanding. A request is left over only when
    there is nobody to switch to. -/
structure Stable (cfg : Env) (s : Kernel) (g : Ghost) (r : Nat) : Prop where
  coh : Coh cfg s g
  lock : s.OSSchedLock = 0
  running : s.TCBRunning = some r
  picked : Picked cfg s g r
  req : s.TaskSchedReq = true → g.tcb.lst .rdy = []
  ticks : ∀ x ∈ g.dly, 1 ≤ x.2
  idle : IdleOk s g

/-- `s'` differs from `s` only in what `OsSchedUnlock` and the context switch may write. -/
def Settled (s s' : Kernel) : Prop :=
  ∃ L T ct req st nx,
    s' = { s.resched L T ct req st nx with OSSchedLock := 0, TCBRunning := nx }

/-- `OsSchedUnlock` when it does not call `Schedule`. -/
theorem osSchedUnlock_quiet (cfg : Env) {s : Kernel} (hi : s.IsrReq = false)
    (hq : s.OSSchedLock ≠ 1 ∨ s.TaskSchedReq = false) :
    osSchedUnlock cfg s = some { s with OSSchedLock := s.OSSchedLock - 1 } := by
  by_cases hl : s.OSSchedLock = 1
  · have hr : ¬ s.TaskSchedReq = true := by
      rw [hq.resolve_left fun e => e hl]
      decide
    rw [osSchedUnlock_eq cfg hi, if_pos hl, if_neg hr, hl]
    rfl
  · exact osSchedUnlock_nested cfg hl

theorem takeSwitch_eq {s : Kernel} (h : s.OSSchedLock = 0) :
    takeSwitch s = { s with TCBRunning := s.TCBNext } := by
  unfold takeSwitch
  split
  · next e =>
    cases s
    cases e
    rfl
  · cases s
    cases h
    rfl

section Unlock

variable {cfg : Env} {s s' : Kernel} {g g' : Ghost} {cur : Nat}

theorem IdleOk.live (h : IdleOk s g) : Live cfg g 0 := by
  refine ⟨Nat.succ_pos _, ?_⟩
  rcases h with h | h
  · rw [h]
    exact fun e => nomatch e
  · rw [h.1]
    exact fun e => nomatch e

/-- `Schedule` does not touch the idle task other than to start or to stop it. -/
theorem IdleOk.scheduled (h : IdleOk s g) (hs : Scheduled cfg s g s' g') (hc : Coh cfg s g) :
    IdleOk s' g' := by
  have hlive : Live cfg g 0 := h.live
  have hlive' : Live cfg g' 0 := (hs.frame.live 0).mpr hlive
  have hk : ∀ k, k ≠ .rdy → g'.tcb.loc 0 ≠ some k := by
    intro k hk e
    rw [hs.frame.loc 0 k hk] at e
    rcases h with h | h
    · rw [h] at e
      exact hk (Option.some.inj e).symm
    · rw [h.1] at e
      exact nomatch e
  have hw : s.state 0 ≠ .WAITING := by
    rcases h with h | h
    · rw [((hc.task 0 hlive).rdy h).1]
      decide
    · rw [h.2]
      decide
  cases hloc : g'.tcb.loc 0 with
  | none =>
    refine Or.inr ⟨hloc, ?_⟩
    rcases (hs.coh.task 0 hlive').off hloc with e | e
    · exact absurd ((hs.waiting 0).mp e) hw
    · exact e.1
  | some k =>
    by_cases hk' : k = .rdy
    · rw [hk'] at hloc
      exact Or.inl hloc
    · exact absurd hloc (hk k hk')

/-- Without a ready task, the running task is the idle task and RUNNING. -/
theorem Pending.running_of_nil (h : Pending cfg s g cur) (hl : g.tcb.lst .rdy = []) :
    s.state cur = .RUNNING := by
  rcases h.idle with e | e
  · have hm := (h.coh.rep.tcb.mem .rdy 0).mpr e
    rw [hl] at hm
    exact absurd hm List.not_mem_nil
  · have hn := h.coh.run 0 h.idle.live e.2
    rw [h.next] at hn
    obtain rfl : cur = 0 := Option.some.inj hn
    exact e.2

theorem Pending.live (h : Pending cfg s g cur) (hr : s.state cur = .RUNNING) : Live cfg g cur :=
  ⟨h.lt, fun e => h.coh.free_not_running e hr⟩

/-- After the unlock and the switch. -/
theorem Scheduled.settle (h : Scheduled cfg s g s' g') (hidle : IdleOk s' g') {r : Nat}
    (hp : Picked cfg s' g' r) (hreq : s'.TaskSchedReq = true → g'.tcb.lst .rdy = [])
    (hticks : ∀ x ∈ g.dly, 1 ≤ x.2) :
    Settled s (takeSwitch { s' with OSSchedLock := 0 }) ∧
      Stable cfg (takeSwitch { s' with OSSchedLock := 0 }) g' r := by
  rw [takeSwitch_eq rfl]
  obtain ⟨L, T, ct, req, st, nx, e⟩ := h.writes
  refine ⟨⟨L, T, ct, req, st, nx, ?_⟩, ?_⟩
  · rw [e]
    rfl
  · refine ⟨h.coh.congr rfl, rfl, hp.next, ⟨hp.next, hp.live, hp.running, hp.first⟩, hreq, ?_,
      hidle⟩
    rw [h.frame.dly]
    exact hticks

/-- **OsSchedUnlock** at the end of a kernel function, with the context switch. -/
theorem osSchedUnlock_spec (h : Pending cfg s g cur) (hi : s.IsrReq = false)
    (hl : s.OSSchedLock = 1) :
    ∃ s' g' r, osSchedUnlock cfg s = some s' ∧ Settled s (takeSwitch s') ∧ RdyFrame g g' ∧
      (∀ a, (takeSwitch s').state a = .WAITING ↔ s.state a = .WAITING) ∧
      Stable cfg (takeSwitch s') g' r := by
  rw [osSchedUnlock_eq cfg hi, if_pos hl]
  have hst : ∀ s1 : Kernel, (takeSwitch { s1 with OSSchedLock := 0 }).state = s1.state := by
    intro s1
    rw [takeSwitch_eq rfl]
  have hticks := h.ticks fun e => Bool.false_ne_true (hi.symm.trans e.1)
  by_cases hreq : s.TaskSchedReq = true
  · rw [if_pos hreq]
    obtain ⟨s1, g1, e1, e2, e3, e4⟩ :=
      schedule_spec h.coh h.lt h.running h.next (Nat.le_of_eq hl)
    have hidle := h.idle.scheduled e2 h.coh
    refine ⟨{ s1 with OSSchedLock := 0 }, g1, ?_⟩
    rw [e1, hst]
    by_cases hl : g.tcb.lst .rdy = []
    · obtain ⟨rfl, rfl⟩ := e3 hl
      have hr := h.running_of_nil hl
      have hp : Picked cfg s1 g1 cur := ⟨h.next, h.live hr, hr, by rw [hl]; simp⟩
      obtain ⟨e5, e6⟩ := e2.settle hidle hp (fun _ => hl) hticks
      exact ⟨cur, rfl, e5, e2.frame, e2.waiting, e6⟩
    · obtain ⟨hf, r, hp⟩ := e4 hl
      have hno : s1.TaskSchedReq = true → g1.tcb.lst .rdy = [] := by
        rw [hf]
        exact fun e => nomatch e
      obtain ⟨e5, e6⟩ := e2.settle hidle hp hno hticks
      exact ⟨r, rfl, e5, e2.frame, e2.waiting, e6⟩
  · rw [if_neg hreq]
    obtain ⟨hr, hfirst⟩ := h.req.resolve_left hreq
    have hsch : Scheduled cfg s g s g := ⟨h.coh, .refl s, .refl g, fun _ => Iff.rfl⟩
    have hp : Picked cfg s g cur := ⟨h.next, h.live hr, hr, hfirst⟩
    obtain ⟨e5, e6⟩ := hsch.settle h.idle hp (fun e => absurd e hreq) hticks
    refine ⟨{ s with OSSchedLock := 0 }, g, cur, rfl, e5, .refl g, ?_, e6⟩
    rw [hst]
    exact fun _ => Iff.rfl

end Unlock

end CoOS
