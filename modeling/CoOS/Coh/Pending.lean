/-
  The middle of a kernel call. `Stable.lock` enters it and `osSchedUnlock_spec` leaves it; the
  lemmas here are the steps between: each list function takes a `Pending` state to a `Pending`
  state, raising `TaskSchedReq` where the running task may have to go.
-/
import CoOS.Coh.Tick

namespace CoOS

open Function (update)
open DList KeyOrder

/-- From `s` to `s'` tasks may have left the delay list; no delay starts or changes, and the clock
    stands. -/
structure Eased (s : Kernel) (g : Ghost) (s' : Kernel) (g' : Ghost) : Prop where
  dly : ∀ x ∈ g'.dly, x ∈ g.dly
  clock : s'.OSTickCnt = s.OSTickCnt

theorem Eased.refl (s : Kernel) (g : Ghost) : Eased s g s g := ⟨fun _ h => h, rfl⟩

theorem Eased.trans {s s' s'' : Kernel} {g g' g'' : Ghost} (h : Eased s g s' g')
    (h' : Eased s' g' s'' g'') : Eased s g s'' g'' :=
  ⟨fun x hx => h.dly x (h'.dly x hx), h'.clock.trans h.clock⟩

section Pending

variable {cfg : Env} {s : Kernel} {g : Ghost} {cur t : Nat}

/-- `OsSchedLock` at the beginning of a call. -/
theorem Stable.enter (h : Stable cfg s g cur) : Pending cfg (osSchedLock s) g cur := by
  refine ⟨h.coh.congr rfl, h.picked.live.1, h.running, h.picked.next, ?_,
    Or.inr ⟨h.picked.running, h.picked.first⟩, fun _ => h.ticks, h.idle⟩
  exact Nat.succ_pos _

/-- `OsSchedLock` inside a call. -/
theorem Pending.enter (h : Pending cfg s g cur) : Pending cfg (osSchedLock s) g cur :=
  ⟨h.coh.congr rfl, h.lt, h.running, h.next, Nat.succ_pos _, h.req, h.ticks, h.idle⟩

/-- `OsSchedUnlock` inside a call. -/
theorem Pending.exit (h : Pending cfg s g cur) (hl : 1 < s.OSSchedLock) :
    osSchedUnlock cfg s = some { s with OSSchedLock := s.OSSchedLock - 1 } ∧
      Pending cfg { s with OSSchedLock := s.OSSchedLock - 1 } g cur :=
  ⟨osSchedUnlock_nested cfg (by omega), h.coh.congr rfl, h.lt, h.running, h.next,
    (by change 0 < s.OSSchedLock - 1; omega), h.req, h.ticks, h.idle⟩

/-- Columns that are not looked at change, and the requests of interrupts. -/
theorem Pending.retime {s' : Kernel} (h : Pending cfg s g cur) (hv : s'.view = s.view)
    (hc : s'.cpu = s.cpu) (hr : s'.TaskSchedReq = s.TaskSchedReq)
    (ht : ¬ s'.Late → ∀ x ∈ g.dly, 1 ≤ x.2) : Pending cfg s' g cur := by
  have e1 : s'.state = s.state := congrArg KView.state hv
  have e2 : s'.prio = s.prio := congrArg KView.prio hv
  refine ⟨h.coh.congr hv, h.lt, (congrArg Cpu.TCBRunning hc).trans h.running,
    (congrArg Cpu.TCBNext hc).trans h.next, ?_, ?_, ht, ?_⟩
  · rw [show s'.OSSchedLock = s.OSSchedLock from congrArg Cpu.OSSchedLock hc]
    exact h.lock
  · rw [hr, e1, e2]
    exact h.req
  · unfold IdleOk
    rw [e1]
    exact h.idle

theorem Pending.congr {s' : Kernel} (h : Pending cfg s g cur) (hv : s'.view = s.view)
    (hc : s'.cpu = s.cpu) (hr : s'.TaskSchedReq = s.TaskSchedReq) (hl : s.Late → s'.Late) :
    Pending cfg s' g cur := h.retime hv hc hr fun hn => h.ticks (mt hl hn)

/-- A lock that is released again with nothing to do. -/
theorem lock_unlock (hi : s.IsrReq = false) (hq : s.OSSchedLock ≠ 0 ∨ s.TaskSchedReq = false) :
    osSchedUnlock cfg (osSchedLock s) = some s := by
  rw [osSchedUnlock_quiet cfg (show (osSchedLock s).IsrReq = false from hi)]
  · rfl
  · refine hq.imp (fun e => ?_) id
    change s.OSSchedLock + 1 ≠ 1
    omega

/-- A caller other than the idle task has the idle task behind it in the ready list. -/
theorem Stable.idle_ready (h : Stable cfg s g cur) (hc : cur ≠ 0) : g.tcb.loc 0 = some .rdy := by
  rcases h.idle with e | e
  · exact e
  · have hn := h.coh.run 0 h.idle.live e.2
    rw [h.picked.next] at hn
    exact absurd (Option.some.inj hn) hc

/-- Nothing is left to do when such a caller enters the kernel. -/
theorem Stable.noreq (h : Stable cfg s g cur) (hc : cur ≠ 0) : s.TaskSchedReq = false := by
  cases hr : s.TaskSchedReq with
  | false => rfl
  | true =>
    have hm := (h.coh.rep.tcb.mem .rdy 0).mpr (h.idle_ready hc)
    rw [h.req hr] at hm
    exact absurd hm List.not_mem_nil

/-- A task other than the running one becomes ready. -/
theorem Pending.insert (h : Pending cfg s g cur) (hlive : Live cfg g t) (ho : g.tcb.loc t = none)
    (he : g.evt.loc t = none) (htc : t ≠ cur) :
    ∃ L T ct req, insertToTCBRdyList cfg s t = some (s.readied t L T ct req) ∧
      Pending cfg (s.readied t L T ct req) (g.mkReady s.prio t) cur := by
  obtain ⟨L, T, ct, h1, h2⟩ := h.coh.mkReady hlive ho he
  refine ⟨L, T, ct, _, h1, h2 _, h.lt, h.running, h.next, h.lock, ?_, h.ticks, ?_⟩
  · change (_ || decide _) = true ∨ update s.state t .READY cur = .RUNNING ∧ _
    have hlst : (g.mkReady s.prio t).tcb.lst .rdy = insertKey s.prio t (g.tcb.lst .rdy) :=
      Family.put_lst_self ..
    rcases h.req with hr | ⟨hr, hfirst⟩
    · rw [hr]
      exact Or.inl rfl
    · by_cases hd : (insertKey s.prio t (g.tcb.lst .rdy)).head? = some t
      · rw [decide_eq_true hd, Bool.or_true]
        exact Or.inl rfl
      · rw [Function.update_of_ne (Ne.symm htc), hlst]
        exact Or.inr ⟨hr, insert_first h.coh.rep.sorted hfirst hd⟩
  · by_cases h0 : 0 = t
    · rw [← h0]
      exact Or.inl (Family.put_loc_self ..)
    · rcases h.idle with e | e
      · exact Or.inl ((Family.put_loc_ne _ _ h0).trans e)
      · exact Or.inr ⟨(Family.put_loc_ne _ _ h0).trans e.1, (Function.update_of_ne h0 ..).trans e.2⟩

/-- A ready task other than the idle task leaves the ready list to wait. -/
theorem Pending.remove (h : Pending cfg s g cur) (ho : g.tcb.loc t = some .rdy) (h0 : t ≠ 0) :
    ∃ T, removeFromTCBRdyList cfg s t = some (s.unreadied (s.rdyLinks.unlink t) T) ∧
      Pending cfg { s.unreadied (s.rdyLinks.unlink t) T with state := update s.state t .WAITING }
        (g.unready t) cur := by
  obtain ⟨T, h1, h2⟩ := h.coh.unready ho
  have hlive : Live cfg g t := h.coh.rep.rdy_live ((h.coh.rep.tcb.mem .rdy t).mpr ho)
  have hready := ((h.coh.task t hlive).rdy ho).1
  refine ⟨T, h1, h2, h.lt, h.running, h.next, h.lock, ?_, h.ticks, ?_⟩
  · rcases h.req with hr | ⟨hr, hfirst⟩
    · exact Or.inl hr
    · refine Or.inr ⟨?_, ?_⟩
      · have htc : cur ≠ t := by
          rintro rfl
          rw [hr] at hready
          exact nomatch hready
        exact (Function.update_of_ne htc ..).trans hr
      · intro u hu
        have he : (g.unready t).tcb.lst .rdy = (g.tcb.lst .rdy).erase t := Family.take_lst_self ..
        rw [he] at hu
        exact hfirst u (List.mem_of_mem_erase hu)
  · rcases h.idle with e | e
    · exact Or.inl ((Family.take_loc_ne _ _ (Ne.symm h0)).trans e)
    · exact Or.inr ⟨(Family.take_loc_ne _ _ (Ne.symm h0)).trans e.1,
        (Function.update_of_ne (Ne.symm h0) ..).trans e.2⟩

/-- The running task, not the idle one, starts to wait. -/
theorem Pending.block (h : Pending cfg s g cur) (hc : cur ≠ 0) (hr : s.state cur = .RUNNING) :
    Pending cfg { s with state := update s.state cur .WAITING, TaskSchedReq := true } g cur := by
  have hlive := h.live hr
  obtain ⟨ho, -⟩ := h.coh.loc_of_running hlive hr
  have hw : Coh cfg { s with state := update s.state cur .WAITING } g := h.coh.setWaiting hlive ho
  refine ⟨hw.congr rfl, h.lt, h.running, h.next, h.lock, Or.inl rfl, h.ticks, ?_⟩
  rcases h.idle with e | e
  · exact Or.inl e
  · exact Or.inr ⟨e.1, (Function.update_of_ne (Ne.symm hc) ..).trans e.2⟩

/-- The idle task does not wait, so it stays as it is when another task moves. -/
theorem IdleOk.keep {s' : Kernel} {g' : Ghost} (h : IdleOk s g) (hl : g'.tcb.loc 0 = g.tcb.loc 0)
    (hs : s'.state 0 = s.state 0) : IdleOk s' g' := by
  unfold IdleOk
  rw [hl, hs]
  exact h

theorem Coh.ne_idle (h : Coh cfg s g) (hi : IdleOk s g) (hw : s.state t = .WAITING) : t ≠ 0 := by
  rintro rfl
  rcases hi with e | e
  · have hlive : Live cfg g 0 := h.rep.rdy_live ((h.rep.tcb.mem .rdy 0).mpr e)
    rw [((h.task 0 hlive).rdy e).1] at hw
    exact nomatch hw
  · rw [e.2] at hw
    exact nomatch hw

/-- A task other than the idle task is given a delay. -/
theorem Pending.delay (h : Pending cfg s g cur) (hlive : Live cfg g t) (ho : g.tcb.loc t = none)
    (ht : t ≠ 0) {n : Nat} (hn : n ≠ 0) (hlt : n < 2 ^ 31) :
    ∃ D, insertDelayList cfg s t n =
        some { s.setDly D with state := update s.state t .WAITING, TaskSchedReq := true } ∧
      Pending cfg { s.setDly D with state := update s.state t .WAITING, TaskSchedReq := true }
        (g.delay t n) cur := by
  obtain ⟨D, h1, h2⟩ := h.coh.delay hlive ho hn hlt
  have h0 : (0 : Nat) ≠ t := Ne.symm ht
  refine ⟨D, h1, h2, h.lt, h.running, h.next, h.lock, Or.inl rfl, ?_,
    h.idle.keep (Family.put_loc_ne _ _ h0) (Function.update_of_ne h0 ..)⟩
  intro hl x hx
  rcases mem_insertKey.mp hx with rfl | hx
  · exact Nat.pos_of_ne_zero hn
  · exact h.ticks hl x hx

/-- `if(ptcb->delayTick != INVALID_VALUE) RemoveDelayList(ptcb)`. -/
theorem Pending.undelay (h : Pending cfg s g cur) (hlive : Live cfg g t)
    (hw : s.state t = .WAITING) (hloc : g.tcb.loc t = none ∨ g.tcb.loc t = some .dly) :
    ∃ g', Pending cfg (if s.delayTick t ≠ INVALID_VALUE then removeDelayList s t else s) g' cur ∧
      g'.tcb.loc t = none ∧ g'.evt = g.evt ∧ (∀ a, a ≠ t → g'.tcb.loc a = g.tcb.loc a) ∧
      (∀ k, k ≠ .dly → g'.tcb.lst k = g.tcb.lst k) ∧ ∀ x ∈ g'.dly, x ∈ g.dly := by
  have hiff := h.coh.delayTick_iff hlive
  have h0 : (0 : Nat) ≠ t := Ne.symm (h.coh.ne_idle h.idle hw)
  rcases hloc with hloc | hloc
  · have hno : ¬ s.delayTick t ≠ INVALID_VALUE := by
      rw [hiff, hloc]
      exact fun e => nomatch e
    rw [if_neg hno]
    exact ⟨g, h, hloc, rfl, fun _ _ => rfl, fun _ _ => rfl, fun _ hx => hx⟩
  · rw [if_pos (hiff.mpr hloc)]
    refine ⟨g.undelay t, ⟨h.coh.undelay hloc, h.lt, h.running, h.next, h.lock, ?_, ?_,
      h.idle.keep (Family.take_loc_ne _ _ h0) rfl⟩, Family.take_loc_self .., rfl,
      fun a ha => Family.take_loc_ne _ _ ha, fun k hk => Family.take_lst_ne _ _ hk,
      fun x hx => List.mem_of_mem_filter hx⟩
    · have he : (g.undelay t).tcb.lst .rdy = g.tcb.lst .rdy := Family.take_lst_ne _ _ (by decide)
      rw [he]
      exact h.req
    · intro hl x hx
      exact h.ticks hl x (List.mem_of_mem_filter hx)

/-- `if(ptcb->eventID != INVALID_ID) RemoveEventWaittingList(ptcb)`. -/
theorem Pending.leave (h : Pending cfg s g cur) (hlive : Live cfg g t) :
    Pending cfg (if s.eventID t ≠ INVALID_ID then removeEventWaittingList s t else s) (g.leave t)
      cur := by
  obtain ⟨htcb, hdly⟩ := g.leave_tcb t
  obtain ⟨k1, -, -, k4, k5⟩ := leave_keeps s t
  have hp := congrArg Aside.prio k4
  have hreq : (if s.eventID t ≠ INVALID_ID then removeEventWaittingList s t else s).TaskSchedReq =
      s.TaskSchedReq := by
    split
    · rfl
    · rfl
  have hlate : s.Late →
    (if s.eventID t ≠ INVALID_ID then removeEventWaittingList s t else s).Late := by
    split
    · exact id
    · exact id
  refine ⟨h.coh.leave hlive, h.lt, (congrArg Cpu.TCBRunning k5).trans h.running,
    (congrArg Cpu.TCBNext k5).trans h.next,
    Nat.lt_of_lt_of_eq h.lock (congrArg Cpu.OSSchedLock k5).symm, ?_, ?_, ?_⟩
  · rw [hreq, htcb, k1]
    refine h.req.imp id fun e => ⟨e.1, fun u hu => ?_⟩
    have := e.2 u hu
    rwa [← show _ = s.prio from hp] at this
  · rw [hdly]
    exact fun hn => h.ticks (mt hlate hn)
  · exact h.idle.keep (by rw [htcb]) (congrFun k1 0)

/-- A task joins the waiting list of an event. -/
theorem Pending.join (h : Pending cfg s g cur) (hlive : Live cfg g t)
    (hloc : g.tcb.loc t = none ∨ g.tcb.loc t = some .dly) (ho : g.evt.loc t = none) (ht : t ≠ 0)
    {e : Nat} (he : e < cfg.maxEvent)
    (hsort : s.eventSortType e = sortFifo ∨ s.eventSortType e = sortPrio) :
    ∃ L, linkWaiting cfg { s with eventID := update s.eventID t e } e t =
        some ({ s with eventID := update s.eventID t e }.setEvtLinks e L) ∧
      Pending cfg { { s with eventID := update s.eventID t e }.setEvtLinks e L with
        state := update s.state t .WAITING, TaskSchedReq := true } (g.wait s e t) cur := by
  obtain ⟨L, h1, h2⟩ := h.coh.joinEvent hlive hloc ho he hsort
  exact ⟨L, h1, h2, h.lt, h.running, h.next, h.lock, Or.inl rfl, h.ticks,
    h.idle.keep rfl (Function.update_of_ne (Ne.symm ht) ..)⟩

/-- `EventTaskToWait` inside a locked section: its own unlock does not schedule. -/
theorem Pending.wait (h : Pending cfg s g cur) (hlive : Live cfg g t)
    (hloc : g.tcb.loc t = none ∨ g.tcb.loc t = some .dly) (ho : g.evt.loc t = none) (ht : t ≠ 0)
    {e : Nat} (he : e < cfg.maxEvent)
    (hsort : s.eventSortType e = sortFifo ∨ s.eventSortType e = sortPrio) :
    ∃ s', eventTaskToWait cfg s e t = some s' ∧ Pending cfg s' (g.wait s e t) cur ∧
      s'.aside = s.aside ∧ s'.OSSchedLock = s.OSSchedLock ∧
      s'.state = update s.state t .WAITING ∧ s'.OSTickCnt = s.OSTickCnt := by
  obtain ⟨L, e1, e2⟩ := h.enter.join hlive hloc ho ht he hsort
  let s1 : Kernel := { { osSchedLock s with
    eventID := update s.eventID t e }.setEvtLinks e L with
    state := update s.state t .WAITING
    TaskSchedReq := true }
  have hlock : 1 < s1.OSSchedLock := Nat.succ_lt_succ h.lock
  obtain ⟨f1, f2⟩ := Pending.exit (s := s1) e2 hlock
  refine ⟨_, ?_, f2, ?_, rfl, rfl, rfl⟩
  · unfold eventTaskToWait
    change (linkWaiting cfg { osSchedLock s with
      eventID := update (osSchedLock s).eventID t e } e t).bind _ = _
    rw [e1]
    exact f1
  · exact setEvtLinks_aside { osSchedLock s with eventID := update s.eventID t e } L e

/-- The priority of a task that is not ready changes; if it is the running task, a request is
    raised or it is still urgent enough. -/
theorem Pending.setPrio (h : Pending cfg s g cur) (hlive : Live cfg g t)
    (ht : g.tcb.loc t ≠ some .rdy) {p : Nat} (hp : p < 256)
    (hreq : t = cur → s.TaskSchedReq = true ∨ ∀ u ∈ g.tcb.lst .rdy, p ≤ s.prio u) :
    ∃ T, changeTaskPri cfg s (s.prio t) p = some (s.setPriTable T) ∧
      Pending cfg { s.setPriTable T with prio := update s.prio t p } g cur := by
  obtain ⟨T, h1, h2⟩ := h.coh.setPrio hlive ht hp
  refine ⟨T, h1, h2, h.lt, h.running, h.next, h.lock, ?_, h.ticks, h.idle⟩
  have hne : ∀ u ∈ g.tcb.lst .rdy, u ≠ t := fun u hu e => ht (e ▸ (h.coh.rep.tcb.mem .rdy u).mp hu)
  change s.TaskSchedReq = true ∨ s.state cur = .RUNNING ∧
    ∀ u ∈ g.tcb.lst .rdy, update s.prio t p cur ≤ update s.prio t p u
  by_cases hr : s.TaskSchedReq = true
  · exact Or.inl hr
  · obtain ⟨hst, hfirst⟩ := h.req.resolve_left hr
    refine Or.inr ⟨hst, fun u hu => ?_⟩
    rw [Function.update_of_ne (hne u hu)]
    by_cases htc : cur = t
    · rw [htc, Function.update_self]
      exact (hreq htc.symm).resolve_left hr u hu
    · rw [Function.update_of_ne htc]
      exact hfirst u hu

/-- A task that is in no list and waits for nothing gives its TCB back, with a request. -/
theorem Pending.release (h : Pending cfg s g cur) (ht : t < cfg.tasks) (ho : g.tcb.loc t = none)
    (he : g.evt.loc t = none) (h0 : t ≠ 0) {s1 : Kernel}
    (hs1 : s1 = { s with state := update s.state t .DORMANT, TaskSchedReq := true }) :
    ∃ T, (if cfg.orderListScheduleEn then some s1 else deleteTaskPri s1 (s1.prio t)) =
        some (s1.setPriTable T) ∧ Pending cfg ((s1.setPriTable T).freed t) (g.release t) cur := by
  obtain ⟨T, h1, h2⟩ := h.coh.release ht ho he hs1
  refine ⟨T, h1, h2, h.lt, ?_, ?_, ?_, Or.inl ?_, ?_,
    h.idle.keep (Family.put_loc_ne _ _ (Ne.symm h0)) ?_⟩
  · rw [hs1]
    exact h.running
  · rw [hs1]
    exact h.next
  · rw [hs1]
    exact h.lock
  · rw [hs1]
    rfl
  · rw [hs1]
    exact h.ticks
  · rw [hs1]
    exact Function.update_of_ne (Ne.symm h0) ..

end Pending

end CoOS
