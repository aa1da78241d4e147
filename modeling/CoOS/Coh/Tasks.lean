/-
  The list functions of the kernel on coherent states. Each lemma gives what a function
  returns and the ghost state in which the result is coherent again. A task between two lists
  is in no list, and then it is WAITING, or RUNNING and `TCBNext`.
-/
import CoOS.Coh.Moves

namespace CoOS

open Function (update)
open DList KeyOrder

section Tasks

variable {cfg : Env} {s : Kernel} {g : Ghost} {t : Nat}

/-- Where a task that waits for an event is. -/
theorem Coh.waits (h : Coh cfg s g) (hlive : Live cfg g t) {e : Nat} (he : g.evt.loc t = some e) :
    s.state t = .WAITING ∧ (g.tcb.loc t = none ∨ g.tcb.loc t = some .dly) := by
  have ht := h.task t hlive
  cases hloc : g.tcb.loc t with
  | none =>
    rcases ht.off hloc with e1 | e1
    · exact ⟨e1, Or.inl rfl⟩
    · rw [he] at e1
      exact nomatch e1.2
  | some k =>
    cases k with
    | rdy =>
      have := (ht.rdy hloc).2
      rw [he] at this
      exact nomatch this
    | dly => exact ⟨ht.dly hloc, Or.inr rfl⟩
    | free => exact absurd hloc hlive.2
    | mtx m =>
      have := (ht.mtx m hloc).2.2
      rw [he] at this
      exact nomatch this

theorem Coh.evt_live (h : Coh cfg s g) {e : Nat} (he : g.evt.loc t = some e) : Live cfg g t := by
  refine ⟨(h.rep.evLt t e he).1, fun hf => ?_⟩
  have := (h.free t hf).1
  rw [he] at this
  exact nomatch this

theorem Coh.tick_of_off (h : Coh cfg s g) (hlive : Live cfg g t) (ho : g.tcb.loc t = none) :
    s.delayTick t = INVALID_VALUE := by
  refine (h.task t hlive).tick ?_
  rw [ho]
  exact fun e => nomatch e

/-! ## The ready list -/

/-- `InsertToTCBRdyList` of a task in no list. -/
theorem Coh.mkReady (h : Coh cfg s g) (hlive : Live cfg g t) (ho : g.tcb.loc t = none)
    (he : g.evt.loc t = none) :
    ∃ L T ct, insertToTCBRdyList cfg s t = some (s.readied t L T ct
        (s.TaskSchedReq || decide ((insertKey s.prio t (g.tcb.lst .rdy)).head? = some t))) ∧
      ∀ req, Coh cfg (s.readied t L T ct req) (g.mkReady s.prio t) := by
  obtain ⟨L, T, ct, h1, h2⟩ := h.rep.mkReady hlive.1 ho
  refine ⟨L, T, ct, h1, fun req => ?_⟩
  have hok := h.task t hlive
  have hst : (s.readied t L T ct req).state t = .READY := Function.update_self ..
  refine h.retask (h2 req) hlive (free_put (by decide) hlive.2) (fun a ha => ?_) ?_ ?_ (Or.inl rfl)
    rfl rfl rfl
  · exact ⟨rfl, fun _ => rfl, Function.update_of_ne ha .., rfl, Family.put_loc_ne _ _ ha, rfl⟩
  · exact taskOk_in hok.ev (Family.put_loc_self ..) (fun _ => h.tick_of_off hlive ho)
      (fun _ => ⟨hst, he⟩) (fun e => nomatch e) (fun m e => nomatch e)
  · rw [hst]
    exact fun e => nomatch e

/-- `RemoveFromTCBRdyList` of a task that is to wait. -/
theorem Coh.unready (h : Coh cfg s g) (ho : g.tcb.loc t = some .rdy) :
    ∃ T, removeFromTCBRdyList cfg s t = some (s.unreadied (s.rdyLinks.unlink t) T) ∧
      Coh cfg { s.unreadied (s.rdyLinks.unlink t) T with state := update s.state t .WAITING }
        (g.unready t) := by
  obtain ⟨T, h1, h2⟩ := h.rep.unready ho
  have hlive : Live cfg g t := h.rep.rdy_live ((h.rep.tcb.mem .rdy t).mpr ho)
  have hok := h.task t hlive
  have htick : s.delayTick t = INVALID_VALUE := hok.tick (by rw [ho]; exact fun e => nomatch e)
  refine ⟨T, h1, ?_⟩
  refine h.retask (h2.congr rfl rfl rfl rfl rfl) hlive (free_take hlive.2) (fun a ha => ?_) ?_ ?_
    (Or.inl rfl) rfl rfl rfl
  · exact ⟨rfl, fun _ => rfl, Function.update_of_ne ha .., rfl, Family.take_loc_ne _ _ ha, rfl⟩
  · exact taskOk_off hok.ev htick (Family.take_loc_self ..)
      (Or.inl (Function.update_self ..))
  · intro e
    have hst : update s.state t .WAITING t = .RUNNING := e
    rw [Function.update_self] at hst
    exact nomatch hst

/-- A task in no list starts to wait. -/
theorem Coh.setWaiting (h : Coh cfg s g) (hlive : Live cfg g t) (ho : g.tcb.loc t = none) :
    Coh cfg { s with state := update s.state t .WAITING } g := by
  have hok := h.task t hlive
  refine h.retask (h.rep.congr rfl rfl rfl rfl rfl) hlive (fun _ => Iff.rfl) (fun a ha => ?_) ?_ ?_
    (Or.inl rfl) rfl rfl rfl
  · exact ⟨rfl, fun _ => rfl, Function.update_of_ne ha .., rfl, rfl, rfl⟩
  · exact taskOk_off hok.ev (h.tick_of_off hlive ho) ho (Or.inl (Function.update_self ..))
  · intro e
    have hst : update s.state t .WAITING t = .RUNNING := e
    rw [Function.update_self] at hst
    exact nomatch hst

/-- A task in no list gets the CPU when no other task has it. -/
theorem Coh.setRunning (h : Coh cfg s g) (hlive : Live cfg g t) (ho : g.tcb.loc t = none)
    (he : g.evt.loc t = none) (hno : ∀ a, Live cfg g a → a ≠ t → s.state a ≠ .RUNNING) :
    Coh cfg { s with state := update s.state t .RUNNING, TCBNext := some t } g := by
  have hok := h.task t hlive
  refine h.retask (h.rep.congr rfl rfl rfl rfl rfl) hlive (fun _ => Iff.rfl) (fun a ha => ?_) ?_
    (fun _ => rfl) (Or.inr hno) rfl rfl rfl
  · exact ⟨rfl, fun _ => rfl, Function.update_of_ne ha .., rfl, rfl, rfl⟩
  · exact taskOk_off hok.ev (h.tick_of_off hlive ho) ho
      (Or.inr ⟨Function.update_self .., he⟩)

/-! ## The delay list -/

/-- `InsertDelayList` of a task in no list. -/
theorem Coh.delay (h : Coh cfg s g) (hlive : Live cfg g t) (ho : g.tcb.loc t = none) {n : Nat}
    (hn : n ≠ 0) (hlt : n < 2 ^ 31) :
    ∃ D, insertDelayList cfg s t n =
        some { s.setDly D with state := update s.state t .WAITING, TaskSchedReq := true } ∧
      Coh cfg { s.setDly D with state := update s.state t .WAITING, TaskSchedReq := true }
        (g.delay t n) := by
  obtain ⟨D, h1, h2, h3⟩ := h.rep.delay hlive.1 ho hn hlt
  have hok := h.task t hlive
  refine ⟨D, h1, ?_⟩
  refine h.retask (h2.congr rfl rfl rfl rfl rfl) hlive (free_put (by decide) hlive.2)
    (fun a ha => ?_) ?_ ?_ (Or.inl rfl) rfl rfl rfl
  · exact ⟨rfl, fun hd => h3 a hd ha, Function.update_of_ne ha .., rfl,
      Family.put_loc_ne _ _ ha, rfl⟩
  · exact taskOk_in hok.ev (Family.put_loc_self ..) (fun e => absurd rfl e)
      (fun e => nomatch e) (fun _ => Function.update_self ..) (fun m e => nomatch e)
  · intro e
    have hst : update s.state t .WAITING t = .RUNNING := e
    rw [Function.update_self] at hst
    exact nomatch hst

/-- `RemoveDelayList`. -/
theorem Coh.undelay (h : Coh cfg s g) (ho : g.tcb.loc t = some .dly) :
    Coh cfg (removeDelayList s t) (g.undelay t) := by
  obtain ⟨h1, h2⟩ := h.rep.undelay ho
  have hlive : Live cfg g t := ⟨h.rep.lt t .dly ho, by rw [ho]; exact fun e => nomatch e⟩
  have hok := h.task t hlive
  refine h.retask h1 hlive (free_take hlive.2) (fun a ha => ?_) ?_ ?_ (Or.inl rfl) rfl rfl rfl
  · exact ⟨rfl, fun hd => h2 a hd ha, rfl, rfl, Family.take_loc_ne _ _ ha, rfl⟩
  · exact taskOk_off hok.ev (Function.update_self ..) (Family.take_loc_self ..)
      (Or.inl (hok.dly ho))
  · intro e
    rw [show (removeDelayList s t).state t = s.state t from rfl, hok.dly ho] at e
    exact nomatch e

/-! ## Events -/

/-- The part of `EventTaskToWait` between the lock and the unlock. -/
theorem Coh.joinEvent (h : Coh cfg s g) (hlive : Live cfg g t)
    (hloc : g.tcb.loc t = none ∨ g.tcb.loc t = some .dly) (ho : g.evt.loc t = none) {e : Nat}
    (he : e < cfg.maxEvent)
    (hsort : s.eventSortType e = sortFifo ∨ s.eventSortType e = sortPrio) :
    ∃ L, linkWaiting cfg { s with eventID := update s.eventID t e } e t =
        some ({ s with eventID := update s.eventID t e }.setEvtLinks e L) ∧
      Coh cfg { { s with eventID := update s.eventID t e }.setEvtLinks e L with
        state := update s.state t .WAITING, TaskSchedReq := true } (g.wait s e t) := by
  have hrep : Rep cfg { s with eventID := update s.eventID t e } g :=
    h.rep.congr rfl rfl rfl rfl rfl
  obtain ⟨L, h1, h2⟩ := hrep.joinEvent hlive.1 he ho hsort
  have hok := h.task t hlive
  refine ⟨L, h1, ?_⟩
  have hev : update s.eventID t e t = ((g.wait s e t).evt.loc t).getD INVALID_ID := by
    rw [Function.update_self]
    simp [Ghost.wait, Ghost.joinEvent]
  refine h.retask (h2.congr rfl rfl rfl rfl rfl) hlive (fun _ => Iff.rfl) (fun a ha => ?_) ?_ ?_
    (Or.inl rfl) rfl rfl rfl
  · exact ⟨Function.update_of_ne ha .., fun _ => rfl, Function.update_of_ne ha .., rfl, rfl,
      Family.put_loc_ne _ _ ha⟩
  · rcases hloc with hloc | hloc
    · exact taskOk_off hev (h.tick_of_off hlive hloc) hloc
        (Or.inl (Function.update_self ..))
    · exact taskOk_in hev hloc (fun e => absurd rfl e) (fun e => absurd e (by decide))
        (fun _ => Function.update_self ..) (fun m e => Kind.noConfusion e)
  · intro e'
    have hst : update s.state t .WAITING t = .RUNNING := e'
    rw [Function.update_self] at hst
    exact absurd hst (by decide)

/-- `RemoveEventWaittingList`. -/
theorem Coh.leaveEvent (h : Coh cfg s g) {e : Nat} (he : g.evt.loc t = some e) :
    Coh cfg (removeEventWaittingList s t) (g.leaveEvent e t) := by
  have hlive := h.evt_live he
  have hok := h.task t hlive
  have hid : s.eventID t = e := by
    rw [hok.ev, he]
    rfl
  obtain ⟨hst, hloc⟩ := h.waits hlive he
  have hev : (removeEventWaittingList s t).eventID t =
      ((g.leaveEvent e t).evt.loc t).getD INVALID_ID := by
    rw [show (removeEventWaittingList s t).eventID t = INVALID_ID from Function.update_self ..]
    simp [Ghost.leaveEvent]
  refine h.retask (h.rep.leaveEvent hid he) hlive (fun _ => Iff.rfl) (fun a ha => ?_) ?_ ?_
    (Or.inl rfl) rfl rfl rfl
  · exact ⟨Function.update_of_ne ha .., fun _ => rfl, rfl, rfl, rfl,
      Family.take_loc_ne _ _ ha⟩
  · rcases hloc with hloc | hloc
    · exact taskOk_off hev (h.tick_of_off hlive hloc) hloc (Or.inl hst)
    · exact taskOk_in hev hloc (fun e => absurd rfl e) (fun e => absurd e (by decide))
        (fun _ => hst) (fun m e => Kind.noConfusion e)
  · intro e'
    rw [show (removeEventWaittingList s t).state t = s.state t from rfl, hst] at e'
    exact absurd e' (by decide)

/-- Taking the head of a waiting list, as `EventTaskToRdy` does, is its removal. -/
theorem popEvent_eq (h : Coh cfg s g) {e : Nat} (hd : s.eventTCBList e = some t) :
    g.evt.loc t = some e ∧
      { s with
        eventTCBList := update s.eventTCBList e (s.waitNext t)
        waitPrev := clearPrev (s.waitNext t) s.waitPrev
        waitNext := update s.waitNext t none
        eventID := update s.eventID t INVALID_ID } = removeEventWaittingList s t := by
  have hl : IsDList (s.evtLinks e) (g.evt.lst e) := h.rep.evt.double e rfl
  have hhead : (g.evt.lst e).head? = some t := hl.head.symm.trans hd
  obtain ⟨l, hlst⟩ : ∃ l, g.evt.lst e = [] ++ t :: l := by
    cases hc : g.evt.lst e with
    | nil =>
      rw [hc] at hhead
      exact nomatch hhead
    | cons x l =>
      rw [hc] at hhead
      obtain rfl : x = t := Option.some.inj hhead
      exact ⟨l, rfl⟩
  have he : g.evt.loc t = some e := (h.rep.evt.mem e t).mp (by rw [hlst]; simp)
  rw [hlst] at hl
  have hid : s.eventID t = e := by
    rw [(h.task t (h.evt_live he)).ev, he]
    rfl
  have hun : (s.evtLinks e).unlink t = _ := unlink_head hl.prev_split
  refine ⟨he, ?_⟩
  unfold removeEventWaittingList
  rw [hid]
  change _ = { s.setEvtLinks e ((s.evtLinks e).unlink t) with
    eventID := update s.eventID t INVALID_ID }
  rw [hun]
  rfl

/-! ## Ticks -/

theorem Coh.tickDown (h : Coh cfg s g) {x : Nat × Nat} {l : List (Nat × Nat)} (hd : g.dly = x :: l)
    (hx : 0 < x.2) :
    Coh cfg { s with delayTick := update s.delayTick x.1 (s.delayTick x.1 - 1) } g.tickDown := by
  have hloc : g.tcb.loc x.1 = some .dly := h.rep.mem_dly.mp (by rw [hd]; simp)
  have hlive : Live cfg g x.1 := ⟨h.rep.lt x.1 .dly hloc, by rw [hloc]; exact fun e => nomatch e⟩
  have hok := h.task x.1 hlive
  refine h.retask (h.rep.tickDown hd hx) hlive (fun _ => Iff.rfl) (fun a ha => ?_) ?_
    (h.run x.1 hlive) (Or.inl rfl) rfl rfl rfl
  · exact ⟨rfl, fun _ => Function.update_of_ne ha .., rfl, rfl, rfl, rfl⟩
  · exact taskOk_in hok.ev hloc (fun e => absurd rfl e) (fun e => nomatch e)
      (fun _ => hok.dly hloc) (fun m e => nomatch e)

/-- The head of the delay list, its time up and waiting for no event, becomes ready. -/
theorem Coh.expire (h : Coh cfg s g) {l : List (Nat × Nat)} (hd : g.dly = (t, 0) :: l)
    (he : g.evt.loc t = none) :
    ∃ L T ct, insertToTCBRdyList cfg (dropHead s t) t = some ((dropHead s t).readied t L T ct
        (s.TaskSchedReq || decide ((insertKey s.prio t (g.tcb.lst .rdy)).head? = some t))) ∧
      ∀ req, Coh cfg (fixHead ((dropHead s t).readied t L T ct req))
        ((g.undelay t).mkReady s.prio t) := by
  obtain ⟨L, T, ct, h1, h2⟩ := h.rep.expire hd
  have hloc : g.tcb.loc t = some .dly := h.rep.mem_dly.mp (by rw [hd]; simp)
  have hlive : Live cfg g t := ⟨h.rep.lt t .dly hloc, by rw [hloc]; decide⟩
  have hok := h.task t hlive
  refine ⟨L, T, ct, h1, fun req => ?_⟩
  have hst : (fixHead ((dropHead s t).readied t L T ct req)).state t = .READY :=
    Function.update_self ..
  have hfree : ∀ a, ((g.undelay t).mkReady s.prio t).tcb.loc a = some .free ↔
      g.tcb.loc a = some .free := by
    intro a
    rw [← @free_take g t .dly ((without g.dly t).map Prod.fst) hlive.2 a]
    exact @free_put (g.undelay t) t .rdy _ (by decide) (by simp [Ghost.undelay]) a
  refine h.retask (h2 req) hlive hfree (fun a ha => ?_) ?_ ?_ (Or.inl rfl) rfl rfl rfl
  · exact ⟨rfl, fun _ => Function.update_of_ne ha .., Function.update_of_ne ha .., rfl,
      (Family.put_loc_ne _ _ ha).trans (Family.take_loc_ne _ _ ha), rfl⟩
  · exact taskOk_in hok.ev (Family.put_loc_self ..) (fun _ => Function.update_self ..)
      (fun _ => ⟨hst, he⟩) (fun e => absurd e (by decide)) (fun m e => Kind.noConfusion e)
  · rw [hst]
    exact fun e => TaskState.noConfusion e

/-! ## Creation, deletion, priorities -/

/-- The part of `CreateTask` up to the table: the new task waits. -/
theorem Coh.alloc (h : Coh cfg s g) {l : List Nat} (hl : g.tcb.lst .free = t :: l) {p slice : Nat}
    (hp : p < 256) :
    ∃ T, (if cfg.orderListScheduleEn then some (s.assigned t p slice)
        else activeTaskPri (s.assigned t p slice) p) =
        some ((s.assigned t p slice).setPriTable T) ∧
      Coh cfg { (s.assigned t p slice).setPriTable T with state := update s.state t .WAITING }
        (g.alloc t l) ∧ Live cfg (g.alloc t l) t := by
  have hloc : g.tcb.loc t = some .free := (h.rep.tcb.mem .free t).mp (by rw [hl]; simp)
  obtain ⟨hev, hst⟩ := h.free t hloc
  obtain ⟨T, h1, h2⟩ := @Rep.alloc cfg s g t p slice h.rep l hl hev hp
  have ho : (g.alloc t l).tcb.loc t = none := Family.take_loc_self ..
  have hother : ∀ a, a ≠ t → (g.alloc t l).tcb.loc a = g.tcb.loc a := fun a ha =>
    Family.take_loc_ne _ _ ha
  have hlive : ∀ a, a ≠ t → Live cfg (g.alloc t l) a → Live cfg g a := by
    intro a ha hal
    have := hal.2
    rw [hother a ha] at this
    exact ⟨hal.1, this⟩
  refine ⟨T, h1, ⟨h2.congr rfl rfl rfl rfl rfl, ?_, ?_, ?_, h.nest, h.tmr, ?_, ?_⟩,
    h.rep.lt t .free hloc, by rw [ho]; exact fun e => nomatch e⟩
  · intro a ha
    by_cases hat : a = t
    · subst hat
      refine taskOk_off ?_ (Function.update_self ..) ho (Or.inl (Function.update_self ..))
      change update s.eventID a INVALID_ID a = (g.evt.loc a).getD INVALID_ID
      rw [hev, Function.update_self]
      rfl
    · exact (h.task a (hlive a hat ha)).congr ⟨Function.update_of_ne hat ..,
        fun _ => Function.update_of_ne hat ..,
        Function.update_of_ne hat .., Function.update_of_ne hat .., hother a hat, rfl⟩
  · intro a ha
    have hat : a ≠ t := by
      rintro rfl
      rw [ho] at ha
      exact nomatch ha
    rw [hother a hat] at ha
    refine ⟨(h.free a ha).1, (Function.update_of_ne hat ..).trans ((h.free a ha).2.trans ?_)⟩
    exact (Kernel.spareState_congr cfg (Function.update_of_ne hat ..)).symm
  · intro a ha hrun
    have hrun' : update s.state t .WAITING a = .RUNNING := hrun
    have hat : a ≠ t := by
      rintro rfl
      rw [Function.update_self] at hrun'
      exact nomatch hrun'
    rw [Function.update_of_ne hat] at hrun'
    exact h.run a (hlive a hat ha) hrun'
  · intro a ha
    change update s.hasStk t true a = true
    by_cases hat : a = t
    · rw [hat, Function.update_self]
    · rw [Function.update_of_ne hat]
      exact h.stk a (hlive a hat ha)
  · intro a ha hs
    have hat : a ≠ t := by
      rintro rfl
      rw [ho] at ha
      exact nomatch ha
    rw [hother a hat] at ha
    exact (Function.update_of_ne hat ..).trans
      (h.spare a ha ((Function.update_of_ne hat ..).symm.trans hs))

/-- The end of `CoDelTask`: a task that is in no list gives its TCB back. -/
theorem Coh.release (h : Coh cfg s g) (ht : t < cfg.tasks) (ho : g.tcb.loc t = none)
    (he : g.evt.loc t = none) {s1 : Kernel}
    (hs1 : s1 = { s with state := update s.state t .DORMANT, TaskSchedReq := true }) :
    ∃ T, (if cfg.orderListScheduleEn then some s1 else deleteTaskPri s1 (s1.prio t)) =
        some (s1.setPriTable T) ∧ Coh cfg ((s1.setPriTable T).freed t) (g.release t) := by
  have hrep : Rep cfg s1 g := by
    rw [hs1]
    exact h.rep.congr rfl rfl rfl rfl rfl
  obtain ⟨T, h1, h2⟩ := hrep.release ht ho
  have hother : ∀ a, a ≠ t → (g.release t).tcb.loc a = g.tcb.loc a := fun a ha =>
    Family.put_loc_ne _ _ ha
  have hself : (g.release t).tcb.loc t = some .free := Family.put_loc_self ..
  have hlive : ∀ a, Live cfg (g.release t) a → a ≠ t ∧ Live cfg g a := by
    intro a ha
    have hat : a ≠ t := by
      rintro rfl
      exact ha.2 hself
    have := ha.2
    rw [hother a hat] at this
    exact ⟨hat, ha.1, this⟩
  have hlt : Live cfg g t := ⟨ht, by rw [ho]; exact fun e => nomatch e⟩
  refine ⟨T, h1, ⟨h2, ?_, ?_, ?_, ?_, ?_, ?_, ?_⟩⟩
  · intro a ha
    obtain ⟨hat, hal⟩ := hlive a ha
    rw [hs1]
    exact (h.task a hal).congr ⟨rfl, fun _ => rfl, Function.update_of_ne hat .., rfl,
      hother a hat, rfl⟩
  · rw [hs1]
    intro a ha
    by_cases hat : a = t
    · rw [hat]
      exact ⟨he, (Function.update_self ..).trans (if_pos (Or.inr (h.stk t hlt))).symm⟩
    · rw [hother a hat] at ha
      exact ⟨(h.free a ha).1, (Function.update_of_ne hat ..).trans (h.free a ha).2⟩
  · rw [hs1]
    intro a ha hrun
    obtain ⟨hat, hal⟩ := hlive a ha
    have hrun' : update s.state t .DORMANT a = .RUNNING := hrun
    rw [Function.update_of_ne hat] at hrun'
    exact h.run a hal hrun'
  · rw [hs1]
    exact h.nest
  · rw [hs1]
    exact h.tmr
  · rw [hs1]
    exact fun a ha => h.stk a (hlive a ha).2
  · rw [hs1]
    intro a ha hs
    by_cases hat : a = t
    · rw [hat]
      exact h.tick_of_off hlt ho
    · rw [hother a hat] at ha
      exact h.spare a ha hs

/-- The priority of a task that is not ready changes. -/
theorem Coh.setPrio (h : Coh cfg s g) (hlive : Live cfg g t) (ht : g.tcb.loc t ≠ some .rdy)
    {p : Nat} (hp : p < 256) :
    ∃ T, changeTaskPri cfg s (s.prio t) p = some (s.setPriTable T) ∧
      Coh cfg { s.setPriTable T with prio := update s.prio t p } g := by
  obtain ⟨T, h1, h2⟩ := h.rep.setPrio hlive ht hp
  refine ⟨T, h1, h2, ?_, h.free, h.run, h.nest, h.tmr, h.stk, h.spare⟩
  intro a ha
  exact (h.task a ha).congr ⟨rfl, fun _ => rfl, rfl, rfl, rfl, rfl⟩

end Tasks

end CoOS
