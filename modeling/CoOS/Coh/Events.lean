/-
  Semaphores, mailboxes and queues on coherent states.

  What the calls do to mails, counters, rings and waiting lists is written down once for all
  three kinds of events as functions of `Data` (`Data.post`, `Data.accept`, `Data.pend`,
  `Data.wait`); the theorems say that the code computes them.
-/
import CoOS.Kernel.Frame
import CoOS.Coh.Calls

namespace CoOS

open Function (update)
open DList KeyOrder

/-! ## The calls on `Data` -/

/-- The record of a mail that is moved. -/
def Aside.note (a : Aside) (id mail : Nat) (fate : Fate) : Aside :=
  { a with moves := a.moves ++ [⟨id, mail, fate⟩] }

/-- `handOver`. -/
def Aside.handOver (a : Aside) (e t : Nat) : Aside :=
  let dec := (a.eventCounter e + 65535) % 65536
  match a.eventType e with
  | .mbox => { a with
      pmail := update a.pmail t (a.eventPtr e).mailVal
      eventPtr := update a.eventPtr e .null
      eventCounter := update a.eventCounter e dec }.note e (a.eventPtr e).mailVal (.handed t)
  | .queue =>
    match a.eventPtr e with
    | .qcb q =>
      let head := (a.qHead q + 1) % 65536
      { a with
        pmail := update a.pmail t (a.qBuf q (a.qHead q))
        qHead := update a.qHead q (if head = a.qMaxSize q then 0 else head)
        qSize := update a.qSize q ((a.qSize q + 65535) % 65536)
        }.note e (a.qBuf q (a.qHead q)) (.handed t)
    | _ => a
  | .sem => { a with
      eventCounter := update a.eventCounter e dec
      pmail := update a.pmail t 0xffffffff }.note e 0xffffffff (.handed t)
  | .invalid => a

def Aside.qcb (a : Aside) (e : Nat) : Nat :=
  match a.eventPtr e with
  | .qcb q => q
  | _ => 0

/-- Is there a token or a mail? -/
def Aside.avail (a : Aside) (e : Nat) : Bool :=
  match a.eventType e with
  | .sem => decide (0 < a.eventCounter e)
  | .mbox => decide (a.eventCounter e = 1)
  | .queue => decide (a.qSize (a.qcb e) ≠ 0)
  | .invalid => false

/-- Is there no place for another? -/
def Aside.full (a : Aside) (e : Nat) : Bool :=
  match a.eventType e with
  | .sem => decide (a.eventCounter e = a.initialEventCounter e)
  | .mbox => decide (a.eventCounter e ≠ 0)
  | .queue => decide (a.qSize (a.qcb e) = a.qMaxSize (a.qcb e))
  | .invalid => true

/-- Take one, and the mail. A semaphore has no mail. -/
def Aside.take (a : Aside) (e : Nat) : Aside × Nat :=
  match a.eventType e with
  | .sem => ({ a with
      eventCounter := update a.eventCounter e (a.eventCounter e - 1) }.note e 0xffffffff .taken, 0)
  | .mbox => ({ a with
      eventPtr := update a.eventPtr e .null
      eventCounter := update a.eventCounter e 0 }.note e (a.eventPtr e).mailVal .taken,
      (a.eventPtr e).mailVal)
  | .queue =>
    let q := a.qcb e
    let head := (a.qHead q + 1) % 65536
    ({ a with
      qHead := update a.qHead q (if head = a.qMaxSize q then 0 else head)
      qSize := update a.qSize q ((a.qSize q + 65535) % 65536)
      }.note e (a.qBuf q (a.qHead q)) .taken, a.qBuf q (a.qHead q))
  | .invalid => (a, 0)

/-- Store one. -/
def Aside.store (a : Aside) (e v : Nat) : Aside :=
  match a.eventType e with
  | .sem => { a with eventCounter := update a.eventCounter e ((a.eventCounter e + 1) % 65536) }
  | .mbox => { a with
      eventPtr := update a.eventPtr e (.mail v)
      eventCounter := update a.eventCounter e 1 }
  | .queue =>
    let q := a.qcb e
    let tail := (a.qTail q + 1) % 65536
    { a with
      qBuf := update a.qBuf q (update (a.qBuf q) (a.qTail q) v)
      qTail := update a.qTail q (if tail = a.qMaxSize q then 0 else tail)
      qSize := update a.qSize q ((a.qSize q + 1) % 65536) }
  | .invalid => a

/-- The next outermost unlock ends delays. -/
def Aside.Late (a : Aside) : Prop := a.IsrReq = true ∧ a.TimeReq = true

theorem store_late (a : Aside) (e v : Nat) : (a.store e v).Late ↔ a.Late := by
  unfold Aside.store
  split
  · exact Iff.rfl
  · exact Iff.rfl
  · exact Iff.rfl
  · exact Iff.rfl

theorem take_late (a : Aside) (e : Nat) : (a.take e).1.Late ↔ a.Late := by
  unfold Aside.take
  split
  · exact Iff.rfl
  · exact Iff.rfl
  · exact Iff.rfl
  · exact Iff.rfl

/-- Is `e` an event of the kind `k`? -/
def Aside.isKind (cfg : Env) (a : Aside) (k : EventType) (e : Nat) : Prop :=
  e < cfg.maxEvent ∧ a.eventType e = k

instance (cfg : Env) (a : Aside) (k : EventType) (e : Nat) : Decidable (a.isKind cfg k e) :=
  inferInstanceAs (Decidable (_ ∧ _))

def EventType.fullStatus : EventType → StatusType
  | .sem => .E_SEM_FULL
  | .mbox => .E_MBOX_FULL
  | .queue => .E_QUEUE_FULL
  | .invalid => .E_INVALID_ID

def EventType.emptyStatus : EventType → StatusType
  | .sem => .E_SEM_EMPTY
  | .mbox => .E_MBOX_EMPTY
  | .queue => .E_QUEUE_EMPTY
  | .invalid => .E_INVALID_ID

/-- The head of the waiting list of `e` is released with what is there. -/
def Data.release (d : Data) (e : Nat) : Data :=
  match d.evt.lst e with
  | [] => d
  | t :: l => { aside := d.aside.handOver e t, evt := d.evt.take e t l,
                waits := fun u => u ≠ t ∧ d.waits u, timed := fun u => u ≠ t ∧ d.timed u }

/-- A post that succeeds. -/
def Data.postOk (d : Data) (e v : Nat) : Data :=
  Data.release { d with aside := (d.aside.store e v).note e v .posted } e

/-- `CoPostSem`, `CoPostMail` and `CoPostQueueMail`. -/
def Data.post (cfg : Env) (d : Data) (k : EventType) (e v : Nat) : Data × StatusType :=
  if ¬ d.aside.isKind cfg k e then (d, .E_INVALID_ID)
  else if d.aside.full e then (d, k.fullStatus)
  else (d.postOk e v, .E_OK)

/-- `CoAcceptSem`, `CoAcceptMail` and `CoAcceptQueueMail`. -/
def Data.accept (cfg : Env) (d : Data) (k : EventType) (e : Nat) : Data × Nat × StatusType :=
  if ¬ d.aside.isKind cfg k e then (d, 0, .E_INVALID_ID)
  else if d.aside.avail e then ({ d with aside := (d.aside.take e).1 }, (d.aside.take e).2, .E_OK)
  else (d, 0, k.emptyStatus)

/-- The first critical section of a pend, entered with the scheduler unlocked. -/
def Data.pend (cfg : Env) (d : Data) (k : EventType) (e : Nat) :
    Data × Option (Nat × StatusType) :=
  if ¬ d.aside.isKind cfg k e then (d, some (0, .E_INVALID_ID))
  else if d.aside.avail e then
    ({ d with aside := (d.aside.take e).1 }, some ((d.aside.take e).2, .E_OK))
  else (d, none)

/-- The second critical section of a pend, with a timeout of `n` ticks. -/
def Data.wait (d : Data) (e t n : Nat) : Data :=
  { d with
    evt := d.evt.put e t (waitInsert (d.aside.eventSortType e) d.aside.prio t (d.evt.lst e))
    waits := fun u => u = t ∨ d.waits u
    timed := fun u => (u = t ∧ n ≠ 0) ∨ d.timed u }

/-- The delays of the tasks of `T` run out, one after the other. -/
def Data.expire (d : Data) (T : List Nat) : Data where
  aside := T.foldl Aside.dropFlag d.aside
  evt := ⟨fun e => (d.evt.lst e).filter (· ∉ T), fun t => if t ∈ T then none else d.evt.loc t⟩
  waits := fun t => t ∉ T ∧ d.waits t
  timed := fun t => t ∉ T ∧ d.timed t

/-! ## Releasing a task -/

theorem handOver_aside (s : Kernel) (e t : Nat) : (handOver s e t).aside =
    s.aside.handOver e t := by
  have hty : s.aside.eventType e = s.eventType e := rfl
  have hpt : s.aside.eventPtr e = s.eventPtr e := rfl
  unfold handOver Aside.handOver
  rw [hty, hpt]
  cases s.eventType e with
  | sem => rfl
  | mbox => rfl
  | queue =>
    cases s.eventPtr e with
    | null => rfl
    | ecb e' => rfl
    | qcb q => rfl
    | mail v => rfl
  | invalid => rfl

theorem handOver_keeps (s : Kernel) (e t : Nat) :
    (handOver s e t).view = s.view ∧ (handOver s e t).cpu = s.cpu ∧
      (handOver s e t).TaskSchedReq = s.TaskSchedReq := by
  unfold handOver
  split
  · exact ⟨rfl, rfl, rfl⟩
  · split
    · exact ⟨rfl, rfl, rfl⟩
    · exact ⟨rfl, rfl, rfl⟩
  · exact ⟨rfl, rfl, rfl⟩
  · exact ⟨rfl, rfl, rfl⟩

theorem handOver_late (s : Kernel) (e t : Nat) : (handOver s e t).Late ↔ s.Late := by
  unfold handOver
  split
  · exact Iff.rfl
  · split
    · exact Iff.rfl
    · exact Iff.rfl
  · exact Iff.rfl
  · exact Iff.rfl

theorem handOver_clock (s : Kernel) (e t : Nat) : (handOver s e t).OSTickCnt = s.OSTickCnt := by
  unfold handOver
  split
  · rfl
  · split
    · rfl
    · rfl
  · rfl
  · rfl

section Release

variable {cfg : Env} {s : Kernel} {g : Ghost} {cur t : Nat}

/-- `EventTaskToRdy` when somebody waits. -/
theorem eventTaskToRdy_some (h : Coh cfg s g) {e : Nat} (hd : s.eventTCBList e = some t) :
    eventTaskToRdy cfg s e =
      let s1 := removeEventWaittingList s t
      let s2 := if s1.delayTick t ≠ INVALID_VALUE then removeDelayList s1 t else s1
      let s3 := handOver s2 e t
      if some t = s3.TCBRunning then some { s3 with state := update s3.state t .RUNNING }
      else insertToTCBRdyList cfg s3 t := by
  obtain ⟨-, hpop⟩ := popEvent_eq h hd
  unfold eventTaskToRdy
  split
  · next e' =>
    rw [hd] at e'
    exact nomatch e'
  · next t' e' =>
    rw [hd] at e'
    obtain rfl : t = t' := Option.some.inj e'
    have hrest := congrArg (fun s1 : Kernel =>
      let s2 := if s1.delayTick t ≠ INVALID_VALUE then removeDelayList s1 t else s1
      let s3 := handOver s2 e t
      if some t = s3.TCBRunning then some { s3 with state := update s3.state t .RUNNING }
      else insertToTCBRdyList cfg s3 t) hpop
    cases hn : s.waitNext t with
    | none =>
      rw [hn] at hrest
      exact hrest
    | some n =>
      rw [hn] at hrest
      exact hrest

theorem undelay_keeps (s : Kernel) (t : Nat) :
    let s' := if s.delayTick t ≠ INVALID_VALUE then removeDelayList s t else s
    s'.aside = s.aside ∧ s'.cpu = s.cpu ∧ s'.state = s.state := by
  intro s'
  unfold s'
  split
  · exact ⟨setDly_aside s (s.dly.remove t), setDly_cpu s (s.dly.remove t), rfl⟩
  · exact ⟨rfl, rfl, rfl⟩

/-- The running task stops to wait before it has lost the CPU. -/
theorem Pending.unblock (h : Pending cfg s g cur) (hlive : Live cfg g cur)
    (hw : s.state cur = .WAITING) (ho : g.tcb.loc cur = none) (he : g.evt.loc cur = none) :
    Pending cfg { s with state := update s.state cur .RUNNING } g cur := by
  have hc0 := h.coh.ne_idle h.idle hw
  have hno : ∀ a, Live cfg g a → a ≠ cur → s.state a ≠ .RUNNING := by
    intro a ha hne hr
    have hn := h.coh.run a ha hr
    rw [h.next] at hn
    exact hne (Option.some.inj hn).symm
  have hcoh : Coh cfg { s with state := update s.state cur .RUNNING } g := by
    refine (h.coh.setRunning hlive ho he hno).congr ?_
    unfold Kernel.view
    rw [h.next]
  have hreq : s.TaskSchedReq = true := by
    rcases h.req with e | e
    · exact e
    · rw [hw] at e
      exact nomatch e.1
  exact ⟨hcoh, h.lt, h.running, h.next, h.lock, Or.inl hreq, h.ticks,
    h.idle.keep rfl (Function.update_of_ne (Ne.symm hc0) ..)⟩

/-- A task that waits leaves the delay list and becomes ready, or goes on if it has not lost
    the CPU; `s3` may differ from what is left of `s` in columns outside the lists. -/
theorem Pending.resume (h : Pending cfg s g cur) (hlive : Live cfg g t) (hw : s.state t = .WAITING)
    (hloc : g.tcb.loc t = none ∨ g.tcb.loc t = some .dly) (he : g.evt.loc t = none) {s3 : Kernel}
    (hv : s3.view = (if s.delayTick t ≠ INVALID_VALUE then removeDelayList s t else s).view)
    (hc : s3.cpu = s.cpu) (hr : s3.TaskSchedReq = s.TaskSchedReq) (hlate : s.Late → s3.Late) :
    ∃ s' g', (if some t = s3.TCBRunning then some { s3 with state := update s3.state t .RUNNING }
        else insertToTCBRdyList cfg s3 t) = some s' ∧ Pending cfg s' g' cur ∧ s'.cpu = s3.cpu ∧
      s'.aside = s3.aside ∧ g'.evt = g.evt ∧ Calm g g' ∧
      (∀ u, s'.state u = .WAITING ↔ u ≠ t ∧ s.state u = .WAITING) ∧
      (∀ u, g'.tcb.loc u = some .dly ↔ u ≠ t ∧ g.tcb.loc u = some .dly) ∧ Eased s3 g s' g' := by
  obtain ⟨g2, e1, e2, e3, e4, e5, e6⟩ := h.undelay hlive hw hloc
  obtain ⟨-, k2, k3⟩ := undelay_keeps s t
  have h3 : Pending cfg s3 g2 cur := by
    refine e1.congr hv (hc.trans k2.symm) (hr.trans ?_) ?_
    · split
      · rfl
      · rfl
    · split
      · exact hlate
      · exact hlate
  have hst : s3.state = s.state := (congrArg KView.state hv).trans k3
  have hlive2 : Live cfg g2 t := ⟨hlive.1, by rw [e2]; exact fun e => nomatch e⟩
  have hev : g2.evt.loc t = none := by
    rw [e3]
    exact he
  have hcalm : Calm g g2 := by
    refine Calm.move t e4 ?_ ?_ (fun m => e5 _ fun e => nomatch e)
    · rcases hloc with hl | hl
      · rw [hl]
        exact plain_none
      · rw [hl]
        exact plain_dly
    · rw [e2]
      exact plain_none
  have hwaits : ∀ {x}, x ≠ TaskState.WAITING → ∀ u, update s3.state t x u = .WAITING ↔
      u ≠ t ∧ s.state u = .WAITING := by
    intro x hx u
    rw [hst]
    exact waits_wake hx u
  have htimed : ∀ u, g2.tcb.loc u = some .dly ↔ u ≠ t ∧ g.tcb.loc u = some .dly := by
    intro u
    by_cases hu : u = t
    · rw [hu, e2]
      exact ⟨(fun e => nomatch e), fun e => absurd rfl e.1⟩
    · rw [e4 u hu]
      exact ⟨fun e => ⟨hu, e⟩, fun e => e.2⟩
  by_cases htc : t = cur
  · subst htc
    refine ⟨_, g2, if_pos h3.running.symm, h3.unblock hlive2 ?_ e2 hev, rfl, rfl, e3, hcalm,
      hwaits (by decide), htimed, e6, rfl⟩
    rw [hst]
    exact hw
  · obtain ⟨L, T, ct, req, f1, f2⟩ := h3.insert hlive2 e2 hev htc
    have hne : ¬ some t = s3.TCBRunning := by
      rw [h3.running]
      exact fun e => htc (Option.some.inj e)
    refine ⟨_, _, (if_neg hne).trans f1, f2, readied_cpu .., readied_aside .., e3,
      hcalm.trans (calm_mkReady e2), hwaits (by decide), fun u => ?_, fun x hx => e6 x ?_, rfl⟩
    · rw [(rdyFrame_mkReady e2).loc u .dly (by decide)]
      exact htimed u
    · rwa [(rdyFrame_mkReady e2).dly] at hx

theorem Ghost.leave_evt_eq (h : Coh cfg s g) {e : Nat} {l : List Nat} (hl : g.evt.lst e = t :: l) :
    (g.leave t).evt = g.evt.take e t l := by
  have hloc : g.evt.loc t = some e := (h.rep.evt.mem e t).mp (by rw [hl]; simp)
  unfold Ghost.leave
  rw [hloc]
  change g.evt.take e t ((g.evt.lst e).erase t) = _
  rw [hl, List.erase_cons_head]

theorem eventTCBList_eq (h : Coh cfg s g) (e : Nat) : s.eventTCBList e = (g.evt.lst e).head? :=
  (h.rep.evt.double e rfl).head

/-- **EventTaskToRdy** inside a locked section. -/
theorem eventTaskToRdy_spec (h : Pending cfg s g cur) (e : Nat) :
    ∃ s' g', eventTaskToRdy cfg s e = some s' ∧ Pending cfg s' g' cur ∧ s'.cpu = s.cpu ∧
      Calm g g' ∧ Holds s' g' ((s.data g).release e) ∧ Eased s g s' g' := by
  have hhead := eventTCBList_eq h.coh e
  unfold Data.release
  cases hl : g.evt.lst e with
  | nil =>
    rw [hl] at hhead
    refine ⟨s, g, ?_, h, rfl, Calm.refl _, ?_, .refl s g⟩
    · unfold eventTaskToRdy
      split
      · rfl
      · next e' =>
        rw [hhead] at e'
        exact nomatch e'
    · change Holds s g (match g.evt.lst e with | [] => _ | _ :: _ => _)
      rw [hl]
      exact holds_data s g
  | cons t l =>
    rw [hl] at hhead
    have hd : s.eventTCBList e = some t := hhead
    obtain ⟨hloc, -⟩ := popEvent_eq h.coh hd
    have hlive := h.coh.evt_live hloc
    obtain ⟨hw, htcb⟩ := h.coh.waits hlive hloc
    have hid : s.eventID t ≠ INVALID_ID := (h.coh.eventID_iff hlive).mpr ⟨e, hloc⟩
    have h1 := h.leave hlive
    rw [if_pos hid] at h1
    obtain ⟨ht1, hd1⟩ := g.leave_tcb t
    let s1 := removeEventWaittingList s t
    let s2 := if s1.delayTick t ≠ INVALID_VALUE then removeDelayList s1 t else s1
    obtain ⟨k1, k2, k3⟩ := undelay_keeps s1 t
    obtain ⟨v1, v2, v3⟩ := handOver_keeps s2 e t
    have hkeep : s2.TaskSchedReq = s.TaskSchedReq ∧ s2.OSTickCnt = s.OSTickCnt ∧
      (s.Late → s2.Late) := by
      unfold s2
      split
      · exact ⟨rfl, rfl, id⟩
      · exact ⟨rfl, rfl, id⟩
    have hlive1 : Live cfg (g.leave t) t := by
      unfold Live
      rw [ht1]
      exact hlive
    obtain ⟨s', g', f1, f2, f3, f4, f5, f6, f7, f8, f9⟩ :=
      @Pending.resume cfg s1 (g.leave t) cur t h1
      hlive1 hw
      (by rw [ht1]; exact htcb) (by rw [g.leave_evt, if_pos rfl]) (handOver s2 e t) v1
      (v2.trans k2) (v3.trans hkeep.1) fun hl => (handOver_late s2 e t).mpr (hkeep.2.2 hl)
    refine ⟨s', g', ?_, f2, f3.trans (v2.trans k2), (calm_of_tcb ht1).trans f6, ?_, ?_⟩
    · rw [eventTaskToRdy_some h.coh hd]
      exact f1
    · change Holds s' g' (match g.evt.lst e with | [] => _ | _ :: _ => _)
      rw [hl]
      refine ⟨?_, f5.trans (Ghost.leave_evt_eq h.coh hl), f7, fun u => ?_⟩
      · rw [f4, handOver_aside]
        exact congrArg (fun a => Aside.handOver a e t) k1
      · rw [f8 u, ht1]
        exact Iff.rfl
    · exact ⟨fun x hx => hd1 ▸ f9.dly x hx,
        f9.clock.trans ((handOver_clock s2 e t).trans hkeep.2.1)⟩

/-! ## Posts -/

theorem postTo_spec (h : Pending cfg s g cur) (e v : Nat) :
    ∃ s' g', postTo cfg s e v = some s' ∧ Pending cfg s' g' cur ∧ s'.cpu = s.cpu ∧ Calm g g' ∧
      Holds s' g' (Data.release ⟨s.aside.note e v .posted, g.evt,
        fun t => s.state t = .WAITING, fun t => g.tcb.loc t = some .dly⟩ e) ∧ Eased s g s' g' := by
  obtain ⟨s', g', e1, e2, e3, e4, e5, e6⟩ :=
    @eventTaskToRdy_spec cfg (s.note e v .posted) g cur (h.congr rfl rfl rfl id) e
  exact ⟨s', g', e1, e2, e3, e4, e5, e6.dly, e6.clock⟩

/-- The part of a post from its `OsSchedLock` to its `OsSchedUnlock`, after the storing. -/
theorem post_body (h : Pending cfg (osSchedLock s) g cur) {s0 : Kernel} {e v : Nat}
    (hv : s0.view = s.view) (hc : s0.cpu = (osSchedLock s).cpu)
    (hr : s0.TaskSchedReq = s.TaskSchedReq) (ha : s0.aside = s.aside.store e v) :
    ∃ s1 g1, postTo cfg s0 e v = some s1 ∧ Body cfg s g cur ((s.data g).postOk e v) s1 g1 ∧
      Eased s0 g s1 g1 := by
  have hlate : (osSchedLock s).Late → s0.Late := by
    change s.aside.Late → s0.aside.Late
    rw [ha]
    exact (store_late ..).mpr
  have h0 : Pending cfg s0 g cur := h.congr hv hc hr hlate
  obtain ⟨s1, g1, e1, e2, e3, e4, e5, e6⟩ := postTo_spec h0 e v
  refine ⟨s1, g1, e1, ⟨e2, ?_, e4, ?_⟩, e6⟩
  · exact (congrArg Cpu.OSSchedLock e3).trans (congrArg Cpu.OSSchedLock hc)
  · have hst : s0.state = s.state := congrArg KView.state hv
    rw [ha, hst] at e5
    exact e5

/-- The shape of the three posts. -/
theorem restful_post {k : EventType} {id v : Nat} {res : Option (Kernel × StatusType)}
    (h : Pending cfg (osSchedLock s) g cur)
    (hbad : cfg.maxEvent ≤ id ∨ s.eventType id ≠ k → res = some (s, .E_INVALID_ID))
    (hfull : s.aside.isKind cfg k id → s.aside.full id = true → res = some (s, k.fullStatus))
    (hok : s.aside.isKind cfg k id → s.aside.full id = false → ∃ s0 : Kernel, s0.view = s.view ∧
      s0.cpu = (osSchedLock s).cpu ∧ s0.TaskSchedReq = s.TaskSchedReq ∧
      s0.aside = s.aside.store id v ∧ s0.OSTickCnt = s.OSTickCnt ∧
      res = (postTo cfg s0 id v).bind fun s => (osSchedUnlock cfg s).bind fun s =>
      some (s, .E_OK)) :
    Restful cfg s g cur res fun st d => (d, st) = (s.data g).post cfg k id v := by
  have ha : (s.data g).aside = s.aside := rfl
  unfold Data.post
  rw [ha]
  by_cases hk : s.aside.isKind cfg k id
  · rw [if_neg (not_not.mpr hk)]
    cases hf : s.aside.full id with
    | true =>
      rw [hfull hk hf]
      exact restful_now (if_pos rfl).symm
    | false =>
      obtain ⟨s0, h1, h2, h3, h4, h5, h6⟩ := hok hk hf
      obtain ⟨s1, g1, e1, e2, e3⟩ := post_body h h1 h2 h3 h4
      rw [h6, e1]
      exact restful_end e2 ⟨e3.dly, e3.clock.trans h5⟩ (if_neg (by decide)).symm
  · rw [if_pos hk, hbad]
    · exact restful_now rfl
    · rw [← Nat.not_lt, ← not_and_or]
      exact hk

/-- A guard `id >= CFG_MAX_EVENT || pecb->eventType != k` that is passed. -/
theorem isKind_guard {k : EventType} {id : Nat} (h : s.aside.isKind cfg k id) :
    ¬ (cfg.maxEvent ≤ id ∨ s.eventType id ≠ k) := by
  rw [not_or, not_not, Nat.not_le]
  exact h

/-- **CoPostSem** -/
theorem coPostSem_restful (h : Pending cfg (osSchedLock s) g cur) (id : Nat) :
    Restful cfg s g cur (coPostSem cfg s id) fun st d =>
      (d, st) = (s.data g).post cfg .sem id 0xffffffff := by
  have hfull : s.aside.isKind cfg .sem id →
      s.aside.full id = decide (s.eventCounter id = s.initialEventCounter id) := by
    intro hk
    unfold Aside.full
    rw [hk.2]
    rfl
  unfold coPostSem
  refine restful_post h (fun hid => if_pos hid) (fun hk hf => ?_) (fun hk hf => ?_)
  · rw [hfull hk] at hf
    rw [if_neg (isKind_guard hk), if_pos (of_decide_eq_true hf)]
    rfl
  · rw [hfull hk] at hf
    refine ⟨{ osSchedLock s with
        eventCounter := update s.eventCounter id ((s.eventCounter id + 1) % 65536) },
      rfl, rfl, rfl, ?_, rfl, (if_neg (isKind_guard hk)).trans (if_neg (of_decide_eq_false hf))⟩
    unfold Aside.store
    rw [hk.2]
    rfl

/-- **CoPostMail** -/
theorem coPostMail_restful (h : Pending cfg (osSchedLock s) g cur) (id pmail : Nat) :
    Restful cfg s g cur (coPostMail cfg s id pmail) fun st d =>
      (d, st) = (s.data g).post cfg .mbox id pmail := by
  have hfull : s.aside.isKind cfg .mbox id → s.aside.full id = decide (s.eventCounter id ≠ 0) := by
    intro hk
    unfold Aside.full
    rw [hk.2]
    rfl
  unfold coPostMail
  refine restful_post h (fun hid => if_pos hid) (fun hk hf => ?_) (fun hk hf => ?_)
  · rw [hfull hk] at hf
    rw [if_neg (isKind_guard hk), if_neg (of_decide_eq_true hf)]
    rfl
  · rw [hfull hk] at hf
    refine ⟨{ osSchedLock s with
        eventPtr := update s.eventPtr id (.mail pmail)
        eventCounter := update s.eventCounter id 1 },
      rfl, rfl, rfl, ?_, rfl, (if_neg (isKind_guard hk)).trans
        (if_pos (not_not.mp (of_decide_eq_false hf)))⟩
    unfold Aside.store
    rw [hk.2]
    rfl

/-- **CoPostQueueMail** -/
theorem coPostQueueMail_restful (h : Pending cfg (osSchedLock s) g cur) (id pmail : Nat) :
    Restful cfg s g cur (coPostQueueMail cfg s id pmail) fun st d =>
      (d, st) = (s.data g).post cfg .queue id pmail := by
  have hfull : s.aside.isKind cfg .queue id →
      s.aside.full id = decide (s.qSize (qcbOf s id) = s.qMaxSize (qcbOf s id)) := by
    intro hk
    unfold Aside.full
    rw [hk.2]
    rfl
  unfold coPostQueueMail
  refine restful_post h (fun hid => if_pos hid) (fun hk hf => ?_) (fun hk hf => ?_)
  · rw [hfull hk] at hf
    rw [if_neg (isKind_guard hk)]
    exact if_pos (of_decide_eq_true hf)
  · rw [hfull hk] at hf
    refine ⟨enqueue (osSchedLock s) (qcbOf s id) pmail, rfl, rfl, rfl, ?_, rfl,
      (if_neg (isKind_guard hk)).trans (if_neg (of_decide_eq_false hf))⟩
    unfold Aside.store
    rw [hk.2]
    rfl

/-! ## Accepting, and the test of a pend -/

/-- The shape of the accepts and of the first section of the pends: `take` when something is
    available, else the answer `no`. -/
theorem restful_take {k : EventType} {id : Nat} {β : Type} {ans : Nat × StatusType → β} {no : β}
    {res : Option (Kernel × β)} (h : Pending cfg (osSchedLock s) g cur)
    (hbad : cfg.maxEvent ≤ id ∨ s.eventType id ≠ k → res = some (s, ans (0, .E_INVALID_ID)))
    (hsome : s.aside.isKind cfg k id → s.aside.avail id = true → ∃ s1 : Kernel, s1.view = s.view ∧
      s1.cpu = (osSchedLock s).cpu ∧ s1.TaskSchedReq = s.TaskSchedReq ∧
      s1.aside = (s.aside.take id).1 ∧ s1.OSTickCnt = s.OSTickCnt ∧
      res = (osSchedUnlock cfg s1).bind fun s' => some (s', ans ((s.aside.take id).2, .E_OK)))
    (hnone : s.aside.isKind cfg k id → s.aside.avail id = false →
      res = (osSchedUnlock cfg (osSchedLock s)).bind fun s => some (s, no)) :
    Restful cfg s g cur res fun b d => (d, b) =
      if ¬ s.aside.isKind cfg k id then (s.data g, ans (0, .E_INVALID_ID))
      else if s.aside.avail id then
        ({ s.data g with aside := (s.aside.take id).1 }, ans ((s.aside.take id).2, .E_OK))
      else (s.data g, no) := by
  by_cases hk : s.aside.isKind cfg k id
  · rw [if_neg (not_not.mpr hk)]
    cases hf : s.aside.avail id with
    | true =>
      obtain ⟨s1, h1, h2, h3, h4, h5, h6⟩ := hsome hk hf
      have hst : s1.state = s.state := congrArg KView.state h1
      have hlate : (osSchedLock s).Late → s1.Late := by
        change s.aside.Late → s1.aside.Late
        rw [h4]
        exact (take_late ..).mpr
      have hb : Body cfg s g cur { s.data g with aside := (s.aside.take id).1 } s1 g :=
        ⟨h.congr h1 h2 h3 hlate, congrArg Cpu.OSSchedLock h2, Calm.refl _, h4, rfl,
          (fun t => by rw [hst]; exact Iff.rfl), fun _ => Iff.rfl⟩
      rw [h6]
      exact restful_end hb ⟨fun _ hx => hx, h5⟩ (if_pos rfl).symm
    | false =>
      rw [hnone hk hf]
      exact restful_end (d := s.data g) ⟨h, rfl, Calm.refl _, rfl, rfl, (fun _ => Iff.rfl),
        fun _ => Iff.rfl⟩ ⟨fun _ hx => hx, rfl⟩ (if_neg (by decide)).symm
  · rw [if_pos hk, hbad]
    · exact restful_now rfl
    · rw [← Nat.not_lt, ← not_and_or]
      exact hk

theorem map_bind_pair {β γ : Type} (o : Option Kernel) (b : β) (f : β → γ) :
    ((o.bind fun s => some (s, b)).map fun r => (r.1, f r.2)) = o.bind fun s => some (s, f b) := by
  cases o with
  | none => rfl
  | some s => rfl

theorem avail_sem {id : Nat} (hk : s.aside.isKind cfg .sem id) :
    s.aside.avail id = decide (0 < s.eventCounter id) ∧
      s.aside.take id = ((takeToken (osSchedLock s) id).aside, 0) := by
  unfold Aside.avail Aside.take
  rw [hk.2]
  exact ⟨rfl, rfl⟩

theorem avail_mbox {id : Nat} (hk : s.aside.isKind cfg .mbox id) :
    s.aside.avail id = decide (s.eventCounter id = 1) ∧
      s.aside.take id = ((takeMail (osSchedLock s) id).1.aside, (takeMail s id).2) := by
  unfold Aside.avail Aside.take
  rw [hk.2]
  exact ⟨rfl, rfl⟩

theorem avail_queue {id : Nat} (hk : s.aside.isKind cfg .queue id) :
    s.aside.avail id = decide (s.qSize (qcbOf s id) ≠ 0) ∧ s.aside.take id =
      ((dequeue (osSchedLock s) id (qcbOf s id)).1.aside, (dequeue s id (qcbOf s id)).2) := by
  unfold Aside.avail Aside.take
  rw [hk.2]
  exact ⟨rfl, rfl⟩

/-- **CoAcceptSem**, **CoAcceptMail**, **CoAcceptQueueMail** -/
theorem acceptEvent_restful (h : Pending cfg (osSchedLock s) g cur) {k : EventType}
    (hk : k ≠ .invalid) (id : Nat) :
    Restful cfg s g cur (acceptEvent cfg s k id) fun b d =>
      (d, b) = (s.data g).accept cfg k id := by
  refine @restful_take cfg s g cur k id _ (fun b => b) (0, k.emptyStatus) _ h ?_ ?_ ?_
  · intro hid
    cases k with
    | sem =>
      unfold acceptEvent coAcceptSem acceptSemSection
      rw [if_pos hid]
      rfl
    | mbox => exact if_pos hid
    | queue => exact if_pos hid
    | invalid => exact absurd rfl hk
  · intro hkind hav
    cases k with
    | sem =>
      obtain ⟨e1, e2⟩ := avail_sem hkind
      rw [e1] at hav
      refine ⟨takeToken (osSchedLock s) id, rfl, rfl, rfl, ?_, rfl, ?_⟩
      · rw [e2]
      · unfold acceptEvent coAcceptSem acceptSemSection
        rw [if_neg (isKind_guard hkind), e2]
        dsimp only
        rw [if_pos (show 0 < (osSchedLock s).eventCounter id from of_decide_eq_true hav)]
        exact map_bind_pair _ StatusType.E_OK fun st => (0, st)
    | mbox =>
      obtain ⟨e1, e2⟩ := avail_mbox hkind
      rw [e1] at hav
      refine ⟨(takeMail (osSchedLock s) id).1, rfl, rfl, rfl, ?_, rfl, ?_⟩
      · rw [e2]
      · unfold acceptEvent coAcceptMail acceptMailSection
        dsimp only
        rw [if_neg (isKind_guard hkind), e2,
          if_pos (show (osSchedLock s).eventCounter id = 1 from of_decide_eq_true hav)]
        rfl
    | queue =>
      obtain ⟨e1, e2⟩ := avail_queue hkind
      rw [e1] at hav
      refine ⟨(dequeue (osSchedLock s) id (qcbOf s id)).1, rfl, rfl, rfl, ?_, rfl, ?_⟩
      · rw [e2]
      · unfold acceptEvent coAcceptQueueMail acceptQueueSection
        dsimp only
        rw [if_neg (isKind_guard hkind), e2,
          if_pos (show (osSchedLock s).qSize (qcbOf s id) ≠ 0 from of_decide_eq_true hav)]
        rfl
    | invalid => exact absurd rfl hk
  · intro hkind hav
    cases k with
    | sem =>
      rw [(avail_sem hkind).1] at hav
      unfold acceptEvent coAcceptSem acceptSemSection
      rw [if_neg (isKind_guard hkind)]
      dsimp only
      rw [if_neg (show ¬ 0 < (osSchedLock s).eventCounter id from of_decide_eq_false hav)]
      exact map_bind_pair _ StatusType.E_SEM_EMPTY fun st => (0, st)
    | mbox =>
      rw [(avail_mbox hkind).1] at hav
      unfold acceptEvent coAcceptMail acceptMailSection
      dsimp only
      rw [if_neg (isKind_guard hkind),
        if_neg (show ¬ (osSchedLock s).eventCounter id = 1 from of_decide_eq_false hav)]
      rfl
    | queue =>
      rw [(avail_queue hkind).1] at hav
      unfold acceptEvent coAcceptQueueMail acceptQueueSection
      dsimp only
      rw [if_neg (isKind_guard hkind),
        if_neg (show ¬ (osSchedLock s).qSize (qcbOf s id) ≠ 0 from of_decide_eq_false hav)]
      rfl
    | invalid => exact absurd rfl hk

/-- **CoPendSem**, **CoPendMail**, **CoPendQueueMail**, the first critical section -/
theorem pendEvent_restful (h : Stable cfg s g cur) {k : EventType} (hk : k ≠ .invalid) (id : Nat) :
    Restful cfg s g cur (pendEvent cfg s k id) fun b d => (d, b) = (s.data g).pend cfg k id := by
  have hnest : ¬ 0 < s.OSIntNesting := Nat.not_lt_of_le (Nat.le_of_eq h.coh.nest)
  have hlock : ¬ s.OSSchedLock ≠ 0 := fun e => e h.lock
  refine @restful_take cfg s g cur k id _ some none _ h.enter ?_ ?_ ?_
  · intro hid
    cases k with
    | sem =>
      unfold pendEvent coPendSem pendSemSection
      rw [if_neg hnest, if_pos hid]
      rfl
    | mbox =>
      unfold pendEvent coPendMail pendMailSection
      exact (if_neg hnest).trans (if_pos hid)
    | queue =>
      unfold pendEvent coPendQueueMail pendQueueSection
      exact (if_neg hnest).trans (if_pos hid)
    | invalid => exact absurd rfl hk
  · intro hkind hav
    cases k with
    | sem =>
      obtain ⟨e1, e2⟩ := avail_sem hkind
      rw [e1] at hav
      refine ⟨takeToken (osSchedLock s) id, rfl, rfl, rfl, ?_, rfl, ?_⟩
      · rw [e2]
      · unfold pendEvent coPendSem pendSemSection
        rw [if_neg hnest, if_neg (isKind_guard hkind), if_neg hlock, e2]
        dsimp only
        rw [if_pos (show 0 < (osSchedLock s).eventCounter id from of_decide_eq_true hav)]
        exact map_bind_pair _ (some StatusType.E_OK) fun o => o.map fun st => (0, st)
    | mbox =>
      obtain ⟨e1, e2⟩ := avail_mbox hkind
      rw [e1] at hav
      refine ⟨(takeMail (osSchedLock s) id).1, rfl, rfl, rfl, ?_, rfl, ?_⟩
      · rw [e2]
      · unfold pendEvent coPendMail pendMailSection
        dsimp only
        rw [if_neg hnest, if_neg (isKind_guard hkind), if_neg hlock, e2,
          if_pos (show (osSchedLock s).eventCounter id = 1 from of_decide_eq_true hav)]
        rfl
    | queue =>
      obtain ⟨e1, e2⟩ := avail_queue hkind
      rw [e1] at hav
      refine ⟨(dequeue (osSchedLock s) id (qcbOf s id)).1, rfl, rfl, rfl, ?_, rfl, ?_⟩
      · rw [e2]
      · unfold pendEvent coPendQueueMail pendQueueSection
        dsimp only
        rw [if_neg hnest, if_neg (isKind_guard hkind), if_neg hlock, e2,
          if_pos (show (osSchedLock s).qSize (qcbOf s id) ≠ 0 from of_decide_eq_true hav)]
        rfl
    | invalid => exact absurd rfl hk
  · intro hkind hav
    cases k with
    | sem =>
      rw [(avail_sem hkind).1] at hav
      unfold pendEvent coPendSem pendSemSection
      rw [if_neg hnest, if_neg (isKind_guard hkind), if_neg hlock]
      dsimp only
      rw [if_neg (show ¬ 0 < (osSchedLock s).eventCounter id from of_decide_eq_false hav)]
      exact map_bind_pair _ (none : Option StatusType) fun o => o.map fun st => (0, st)
    | mbox =>
      rw [(avail_mbox hkind).1] at hav
      unfold pendEvent coPendMail pendMailSection
      dsimp only
      rw [if_neg hnest, if_neg (isKind_guard hkind), if_neg hlock,
        if_neg (show ¬ (osSchedLock s).eventCounter id = 1 from of_decide_eq_false hav)]
      rfl
    | queue =>
      rw [(avail_queue hkind).1] at hav
      unfold pendEvent coPendQueueMail pendQueueSection
      dsimp only
      rw [if_neg hnest, if_neg (isKind_guard hkind), if_neg hlock,
        if_neg (show ¬ (osSchedLock s).qSize (qcbOf s id) ≠ 0 from of_decide_eq_false hav)]
      rfl
    | invalid => exact absurd rfl hk

/-- **CoPostSem**, **CoPostMail**, **CoPostQueueMail** -/
theorem postEvent_restful (h : Pending cfg (osSchedLock s) g cur) {k : EventType}
    (hk : k ≠ .invalid) (id : Nat) {mail : Nat} (hm : k = .sem → mail = 0xffffffff) :
    Restful cfg s g cur (postEvent cfg s k id mail) fun st d =>
      (d, st) = (s.data g).post cfg k id mail := by
  cases k with
  | sem =>
    rw [hm rfl]
    exact coPostSem_restful h id
  | mbox => exact coPostMail_restful h id mail
  | queue => exact coPostQueueMail_restful h id mail
  | invalid => exact absurd rfl hk

/-! ## Waiting -/

/-- The second critical section of a pend. -/
theorem pendWait_section (h : Stable cfg s g cur) (hc : cur ≠ 0) {id n : Nat} (hn : n < 2 ^ 31)
    (hid : id < cfg.maxEvent)
    (hsort : s.eventSortType id = sortFifo ∨ s.eventSortType id = sortPrio) :
    ∃ s1 g1, pendWait cfg s id n = osSchedUnlock cfg s1 ∧
      Body cfg s g cur ((s.data g).wait id cur n) s1 g1 ∧
      (∀ x ∈ g1.dly, x ∈ g.dly ∨ x = (cur, n)) ∧ s1.OSTickCnt = s.OSTickCnt := by
  obtain ⟨ho, he⟩ := h.coh.loc_of_running h.picked.live h.picked.running
  have hp := h.enter
  unfold pendWait
  rw [h.running]
  dsimp only
  by_cases h0 : n = 0
  · rw [if_pos h0]
    obtain ⟨L, e1, e2⟩ := hp.join h.picked.live (Or.inl ho) he hc hid hsort
    have ha := setEvtLinks_aside { osSchedLock s with eventID := update s.eventID cur id } L id
    refine ⟨_, _, ?_, ⟨e2, rfl, calm_of_tcb rfl, ha, rfl, waits_block, fun u => ?_⟩,
      fun x hx => Or.inl hx, rfl⟩
    · unfold eventTaskToWait
      change (linkWaiting cfg { osSchedLock s with
        eventID := update (osSchedLock s).eventID cur id } id cur).bind _ = _
      rw [e1]
      rfl
    · exact ⟨Or.inr, fun e => e.resolve_left fun e => e.2 h0⟩
  · rw [if_neg h0]
    obtain ⟨s1, e1, e2, e3, e4, e5, e6⟩ := hp.wait h.picked.live (Or.inl ho) he hc hid hsort
    obtain ⟨D, f1, f2⟩ := e2.delay h.picked.live ho hc h0 hn
    have ha := (setDly_aside s1 D).trans e3
    rw [e1, Option.bind_eq_bind, Option.bind_some, f1]
    have hcalm : Calm g ((g.wait (osSchedLock s) id cur).delay cur n) :=
      (@calm_of_tcb g (g.wait (osSchedLock s) id cur) rfl).trans
        (@calm_delay (g.wait (osSchedLock s) id cur) cur n ho)
    refine ⟨_, _, rfl, ⟨f2, e4, hcalm, ha, rfl, fun t => ?_, fun t => ?_⟩,
      fun x hx => (mem_insertKey.mp hx).symm, e6⟩
    · change update s1.state cur .WAITING t = .WAITING ↔ t = cur ∨ s.state t = .WAITING
      rw [e5, Function.update_idem]
      exact waits_block t
    · rw [@timed_delay (g.wait (osSchedLock s) id cur) cur n t]
      exact ⟨fun e => e.imp (fun e => ⟨e, h0⟩) (fun e => e), fun e => e.imp And.left (fun e => e)⟩

/-! ## The tick -/

theorem due_loc (h : Coh cfg s g) : ∀ t ∈ due g.dly, g.tcb.loc t = some .dly := by
  intro t ht
  obtain ⟨x, hx, rfl⟩ := List.mem_map.mp ht
  exact h.rep.mem_dly.mp (List.mem_map_of_mem (List.mem_of_mem_filter hx))

/-- The delay part of **SysTick_Handler**, inside its section. -/
theorem sysTickDelay_pending (h : Stable cfg s g cur) :
    ∃ s1 g1, sysTickDelay cfg { osSchedLock s with OSTickCnt := s.OSTickCnt + 1 } = some s1 ∧
      Pending cfg { s1 with TaskSchedReq := true } g1 cur ∧ s1.OSSchedLock = s.OSSchedLock + 1 ∧
      g1.dly = later g.dly ∧
      Woken (due g.dly) { osSchedLock s with OSTickCnt := s.OSTickCnt + 1 } g s1 g1 := by
  have hp := h.enter
  have h0 : Coh cfg { osSchedLock s with OSTickCnt := s.OSTickCnt + 1 } g := hp.coh.congr rfl
  have hl1 : s.OSSchedLock + 1 ≤ 1 := by
    rw [h.lock]
  obtain ⟨s1, g1, e1, e2, e3, e4⟩ := sysTickDelay_spec h0 hl1 h.ticks
  have hcpu : s1.cpu = (osSchedLock s).cpu := e4.cpu
  have hidle : IdleOk s1 g1 := by
    have hne : (0 : Nat) ∉ due g.dly := by
      intro hm
      have hloc := due_loc h.coh 0 hm
      rcases h.idle with e | e
      · rw [hloc] at e
        exact nomatch e
      · rw [hloc] at e
        exact nomatch e.1
    refine h.idle.keep ?_ ?_
    · rw [e4.loc 0, if_neg hne]
    · rw [e4.state 0, if_neg hne]
      rfl
  have hlock : s1.OSSchedLock = s.OSSchedLock + 1 := congrArg Cpu.OSSchedLock hcpu
  have hpend : Pending cfg { s1 with TaskSchedReq := true } g1 cur := by
    refine ⟨e2.congr rfl, hp.lt, (congrArg Cpu.TCBRunning hcpu).trans hp.running,
      (congrArg Cpu.TCBNext hcpu).trans hp.next, ?_, Or.inl rfl, ?_, hidle⟩
    · change 0 < s1.OSSchedLock
      omega
    · rw [e3]
      exact fun _ => later_pos
  exact ⟨s1, g1, e1, hpend, hlock, e3, e4⟩

theorem sysTickDelay_clock (s : Kernel) :
    Ensures (sysTickDelay cfg s) fun s' => s'.OSTickCnt = s.OSTickCnt := by
  unfold sysTickDelay isr_TimeDispose
  split
  · exact .some rfl
  · refine .ite (fun _ => .some rfl) fun _ => .ite (fun _ => .some rfl) fun _ => ?_
    exact (timeDispose_frame cfg cfg.tasks rfl).imp fun _ e => congrArg Frame.OSTickCnt e

/-- **SysTick_Handler** releases the tasks whose time is up. -/
theorem sysTick_section (h : Stable cfg s g cur) :
    ∃ s1 g1, sysTick_Handler cfg s = osSchedUnlock cfg s1 ∧
      Body cfg s g cur ((s.data g).expire (due g.dly)) s1 g1 ∧ g1.dly = later g.dly ∧
      s1.OSTickCnt = s.OSTickCnt + 1 := by
  obtain ⟨s1, g1, e1, hpend, hlock, hdly, e4⟩ := sysTickDelay_pending h
  have hplain := due_loc h.coh
  have hcalm : Calm g g1 := e4.calm fun t ht => by
    rw [hplain t ht]
    exact plain_dly
  have htl : s1.tmr.TmrList = none := hpend.coh.tmr
  have htmr : sysTickTmr cfg s1 = some s1 := by
    unfold sysTickTmr
    rw [htl]
  refine ⟨{ s1 with TaskSchedReq := true }, g1, ?_,
    ⟨hpend, hlock, hcalm, e4.aside, ?_, ?_, ?_⟩, hdly, sysTickDelay_clock _ s1 e1⟩
  · unfold sysTick_Handler
    change (sysTickDelay cfg { osSchedLock s with OSTickCnt := s.OSTickCnt + 1 }).bind _ = _
    rw [e1, Option.bind_some, htmr]
    rfl
  · unfold Data.expire
    rw [show g1.evt = ⟨g1.evt.lst, g1.evt.loc⟩ from rfl, funext e4.evl, funext e4.evt]
    rfl
  · intro t
    change s1.state t = .WAITING ↔ t ∉ due g.dly ∧ s.state t = .WAITING
    rw [e4.state t]
    split
    · next ht => exact ⟨(fun e => nomatch e), fun e => absurd ht e.1⟩
    · next ht => exact ⟨fun e => ⟨ht, e⟩, fun e => e.2⟩
  · intro t
    change g1.tcb.loc t = some .dly ↔ t ∉ due g.dly ∧ g.tcb.loc t = some .dly
    rw [e4.loc t]
    split
    · next ht => exact ⟨(fun e => nomatch e), fun e => absurd ht e.1⟩
    · next ht => exact ⟨fun e => ⟨ht, e⟩, fun e => e.2⟩

end Release

end CoOS
