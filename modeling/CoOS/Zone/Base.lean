/-
  Zones: sets of tasks that no pointer of the kernel leads out of.

  `Sealed` says that the lists of the ready tasks, of the delayed tasks and of the free TCBs, the
  table of the binary build and the CPU name tasks of the zone only, that the links of these tasks
  lead to tasks of the zone, and that the links of the tasks outside are the given ones. It does not
  say that the links form lists. The waiting lists of the mutexes are not part of it: they are in
  `MtxPart`, which the functions outside of `mutex.c` keep.

  Two zones matter: all tasks of `TCBTbl`, and the tasks that do not wait for a mutex.
-/
import CoOS.Lib.Ensures
import CoOS.Lib.Within
import CoOS.Kernel.Frame
import CoOS.Ready.Table

namespace CoOS

open Function (update)
open DList

/-! ## Definitions -/

/-- Tasks that the lists in `TCBnext` and `TCBprev`, the event lists and the flag list may hold,
    tasks that may be dormant, whether timers may run, and the links of the tasks outside. -/
structure Zone where
  tcb : Nat → Prop
  evt : Nat → Prop
  flag : Nat → Prop
  dormant : Nat → Prop
  timers : Prop
  next : Nat → Option Nat
  prev : Nat → Option Nat
  evt_tcb : ∀ t, evt t → tcb t
  flag_tcb : ∀ t, flag t → tcb t

/-- The priorities and the mutexes. -/
structure MtxPart where
  prio : Nat → Nat
  mutexID : Nat → Nat
  originalPrio : Nat → Nat
  mutexOccupied : Nat → Bool
  mutexTaskID : Nat → Nat
  hipriTaskID : Nat → Nat
  waittingList : Nat → Option Nat
  MutexFreeID : Nat

def Kernel.mtxPart (s : Kernel) : MtxPart where
  prio := s.prio
  mutexID := s.mutexID
  originalPrio := s.originalPrio
  mutexOccupied := s.mutexOccupied
  mutexTaskID := s.mutexTaskID
  hipriTaskID := s.hipriTaskID
  waittingList := s.waittingList
  MutexFreeID := s.MutexFreeID

/-- The flag nodes. The loops read `nextNode` of the last one, so the links are not all there is. -/
def Kernel.nodeLinks (s : Kernel) : Links Nat := ⟨s.headNode, s.nextNode, s.prevNode⟩

structure Sealed (cfg : Config) (Z : Zone) (d : MtxPart) (s : Kernel) : Prop where
  tcb : s.rdyLinks.Within Z.tcb
  dly : ∀ t, s.DlyList = some t → Z.tcb t
  free : ∀ t, s.FreeTCB = some t → Z.tcb t
  cur : ∀ t, s.TCBRunning = some t → Z.tcb t
  nxt : ∀ t, s.TCBNext = some t → Z.tcb t
  off : ∀ a, ¬ Z.tcb a → s.TCBnext a = Z.next a ∧ s.TCBprev a = Z.prev a
  evt : ∀ e, (s.evtLinks e).Within Z.evt
  node : s.nodeLinks.Within Z.flag
  tail : ∀ t, s.tailNode = some t → Z.flag t
  ready : ∀ t, t < cfg.tasks → s.state t = .READY → Z.tcb t
  eventID : ∀ t, Z.tcb t ∨ t < cfg.tasks → s.eventID t ≠ INVALID_ID → Z.evt t
  pnode : ∀ t n, s.pnode t = .node n → Z.flag n
  dormant : ∀ t, s.state t = .DORMANT → Z.dormant t
  ptr : ∀ i, s.RdyTaskPri i ≠ INVALID_ID → Z.tcb (s.RdyTaskPri i)
  bit : ∀ i, infoBit s.RdyTaskPriInfo i = true → Z.tcb (s.RdyTaskPri i)
  tmr : s.tmr.TmrList = none ∨ Z.timers
  part : s.mtxPart = d

/-- The columns that `Sealed` reads. -/
structure ZoneView where
  tcb : Links Nat
  dly : Option Nat
  free : Option Nat
  cur : Option Nat
  nxt : Option Nat
  eventTCBList : Nat → Option Nat
  waitNext : Nat → Option Nat
  waitPrev : Nat → Option Nat
  node : Links Nat
  tail : Option Nat
  state : Nat → TaskState
  eventID : Nat → Nat
  pnode : Nat → PNode
  ptr : Nat → Nat
  info : Nat → Nat
  tmr : Option Nat
  part : MtxPart

def Kernel.zoneView (s : Kernel) : ZoneView where
  tcb := s.rdyLinks
  dly := s.DlyList
  free := s.FreeTCB
  cur := s.TCBRunning
  nxt := s.TCBNext
  eventTCBList := s.eventTCBList
  waitNext := s.waitNext
  waitPrev := s.waitPrev
  node := s.nodeLinks
  tail := s.tailNode
  state := s.state
  eventID := s.eventID
  pnode := s.pnode
  ptr := s.RdyTaskPri
  info := s.RdyTaskPriInfo
  tmr := s.tmr.TmrList
  part := s.mtxPart

section Writes

variable {cfg : Config} {Z : Zone} {d : MtxPart} {s s' : Kernel}

theorem Sealed.congr (h : Sealed cfg Z d s) (e : s'.zoneView = s.zoneView) : Sealed cfg Z d s' := by
  unfold Kernel.zoneView Kernel.rdyLinks Kernel.nodeLinks at e
  injection e with e1 e2 e3 e4 e5 e6 e7 e8 e9 e10 e11 e12 e13 e14 e15 e16 e17
  injection e1 with e18 e19 e20
  injection e9 with e21 e22 e23
  obtain ⟨h1, h2, h3, h4, h5, h6, h7, h8, h9, h10, h11, h12, h13, h14, h15, h16, h17⟩ := h
  unfold Kernel.rdyLinks at h1
  unfold Kernel.evtLinks at h7
  unfold Kernel.nodeLinks at h8
  rw [← e18, ← e19, ← e20] at h1
  rw [← e2] at h2
  rw [← e3] at h3
  rw [← e4] at h4
  rw [← e5] at h5
  rw [← e19, ← e20] at h6
  rw [← e6, ← e7, ← e8] at h7
  rw [← e21, ← e22, ← e23] at h8
  rw [← e10] at h9
  rw [← e11] at h10 h13
  rw [← e12] at h11
  rw [← e13] at h12
  rw [← e14] at h14 h15
  rw [← e15] at h15
  rw [← e16] at h16
  rw [← e17] at h17
  exact ⟨h1, h2, h3, h4, h5, h6, h7, h8, h9, h10, h11, h12, h13, h14, h15, h16, h17⟩

theorem Sealed.setRdyLinks (h : Sealed cfg Z d s) {L : Links Nat}
    (hL : L.Within Z.tcb ∧ s.rdyLinks.SameOff Z.tcb L) : Sealed cfg Z d (s.setRdyLinks L) :=
  { h with
    tcb := hL.1
    off := fun a ha => ⟨(hL.2 a ha).1.trans (h.off a ha).1, (hL.2 a ha).2.trans (h.off a ha).2⟩ }

theorem Sealed.dlyLinks (h : Sealed cfg Z d s) : s.dlyLinks.Within Z.tcb :=
  ⟨h.dly, h.tcb.next, h.tcb.prev⟩

theorem Sealed.setDlyLinks (h : Sealed cfg Z d s) {L : Links Nat}
    (hL : L.Within Z.tcb ∧ s.dlyLinks.SameOff Z.tcb L) : Sealed cfg Z d (s.setDlyLinks L) :=
  { h with
    tcb := ⟨h.tcb.head, hL.1.next, hL.1.prev⟩
    dly := hL.1.head
    off := fun a ha => ⟨(hL.2 a ha).1.trans (h.off a ha).1, (hL.2 a ha).2.trans (h.off a ha).2⟩ }

theorem Sealed.setEvtLinks (h : Sealed cfg Z d s) (e : Nat) {L : Links Nat} (hL : L.Within Z.evt) :
    Sealed cfg Z d (s.setEvtLinks e L) :=
  { h with
    evt := fun e' => by
      refine ⟨fun a ha => ?_, hL.next, hL.prev⟩
      change update s.eventTCBList e L.head e' = some a at ha
      by_cases he : e' = e
      · rw [he, Function.update_self] at ha
        exact hL.head a ha
      · rw [Function.update_of_ne he] at ha
        exact (h.evt e').head a ha }

theorem Sealed.setState (h : Sealed cfg Z d s) (t : Nat) (st : TaskState)
    (hr : st = .READY → t < cfg.tasks → Z.tcb t) (hd : st ≠ .DORMANT ∨ Z.dormant t) :
    Sealed cfg Z d { s with state := update s.state t st } :=
  { h with
    ready := fun a ha e => by
      by_cases hat : a = t
      · rw [hat] at e ha ⊢
        exact hr ((Function.update_self t st s.state).symm.trans e) ha
      · exact h.ready a ha ((Function.update_of_ne hat st s.state).symm.trans e)
    dormant := fun a e => by
      by_cases hat : a = t
      · rw [hat] at e ⊢
        exact hd.resolve_left fun hn => hn ((Function.update_self t st s.state).symm.trans e)
      · exact h.dormant a ((Function.update_of_ne hat st s.state).symm.trans e) }

theorem Sealed.setEventID (h : Sealed cfg Z d s) {t e : Nat} (he : e = INVALID_ID ∨ Z.evt t) :
    Sealed cfg Z d { s with eventID := update s.eventID t e } :=
  { h with
    eventID := fun a ha hne => by
      by_cases hat : a = t
      · rw [hat] at hne ⊢
        exact he.resolve_left fun hi => hne ((Function.update_self t e s.eventID).trans hi)
      · exact h.eventID a ha fun hi => hne ((Function.update_of_ne hat e s.eventID).trans hi) }

theorem Sealed.setPnode (h : Sealed cfg Z d s) {t : Nat} {p : PNode}
    (hp : ∀ n, p = .node n → Z.flag n) :
    Sealed cfg Z d { s with pnode := update s.pnode t p } :=
  { h with
    pnode := fun a n e => by
      by_cases hat : a = t
      · rw [hat] at e
        exact hp n ((Function.update_self t p s.pnode).symm.trans e)
      · exact h.pnode a n ((Function.update_of_ne hat p s.pnode).symm.trans e) }

theorem Sealed.setNodes (h : Sealed cfg Z d s) {L : Links Nat} {o : Option Nat}
    (hL : L.Within Z.flag)
    (ho : ∀ t, o = some t → Z.flag t) :
    Sealed cfg Z d
    { s with headNode := L.head, nextNode := L.next, prevNode := L.prev, tailNode := o } :=
  { h with node := hL, tail := ho }

theorem Sealed.setNext (h : Sealed cfg Z d s) {t : Nat} (ht : Z.tcb t) :
    Sealed cfg Z d { s with TCBNext := some t } := { h with nxt := within_some ht }

/-- An entry of the table and its bit are written. -/
theorem Sealed.setEntry (h : Sealed cfg Z d s) {k t : Nat} {info : Nat → Nat}
    (hp : t ≠ INVALID_ID → Z.tcb t) (hk : infoBit info k = true → Z.tcb t)
    (hi : ∀ i, i ≠ k → infoBit info i = true → infoBit s.RdyTaskPriInfo i = true) :
    Sealed cfg Z d { s with RdyTaskPri := update s.RdyTaskPri k t, RdyTaskPriInfo := info } :=
  { h with
    ptr := fun i hne => by
      change update s.RdyTaskPri k t i ≠ INVALID_ID at hne
      change Z.tcb (update s.RdyTaskPri k t i)
      by_cases hik : i = k
      · rw [hik, Function.update_self] at hne ⊢
        exact hp hne
      · rw [Function.update_of_ne hik] at hne ⊢
        exact h.ptr i hne
    bit := fun i hb => by
      change infoBit info i = true at hb
      change Z.tcb (update s.RdyTaskPri k t i)
      by_cases hik : i = k
      · rw [hik] at hb
        rw [hik, Function.update_self]
        exact hk hb
      · rw [Function.update_of_ne hik]
        exact h.bit i (hi i hik hb) }

/-- What belongs to the mutexes is written. -/
theorem Sealed.setPart (h : Sealed cfg Z d s)
    (hv : s'.zoneView = { s.zoneView with part := s'.mtxPart }) :
    Sealed cfg Z s'.mtxPart s' := by
  have hs : Sealed cfg Z s'.mtxPart { s with
      prio := s'.prio, mutexID := s'.mutexID, originalPrio := s'.originalPrio
      mutexOccupied := s'.mutexOccupied, mutexTaskID := s'.mutexTaskID
      hipriTaskID := s'.hipriTaskID, waittingList := s'.waittingList
      MutexFreeID := s'.MutexFreeID } := { h with part := rfl }
  exact hs.congr hv

end Writes

/-! ## The ready list and the scheduler -/

section Sched

variable {cfg : Env} {Z : Zone} {d : MtxPart} {s : Kernel} {t : Nat}

theorem setPrioSeqNumStatus_off {k : Nat} {b : Bool} {i : Nat} (hi : i ≠ k)
    (h : infoBit (setPrioSeqNumStatus s k b).RdyTaskPriInfo i = true) :
    infoBit s.RdyTaskPriInfo i = true := by
  rw [setPrioSeqNumStatus_bit, if_neg hi] at h
  exact h

theorem removeIndex_sealed (h : Sealed cfg.toConfig Z d s) (seqNum : Nat) (ht : Z.tcb t) :
    Sealed cfg.toConfig Z d (removeIndex cfg s seqNum t) := by
  have hclear : Sealed cfg.toConfig Z d (setPrioSeqNumStatus
      { s with RdyTaskPri := update s.RdyTaskPri seqNum INVALID_ID } seqNum false) := by
    have hz :=
      setPrioSeqNumStatus_bit { s with RdyTaskPri := update s.RdyTaskPri seqNum INVALID_ID }
      seqNum false seqNum
    rw [if_pos rfl] at hz
    exact h.setEntry (fun hne => absurd rfl hne) (fun hb => nomatch hz.symm.trans hb)
      fun i hi hb => setPrioSeqNumStatus_off hi hb
  have hback : ∀ p, s.TCBprev t = some p →
      Sealed cfg.toConfig Z d { s with RdyTaskPri := update s.RdyTaskPri seqNum p } := fun p hp =>
    have hpz : Z.tcb p := h.tcb.prev t p ht hp
    h.setEntry (fun _ => hpz) (fun _ => hpz) fun _ _ hb => hb
  unfold removeIndex
  dsimp only
  split
  · exact hclear
  · split
    · exact hclear
    · exact h
  · next p _ hp =>
    split
    · exact hclear
    · exact hback p hp
  · next n p _ hp =>
    split
    · exact hclear
    · split
      · exact hback p hp
      · exact h

theorem removeFromTCBRdyList_sealed (h : Sealed cfg.toConfig Z d s) (ht : Z.tcb t) :
    Ensures (removeFromTCBRdyList cfg s t) (Sealed cfg.toConfig Z d) := by
  unfold removeFromTCBRdyList
  refine .ite (fun _ => .some (h.setRdyLinks (h.tcb.unlink ht))) fun _ => ?_
  refine Ensures.skip fun x => ?_
  have h1 := removeIndex_sealed h x.2 ht
  exact .some (h1.setRdyLinks (h1.tcb.unlink ht))

theorem findRdyPlace_within {S : Nat → Prop} (hn : ∀ a b, S a → s.TCBnext a = some b → S b)
    (prio fuel : Nat) :
    ∀ {p : Nat} {o : Option Nat} {x : Nat × Option Nat}, S p → (∀ a, o = some a → S a) →
      findRdyPlace s prio fuel p o = some x → S x.1 := by
  induction fuel with
  | zero =>
    intro p o x hp _ e
    cases o with
    | none =>
      rw [← Option.some.inj e]
      exact hp
    | some a => exact nomatch e
  | succ fuel ih =>
    intro p o x hp ho e
    cases o with
    | none =>
      rw [← Option.some.inj e]
      exact hp
    | some a =>
      unfold findRdyPlace at e
      split at e
      · rw [← Option.some.inj e]
        exact hp
      · exact ih (ho a rfl) (fun b hb => hn a b (ho a rfl) hb) e

theorem robinCheck_sealed (h : Sealed cfg.toConfig Z d s) (t : Nat) :
    Sealed cfg.toConfig Z d (robinCheck cfg s t) := by
  unfold robinCheck
  split
  · exact h
  · split
    · exact h.congr rfl
    · exact h

theorem insertOrdered_sealed (h : Sealed cfg.toConfig Z d s) (ht : Z.tcb t) :
    Ensures (insertOrdered cfg s t) (Sealed cfg.toConfig Z d) := by
  have hfront : Sealed cfg.toConfig Z d
    { s.setRdyLinks (s.rdyLinks.pushFront t) with TaskSchedReq := true } :=
    (h.setRdyLinks (h.tcb.pushFront ht)).congr rfl
  unfold insertOrdered
  split
  · exact .some hfront
  · next x hx =>
    refine .ite (fun _ => .some hfront) fun _ => ?_
    have hxz : Z.tcb x := h.tcb.head x hx
    have hp : Ensures (findRdyPlace s (s.prio t) cfg.tasks x (s.TCBnext x)) fun y => Z.tcb y.1 :=
      fun y e => findRdyPlace_within h.tcb.next _ _ hxz (fun b hb => h.tcb.next x b hxz hb) e
    exact Ensures.bind hp fun y hy => .some (h.setRdyLinks (h.tcb.insertAfter hy ht))

theorem insertBinary_sealed (h : Sealed cfg.toConfig Z d s) (ht : Z.tcb t) :
    Ensures (insertBinary s t) (Sealed cfg.toConfig Z d) := by
  unfold insertBinary
  refine Ensures.skip fun x => ?_
  have h1 : Sealed cfg.toConfig Z d { s with RdyTaskPri := update s.RdyTaskPri x.2 t } :=
    h.setEntry (fun _ => ht) (fun _ => ht) fun _ _ hb => hb
  refine .ite (fun hb => ?_) fun _ => ?_
  · have hp : Z.tcb (s.RdyTaskPri x.2) := h.bit x.2 hb
    exact .some (h1.setRdyLinks (h1.tcb.insertAfter hp ht))
  · have h2 : Sealed cfg.toConfig Z d (setPrioSeqNumStatus
        { s with RdyTaskPri := update s.RdyTaskPri x.2 t } x.2 true) :=
      h.setEntry (fun _ => ht) (fun _ => ht) fun i hi hb => setPrioSeqNumStatus_off hi hb
    refine .ite (fun _ => .some ((h2.setRdyLinks (h2.tcb.pushFront ht)).congr rfl)) fun hne => ?_
    -- the entry before is one whose bit is set
    obtain ⟨r, hr, er⟩ :=
      getRdyPriSeqNum_spec { s with RdyTaskPri := update s.RdyTaskPri x.2 t } x.2
    rw [er] at hne ⊢
    cases r with
    | none => exact absurd rfl hne
    | some i =>
      have hp : Z.tcb (update s.RdyTaskPri x.2 t i) := h1.bit i hr.2.2.1
      exact .some (h2.setRdyLinks (h2.tcb.insertAfter hp ht))

theorem insertToTCBRdyList_sealed (h : Sealed cfg.toConfig Z d s) (ht : Z.tcb t) :
    Ensures (insertToTCBRdyList cfg s t) (Sealed cfg.toConfig Z d) := by
  have h1 := robinCheck_sealed (h.setState t .READY (fun _ _ => ht) (Or.inl (nomatch ·))) t
  unfold insertToTCBRdyList
  exact .ite (fun _ => insertOrdered_sealed h1 ht) fun _ => insertBinary_sealed h1 ht

theorem resetCheckTime_sealed (h : Sealed cfg.toConfig Z d s) (t : Nat) :
    Sealed cfg.toConfig Z d (resetCheckTime cfg s t) := by
  unfold resetCheckTime
  split
  · exact h.congr rfl
  · exact h

theorem setRunning_sealed (h : Sealed cfg.toConfig Z d s) (t : Nat) :
    Sealed cfg.toConfig Z d { s with state := update s.state t .RUNNING } :=
  h.setState t .RUNNING (fun e => nomatch e) (Or.inl (nomatch ·))

theorem preempt_sealed (h : Sealed cfg.toConfig Z d s) {cur rdy : Nat} (hc : Z.tcb cur)
    (hr : Z.tcb rdy) :
    Ensures (preempt cfg s cur rdy) (Sealed cfg.toConfig Z d) := by
  unfold preempt
  refine Ensures.bind (insertToTCBRdyList_sealed (h.setNext hr) hc) fun s1 h1 => ?_
  refine Ensures.bind (removeFromTCBRdyList_sealed h1 hr) fun s2 h2 => ?_
  exact .some (resetCheckTime_sealed (setRunning_sealed h2 rdy) rdy)

/-- **Schedule** -/
theorem schedule_sealed (h : Sealed cfg.toConfig Z d s) :
    Ensures (schedule cfg s) (Sealed cfg.toConfig Z d) := by
  unfold schedule
  split
  · next rdy cur e1 e2 =>
    have hr : Z.tcb rdy := h.tcb.head rdy e1
    have hc : Z.tcb cur := h.cur cur e2
    refine .ite (fun _ => .some h) fun _ => ?_
    have h1 : Sealed cfg.toConfig Z d { s with TaskSchedReq := false } := h.congr rfl
    refine .ite (fun _ => ?_) fun _ => ?_
    · refine Ensures.bind (removeFromTCBRdyList_sealed (setRunning_sealed (h1.setNext hr) rdy) hr)
        fun s1 h2 => ?_
      exact .some (resetCheckTime_sealed h2 rdy)
    · refine .ite (fun _ => preempt_sealed h1 hc hr) fun _ => ?_
      exact .ite (fun _ => preempt_sealed h1 hc hr) fun _ => .some h1
  · exact .some h

theorem osSchedLock_sealed (h : Sealed cfg.toConfig Z d s) :
    Sealed cfg.toConfig Z d (osSchedLock s) :=
  h.congr rfl

/-- What `OsSchedUnlock` calls for the deferred requests stays in the zone. -/
def Responds (cfg : Env) (Z : Zone) : Prop :=
  ∀ d s, Sealed cfg.toConfig Z d s → Ensures (cfg.respondSRQ s) (Sealed cfg.toConfig Z d)

/-- **OsSchedUnlock** -/
theorem osSchedUnlock_sealed (hr : Responds cfg Z) (h : Sealed cfg.toConfig Z d s) :
    Ensures (osSchedUnlock cfg s) (Sealed cfg.toConfig Z d) := by
  rw [osSchedUnlock_parts]
  refine .ite (fun _ => ?_) fun _ => .some (h.congr rfl)
  have hresp : Ensures (if s.IsrReq then cfg.respondSRQ s else some s) (Sealed cfg.toConfig Z d) :=
    .ite (fun _ => hr d s h) fun _ => .some h
  refine Ensures.bind hresp fun s1 h1 => Ensures.map ?_
  have hsched : Ensures (if s1.TaskSchedReq then schedule cfg s1 else some s1)
    (Sealed cfg.toConfig Z d) :=
    .ite (fun _ => schedule_sealed h1) fun _ => .some h1
  exact hsched.imp fun s2 h2 => h2.congr rfl

theorem takeSwitch_sealed (h : Sealed cfg.toConfig Z d s) :
    Sealed cfg.toConfig Z d (takeSwitch s) := by
  unfold takeSwitch
  split
  · exact h
  · have h1 : Sealed cfg.toConfig Z d { s with TCBRunning := s.TCBNext } := { h with cur := h.nxt }
    exact h1.congr rfl

end Sched

end CoOS
