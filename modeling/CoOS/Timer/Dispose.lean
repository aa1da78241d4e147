/-
  One tick of the software timers.

  `tmrView` is what the timers depend on: the scheduler and the delay list leave it alone,
  whatever state they run in. `TmrOk s l` says that the running timers are those of the
  delta list `l`, with their remaining ticks.

  Proved: `TmrDispose` ends, calls exactly the callbacks of the timers whose time is up, and
  leaves the other timers as they are (`tmrDispose_spec`); hence the timer part of a tick
  lowers every remaining count by one and fires those that reach 0 (`sysTickTmr_spec`).
-/
import CoOS.Kernel.Timer

namespace CoOS

open Function (update)
open DList KeyOrder

/-! ## What does not touch the timers -/

/-- The timers, the log of callbacks, the clock, the deferred requests and the lock. -/
structure TmrView where
  tmr : Tmr
  log : List (Nat × Nat)
  tick : Nat
  isr : Bool
  lock : Nat

def Kernel.tmrView (s : Kernel) : TmrView :=
  ⟨s.tmr, s.callBacks, s.OSTickCnt, s.IsrReq, s.OSSchedLock⟩

section Frame

variable {cfg : Env} {s s' : Kernel} {t : Nat}

theorem insertOrdered_tmrView (h : insertOrdered cfg s t = some s') : s'.tmrView = s.tmrView := by
  unfold insertOrdered at h
  split at h
  · cases h
    rfl
  · split at h
    · cases h
      rfl
    · obtain ⟨⟨p, q⟩, -, h⟩ := Option.bind_eq_some_iff.mp h
      cases h
      rfl

theorem insertBinary_tmrView (h : insertBinary s t = some s') : s'.tmrView = s.tmrView := by
  obtain ⟨⟨b, i⟩, -, h⟩ := Option.bind_eq_some_iff.mp h
  simp only at h
  split at h
  · cases h
    rfl
  · split at h
    · cases h
      rfl
    · cases h
      rfl

theorem robinCheck_tmrView (cfg : Env) (s : Kernel) (t : Nat) :
    (robinCheck cfg s t).tmrView = s.tmrView := by
  unfold robinCheck
  split
  · rfl
  · split
    · rfl
    · rfl

theorem insertToTCBRdyList_tmrView (h : insertToTCBRdyList cfg s t = some s') :
    s'.tmrView = s.tmrView := by
  have hr := robinCheck_tmrView cfg { s with state := update s.state t .READY } t
  unfold insertToTCBRdyList at h
  simp only at h
  split at h
  · exact (insertOrdered_tmrView h).trans hr
  · exact (insertBinary_tmrView h).trans hr

theorem removeIndex_tmrView (cfg : Env) (s : Kernel) (i t : Nat) :
    (removeIndex cfg s i t).tmrView = s.tmrView := by
  unfold removeIndex
  dsimp only
  split
  · rfl
  · split
    · rfl
    · rfl
  · split
    · rfl
    · rfl
  · split
    · rfl
    · split
      · rfl
      · rfl

theorem removeFromTCBRdyList_tmrView (h : removeFromTCBRdyList cfg s t = some s') :
    s'.tmrView = s.tmrView := by
  unfold removeFromTCBRdyList at h
  split at h
  · cases h
    rfl
  · obtain ⟨⟨b, i⟩, -, h⟩ := Option.bind_eq_some_iff.mp h
    cases h
    exact removeIndex_tmrView cfg s i t

theorem resetCheckTime_tmrView (cfg : Env) (s : Kernel) (t : Nat) :
    (resetCheckTime cfg s t).tmrView = s.tmrView := by
  unfold resetCheckTime
  split
  · rfl
  · rfl

theorem preempt_tmrView {cur rdy : Nat} (h : preempt cfg s cur rdy = some s') :
    s'.tmrView = s.tmrView := by
  obtain ⟨s1, h1, h⟩ := Option.bind_eq_some_iff.mp h
  obtain ⟨s2, h2, h⟩ := Option.bind_eq_some_iff.mp h
  cases h
  have e1 := insertToTCBRdyList_tmrView h1
  have e2 := removeFromTCBRdyList_tmrView h2
  have e3 := resetCheckTime_tmrView cfg { s2 with state := update s2.state rdy .RUNNING } rdy
  exact (e3.trans e2).trans e1

theorem schedule_tmrView (h : schedule cfg s = some s') : s'.tmrView = s.tmrView := by
  unfold schedule at h
  split at h
  · next rdy cur _ _ =>
    split at h
    · cases h
      rfl
    · simp only at h
      split at h
      · obtain ⟨s1, h1, h⟩ := Option.bind_eq_some_iff.mp h
        cases h
        have e1 := removeFromTCBRdyList_tmrView h1
        exact (resetCheckTime_tmrView cfg s1 rdy).trans e1
      · split at h
        · exact (preempt_tmrView h).trans rfl
        · split at h
          · exact (preempt_tmrView h).trans rfl
          · cases h
            rfl
  · cases h
    rfl

theorem dropFlagNode_tmrView (s : Kernel) (t : Nat) : (dropFlagNode s t).tmrView = s.tmrView := by
  unfold dropFlagNode
  split
  · unfold removeLinkNode
    split
    all_goals rfl
  · rfl

theorem timeDispose_tmrView {fuel : Nat} (h : timeDispose cfg fuel s = some s') :
    s'.tmrView = s.tmrView := by
  induction fuel generalizing s with
  | zero =>
    unfold timeDispose at h
    split at h
    · cases h
      rfl
    · split at h
      · cases h
        rfl
      · exact nomatch h
  | succ fuel ih =>
    unfold timeDispose at h
    split at h
    · cases h
      rfl
    · next t _ =>
      split at h
      · cases h
        rfl
      · obtain ⟨s1, h1, h⟩ := Option.bind_eq_some_iff.mp h
        have e2 := ih h
        have e1 := insertToTCBRdyList_tmrView h1
        have e0 : (if s.eventID t ≠ INVALID_ID then removeEventWaittingList s t else s).tmrView =
            s.tmrView := by
          split
          · rfl
          · rfl
        rw [e2]
        refine Eq.trans ?_ ((e1.trans (dropFlagNode_tmrView _ t)).trans e0)
        split
        · rfl
        · rfl

theorem sysTickDelay_tmrView (hl : s.OSSchedLock = 1) (h : sysTickDelay cfg s = some s') :
    s'.tmrView = s.tmrView := by
  unfold sysTickDelay at h
  split at h
  · cases h
    rfl
  · split at h
    · cases h
      rfl
    · unfold isr_TimeDispose at h
      rw [if_neg (show ¬ 1 < s.OSSchedLock by omega)] at h
      exact (timeDispose_tmrView h).trans rfl

/-- `OsSchedUnlock` of a lock that was taken once, with no deferred request. -/
theorem osSchedUnlock_tmrView (hi : s.IsrReq = false) (h : osSchedUnlock cfg s = some s') :
    s'.tmrView = { s.tmrView with lock := s.OSSchedLock - 1 } := by
  rw [osSchedUnlock_eq cfg hi] at h
  split at h
  · next hl =>
    obtain ⟨s1, h1, rfl⟩ := Option.map_eq_some_iff.mp h
    have e : s1.tmrView = s.tmrView := by
      split at h1
      · exact schedule_tmrView h1
      · cases h1
        rfl
    have e' : { s1.tmrView with lock := 0 } = { s.tmrView with lock := 0 } := by rw [e]
    rw [hl]
    exact e'
  · cases h
    rfl

end Frame

/-! ## The timer list -/

/-- The callbacks call no timer function: they return and leave the timers, the clock, the
    deferred requests and the lock as they find them. -/
def CallBacksOk (cfg : Env) : Prop :=
  ∀ f s, ∃ s', cfg.runCallBack f s = some s' ∧ s'.tmrView = s.tmrView

/-- The running timers are those of `l`, with their remaining ticks. -/
structure TmrOk (cfg : Env) (m : Tmr) (l : List (Nat × Nat)) : Prop where
  delta : IsDelta m.delta l
  mem : ∀ t, t ∈ l.map Prod.fst ↔ m.tmrRunning t = true ∧ m.TmrIDVessel t = true
  lt : ∀ t ∈ l.map Prod.fst, t < cfg.maxTmr
  off : ∀ t, t ∉ l.map Prod.fst → m.tmrNext t = none ∧ m.tmrPrev t = none
  reload : ∀ t ∈ l.map Prod.fst, m.tmrPeriodic t = true → 1 ≤ m.tmrReload t ∧ m.tmrReload t < 2 ^ 31

/-- The data of a timer that running does not change. -/
structure SameKind (m m' : Tmr) : Prop where
  periodic : m'.tmrPeriodic = m.tmrPeriodic
  reload : m'.tmrReload = m.tmrReload
  vessel : m'.TmrIDVessel = m.TmrIDVessel

theorem SameKind.trans {m m' m'' : Tmr} (h : SameKind m m') (h' : SameKind m' m'') :
    SameKind m m'' :=
  ⟨h'.periodic.trans h.periodic, h'.reload.trans h.reload, h'.vessel.trans h.vessel⟩

section List

variable {cfg : Env} {m : Tmr} {l l1 l2 : List (Nat × Nat)} {t r : Nat}

theorem TmrOk.length_le (h : TmrOk cfg m l) : l.length ≤ cfg.maxTmr := by
  have := length_le_of_lt h.delta.links.nodup h.lt
  rwa [List.length_map] at this

/-- A timer leaves the list. -/
theorem TmrOk.remove (h : TmrOk cfg m (l1 ++ (t, r) :: l2)) :
    IsDelta (m.setDelta (m.delta.remove t)).delta (l1 ++ l2) ∧
      (∀ u, u ∉ (l1 ++ l2).map Prod.fst →
        (m.delta.remove t).next u = none ∧ (m.delta.remove t).prev u = none) ∧
      t ∉ (l1 ++ l2).map Prod.fst := by
  have hl : IsDList m.delta.toLinks (l1.map Prod.fst ++ t :: l2.map Prod.fst) := by
    simpa using h.delta.links
  have hfr := remove_frame h.delta.links
  refine ⟨remove_spec h.delta, ?_, ?_⟩
  · intro u hu
    by_cases hut : u = t
    · rw [hut]
      exact unlink_links hl
    · have hu' : u ∉ (l1 ++ (t, r) :: l2).map Prod.fst := by
        simp only [List.map_append, List.map_cons, List.mem_append, List.mem_cons] at hu ⊢
        tauto
      rw [hfr.next u hu' hut, hfr.prev u hu' hut]
      exact h.off u hu'
  · rw [List.map_append, List.mem_append, not_or]
    exact ⟨nodup_split_left hl.nodup, nodup_split_right hl.nodup⟩

/-- A timer enters the list. -/
theorem delta_insert (hd : IsDelta m.delta l) (hlt : ∀ u ∈ l.map Prod.fst, u < cfg.maxTmr)
    (hoff : ∀ u, u ∉ l.map Prod.fst → m.tmrNext u = none ∧ m.tmrPrev u = none)
    (ht : t ∉ l.map Prod.fst) (hn : r < 2 ^ 31) :
    ∃ D, m.delta.insert cfg.maxTmr t r = some D ∧ IsDelta D (insertKey Prod.snd (t, r) l) ∧
      ∀ u, u ∉ (insertKey Prod.snd (t, r) l).map Prod.fst → D.next u = none ∧ D.prev u = none := by
  have hlen : l.length ≤ cfg.maxTmr := by
    have := length_le_of_lt hd.links.nodup hlt
    rwa [List.length_map] at this
  obtain ⟨hnx, hpv⟩ := hoff t ht
  obtain ⟨D, h1, h2, h3⟩ := insert_spec hd ht hnx hpv hn hlen
  refine ⟨D, h1, h2, ?_⟩
  intro u hu
  simp only [List.mem_map, mem_insertKey, not_exists, not_and] at hu
  have hut : u ≠ t := fun e => hu (t, r) (Or.inl rfl) e.symm
  have hul : u ∉ l.map Prod.fst := by
    intro hm
    obtain ⟨x, hx, e⟩ := List.mem_map.mp hm
    exact hu x (Or.inr hx) e
  rw [h3.next u hul hut, h3.prev u hul hut]
  exact hoff u hul

end List

/-! ## Firing -/

section Fire

variable {cfg : Env} {s : Kernel} {l Z P : List (Nat × Nat)} {t : Nat}

/-- A lock taken inside another lock. -/
theorem removeTmrList_locked (h : s.OSSchedLock = 1) (t : Nat) :
    removeTmrList cfg s t = some { s with tmr := s.tmr.setDelta (s.tmr.delta.remove t) } := by
  unfold removeTmrList
  exact osSchedUnlock_nested cfg (show s.OSSchedLock + 1 ≠ 1 by omega)

theorem insertTmrList_locked {D : Delta Nat} (h : s.OSSchedLock = 1) (h0 : s.tmr.tmrCnt t ≠ 0)
    (hD : s.tmr.delta.insert cfg.maxTmr t (s.tmr.tmrCnt t) = some D) :
    insertTmrList cfg s t = some { s with tmr := s.tmr.setDelta D } := by
  unfold insertTmrList
  rw [if_neg h0]
  change (s.tmr.delta.insert cfg.maxTmr t (s.tmr.tmrCnt t)).bind _ = _
  rw [hD]
  exact osSchedUnlock_nested cfg (show s.OSSchedLock + 1 ≠ 1 by omega)

/-- What the firing of `t` leaves: the list, the log and the rest of the view. -/
structure Fired (cfg : Env) (s s' : Kernel) (l : List (Nat × Nat)) (z : List Nat) : Prop where
  ok : TmrOk cfg s'.tmr l
  kind : SameKind s.tmr s'.tmr
  log : s'.callBacks = s.callBacks ++ z.map fun t => (t, s.OSTickCnt)
  tick : s'.OSTickCnt = s.OSTickCnt
  isr : s'.IsrReq = s.IsrReq
  lock : s'.OSSchedLock = s.OSSchedLock

theorem callBack_spec (hcb : CallBacksOk cfg) (hok : TmrOk cfg s.tmr l) :
    ∃ s', callBack cfg s t = some s' ∧ Fired cfg s s' l [t] := by
  obtain ⟨s', h1, h2⟩ := hcb (s.tmr.tmrCallBack t)
    { s with callBacks := s.callBacks ++ [(t, s.OSTickCnt)] }
  simp only [Kernel.tmrView, TmrView.mk.injEq] at h2
  obtain ⟨e1, e2, e3, e4, e5⟩ := h2
  refine ⟨s', h1, ?_, ⟨?_, ?_, ?_⟩, e2, e3, e4, e5⟩
  · rw [e1]
    exact hok
  all_goals rw [e1]

/-- A one-shot timer is stopped before its callback. -/
theorem fireTmr_oneShot (hcb : CallBacksOk cfg) (hok : TmrOk cfg s.tmr ((t, 0) :: l))
    (hl : s.OSSchedLock = 1) (hp : s.tmr.tmrPeriodic t = false) :
    ∃ s', fireTmr cfg s t = some s' ∧ Fired cfg s s' l [t] := by
  obtain ⟨hd, hoff, ht⟩ := @TmrOk.remove cfg s.tmr [] l t 0 hok
  let s1 : Kernel := stopTmr { s with tmr := s.tmr.setDelta (s.tmr.delta.remove t) } t
  have hok1 : TmrOk cfg s1.tmr l := by
    refine ⟨hd, ?_, fun u hu => hok.lt u (List.mem_cons_of_mem _ hu), hoff,
      fun u hu => hok.reload u (List.mem_cons_of_mem _ hu)⟩
    intro u
    change u ∈ l.map Prod.fst ↔ update s.tmr.tmrRunning t false u = true ∧ _
    by_cases hut : u = t
    · rw [hut, Function.update_self]
      exact ⟨fun e => absurd e ht, fun e => nomatch e.1⟩
    · rw [Function.update_of_ne hut]
      have := hok.mem u
      rw [List.map_cons, List.mem_cons, or_iff_right hut] at this
      exact this
  obtain ⟨s', h1, h2⟩ := callBack_spec (t := t) hcb hok1
  refine ⟨s', ?_, ⟨h2.ok, ⟨h2.kind.periodic, h2.kind.reload, h2.kind.vessel⟩, h2.log, h2.tick,
    h2.isr, h2.lock⟩⟩
  unfold fireTmr
  rw [if_neg (by rw [hp]; decide), removeTmrList_locked hl]
  exact h1

/-- A periodic timer is put back with its reload value. -/
theorem fireTmr_periodic (hcb : CallBacksOk cfg) (hok : TmrOk cfg s.tmr ((t, 0) :: l))
    (hl : s.OSSchedLock = 1) (hp : s.tmr.tmrPeriodic t = true) :
    ∃ s', fireTmr cfg s t = some s' ∧
      Fired cfg s s' (insertKey Prod.snd (t, s.tmr.tmrReload t) l) [t] := by
  obtain ⟨hd, hoff, ht⟩ := @TmrOk.remove cfg s.tmr [] l t 0 hok
  obtain ⟨hr1, hr2⟩ := hok.reload t (by simp) hp
  let m1 : Tmr := s.tmr.setDelta (s.tmr.delta.remove t)
  let m2 : Tmr := { m1 with tmrCnt := update m1.tmrCnt t (s.tmr.tmrReload t) }
  -- the counter of `t` is not read by the list without `t`
  have hd2 : IsDelta m2.delta l := by
    refine ⟨hd.links, hd.cnts.congr ?_, hd.lt⟩
    intro x hx
    exact Function.update_of_ne (fun e => ht (by rw [← e]; exact List.mem_map_of_mem hx)) ..
  obtain ⟨D, hD, hDl, hDoff⟩ := @delta_insert cfg m2 l t _ hd2
    (fun u hu => hok.lt u (List.mem_cons_of_mem _ hu)) hoff ht hr2
  have hmem : ∀ u, u ∈ (insertKey Prod.snd (t, s.tmr.tmrReload t) l).map Prod.fst ↔
      u ∈ ((t, 0) :: l).map Prod.fst := by
    intro u
    simp only [List.mem_map, mem_insertKey, List.mem_cons]
    constructor
    · intro h
      obtain ⟨x, hx | hx, e⟩ := h
      · exact ⟨(t, 0), Or.inl rfl, by rw [← e, hx]⟩
      · exact ⟨x, Or.inr hx, e⟩
    · intro h
      obtain ⟨x, hx | hx, e⟩ := h
      · exact ⟨(t, s.tmr.tmrReload t), Or.inl rfl, by rw [← e, hx]⟩
      · exact ⟨x, Or.inr hx, e⟩
  have hok2 : TmrOk cfg (m2.setDelta D) (insertKey Prod.snd (t, s.tmr.tmrReload t) l) := by
    refine ⟨hDl, ?_, ?_, hDoff, ?_⟩
    · intro u
      rw [hmem u]
      exact hok.mem u
    · intro u hu
      exact hok.lt u ((hmem u).mp hu)
    · intro u hu
      exact hok.reload u ((hmem u).mp hu)
  obtain ⟨s', h1, h2⟩ := callBack_spec (s := { s with tmr := m2.setDelta D }) (t := t) hcb hok2
  refine ⟨s', ?_, ⟨h2.ok, ⟨h2.kind.periodic, h2.kind.reload, h2.kind.vessel⟩, h2.log, h2.tick,
    h2.isr, h2.lock⟩⟩
  have hcnt : m2.tmrCnt t = s.tmr.tmrReload t := Function.update_self ..
  unfold fireTmr
  rw [if_pos hp, removeTmrList_locked hl]
  change (insertTmrList cfg { s with tmr := m2 } t).bind _ = _
  rw [insertTmrList_locked (s := { s with tmr := m2 }) hl (by rw [hcnt]; omega)
    (by rw [hcnt]; exact hD)]
  exact h1

/-- The timers of the list after those of `Z` fired. -/
def afterFiring (m : Tmr) (Z P : List (Nat × Nat)) : List (Nat × Nat) :=
  (Z.filter fun z => m.tmrPeriodic z.1).foldl
    (fun l z => insertKey Prod.snd (z.1, m.tmrReload z.1) l) P

/-- **TmrDispose** ends, and fires exactly the timers whose time is up. -/
theorem tmrDispose_spec (hcb : CallBacksOk cfg) :
    ∀ (Z P : List (Nat × Nat)) (s : Kernel) (fuel : Nat), TmrOk cfg s.tmr (Z ++ P) →
      (∀ z ∈ Z, z.2 = 0) → (∀ p ∈ P, 1 ≤ p.2) → s.OSSchedLock = 1 → Z.length ≤ fuel →
      ∃ s', tmrDispose cfg fuel s = some s' ∧
        Fired cfg s s' (afterFiring s.tmr Z P) (Z.map Prod.fst) := by
  intro Z
  induction Z with
  | nil =>
    intro P s fuel hok _ hP _ _
    refine ⟨s, ?_, ⟨hok, ⟨rfl, rfl, rfl⟩, by simp, rfl, rfl, rfl⟩⟩
    have hh : s.tmr.TmrList = (P.map Prod.fst).head? := hok.delta.links.head
    unfold tmrDispose
    cases P with
    | nil => simp [hh]
    | cons p P =>
      have h1 := hP p (by simp)
      have h2 : s.tmr.tmrCnt p.1 = p.2 - 0 := hok.delta.cnts.2.1
      simp only [hh, List.map_cons, List.head?_cons]
      rw [if_pos (by omega)]
  | cons z Z ih =>
    intro P s fuel hok hZ hP hl hf
    obtain ⟨t, r⟩ := z
    obtain rfl : r = 0 := hZ (t, r) (by simp)
    have hh : s.tmr.TmrList = some t := hok.delta.links.head
    have hc : s.tmr.tmrCnt t = 0 - 0 := hok.delta.cnts.2.1
    rw [List.length_cons] at hf
    obtain ⟨n, rfl⟩ := Nat.exists_eq_succ_of_ne_zero (by omega : fuel ≠ 0)
    rw [List.cons_append] at hok
    have hle : ∀ x ∈ Z, x.2 ≤ (t, s.tmr.tmrReload t).2 := by
      intro x hx
      rw [hZ x (List.mem_cons_of_mem _ hx)]
      exact Nat.zero_le _
    -- one round, then the rest of the expired timers
    have hround : ∃ s1 P', fireTmr cfg s t = some s1 ∧ Fired cfg s s1 (Z ++ P') [t] ∧
        (∀ p ∈ P', 1 ≤ p.2) ∧ afterFiring s.tmr ((t, 0) :: Z) P = afterFiring s.tmr Z P' := by
      cases hp : s.tmr.tmrPeriodic t with
      | false =>
        obtain ⟨s1, h1, h2⟩ := fireTmr_oneShot hcb hok hl hp
        refine ⟨s1, P, h1, h2, hP, ?_⟩
        unfold afterFiring
        rw [List.filter_cons_of_neg (by simp [hp])]
      | true =>
        obtain ⟨s1, h1, h2⟩ := fireTmr_periodic hcb hok hl hp
        obtain ⟨hr1, hr2⟩ := hok.reload t (by simp) hp
        rw [insertKey_append hle] at h2
        refine ⟨s1, _, h1, h2, ?_, ?_⟩
        · intro p hmem
          rcases mem_insertKey.mp hmem with rfl | hmem
          · exact hr1
          · exact hP p hmem
        · unfold afterFiring
          rw [List.filter_cons_of_pos (by simp [hp]), List.foldl_cons]
    obtain ⟨s1, P', h1, h2, hP', he⟩ := hround
    obtain ⟨s', h3, h4⟩ := ih P' s1 n h2.ok (fun x hx => hZ x (by simp [hx])) hP'
      (h2.lock.trans hl) (by omega)
    refine ⟨s', ?_, ?_⟩
    · unfold tmrDispose
      simp only [hh]
      rw [if_neg (by omega), h1]
      exact h3
    · have hsame : afterFiring s1.tmr Z P' = afterFiring s.tmr Z P' := by
        unfold afterFiring
        rw [h2.kind.periodic, h2.kind.reload]
      refine ⟨?_, h2.kind.trans h4.kind, ?_, h4.tick.trans h2.tick, h4.isr.trans h2.isr,
        h4.lock.trans h2.lock⟩
      · rw [he, ← hsame]
        exact h4.ok
      · rw [h4.log, h2.log, h2.tick]
        simp

theorem mem_afterFiring {m : Tmr} {x : Nat × Nat} : x ∈ afterFiring m Z P ↔
    x ∈ P ∨ ∃ z ∈ Z, m.tmrPeriodic z.1 = true ∧ x = (z.1, m.tmrReload z.1) := by
  unfold afterFiring
  induction Z generalizing P with
  | nil => simp
  | cons z Z ih =>
    cases hp : m.tmrPeriodic z.1 with
    | false =>
      rw [List.filter_cons_of_neg (by simp [hp]), ih]
      simp [hp]
    | true =>
      rw [List.filter_cons_of_pos (by simp [hp]), List.foldl_cons, ih, mem_insertKey]
      simp only [List.mem_cons, exists_eq_or_imp, hp, true_and]
      tauto

/-! ## A tick -/

/-- The ticks at which `t` fired, oldest first. -/
def firedAt (t : Nat) (log : List (Nat × Nat)) : List Nat :=
  (log.filter fun x => x.1 == t).map Prod.snd

theorem firedAt_append (t : Nat) (log log' : List (Nat × Nat)) :
    firedAt t (log ++ log') = firedAt t log ++ firedAt t log' := by
  unfold firedAt
  rw [List.filter_append, List.map_append]

/-- Distinct timers fire once each. -/
theorem firedAt_map {z : List Nat} (h : z.Nodup) (t n : Nat) :
    firedAt t (z.map fun u => (u, n)) = if t ∈ z then [n] else [] := by
  induction z with
  | nil => rfl
  | cons a z ih =>
    obtain ⟨ha, hz⟩ := List.nodup_cons.mp h
    unfold firedAt at ih ⊢
    rw [List.map_cons]
    by_cases hat : a = t
    · have htz : t ∉ z := hat ▸ ha
      rw [List.filter_cons_of_pos (by simp [hat]), List.map_cons, ih hz, if_neg htz]
      simp [hat]
    · rw [List.filter_cons_of_neg (by simp [hat]), ih hz]
      simp [Ne.symm hat]

theorem mem_tick {l : List (Nat × Nat)} (hpos : ∀ x ∈ l, 1 ≤ x.2) {t r : Nat} :
    (t, r) ∈ l.map (fun y => (y.1, y.2 - 1)) ↔ (t, r + 1) ∈ l := by
  rw [List.mem_map]
  constructor
  · intro h
    obtain ⟨y, hy, e⟩ := h
    obtain ⟨rfl, rfl⟩ := Prod.mk.inj e
    rw [Nat.sub_add_cancel (hpos y hy)]
    exact hy
  · intro h
    exact ⟨_, h, rfl⟩

theorem split_zero {l : List (Nat × Nat)} (h : SortedKey Prod.snd l) :
    ∃ Z P, l = Z ++ P ∧ (∀ z ∈ Z, z.2 = 0) ∧ ∀ p ∈ P, 1 ≤ p.2 := by
  obtain ⟨Z, P, he, -, -, hZ, hP⟩ := insertKey_split Prod.snd ((0, 0) : Nat × Nat) l
  refine ⟨Z, P, he, fun z hz => Nat.le_zero.mp (hZ z hz), ?_⟩
  cases P with
  | nil => simp
  | cons p P =>
    have hp : 1 ≤ p.2 := hP p rfl
    rw [he] at h
    have hs := (List.pairwise_cons.mp (List.pairwise_append.mp h).2.1).1
    intro y hy
    rcases List.mem_cons.mp hy with rfl | hy
    · exact hp
    · exact Nat.le_trans hp (hs y hy)

theorem sysTickTmr_some {h : Nat} (hh : s.tmr.TmrList = some h) :
    sysTickTmr cfg s =
      if 1 < s.tmr.tmrCnt h then
        some { s with tmr := { s.tmr with tmrCnt := update s.tmr.tmrCnt h (s.tmr.tmrCnt h - 1) } }
      else isr_TmrDispose cfg
        { s with tmr := { s.tmr with tmrCnt := update s.tmr.tmrCnt h 0 } } := by
  unfold sysTickTmr
  split
  · next e =>
    rw [hh] at e
    exact nomatch e
  · next h' e =>
    rw [hh] at e
    cases e
    rfl

/-- The timer part of a tick: each remaining count is lowered by one, and the timers that
    reach 0 fire. -/
theorem sysTickTmr_spec (hcb : CallBacksOk cfg) (hok : TmrOk cfg s.tmr l)
    (hpos : ∀ x ∈ l, 1 ≤ x.2) (hl : s.OSSchedLock = 1) :
    ∃ s' l', sysTickTmr cfg s = some s' ∧ TmrOk cfg s'.tmr l' ∧ (∀ x ∈ l', 1 ≤ x.2) ∧
      SameKind s.tmr s'.tmr ∧
      (∀ t r, (t, r) ∈ l' ↔ 1 ≤ r ∧ (t, r + 1) ∈ l ∨
        (t, 1) ∈ l ∧ s.tmr.tmrPeriodic t = true ∧ r = s.tmr.tmrReload t) ∧
      (∀ t, firedAt t s'.callBacks =
        firedAt t s.callBacks ++ if (t, 1) ∈ l then [s.OSTickCnt] else []) ∧
      s'.OSTickCnt = s.OSTickCnt ∧ s'.IsrReq = s.IsrReq ∧ s'.OSSchedLock = s.OSSchedLock := by
  have hsorted : SortedKey Prod.snd l := hok.delta.cnts.sorted
  have hfst : ((l.map fun y => (y.1, y.2 - 1)).map Prod.fst) = l.map Prod.fst := by
    rw [List.map_map]
    rfl
  cases l with
  | nil =>
    have hh : s.tmr.TmrList = none := hok.delta.links.head
    refine ⟨s, [], ?_, hok, by simp, ⟨rfl, rfl, rfl⟩, by simp, by simp, rfl, rfl, rfl⟩
    unfold sysTickTmr
    rw [hh]
  | cons x l =>
    have hh : s.tmr.TmrList = some x.1 := hok.delta.links.head
    have hx : 1 ≤ x.2 := hpos x (by simp)
    have hcx : s.tmr.tmrCnt x.1 = x.2 - 0 := hok.delta.cnts.2.1
    have hge : ∀ y ∈ l, x.2 ≤ y.2 := (List.pairwise_cons.mp hsorted).1
    let m1 : Tmr := { s.tmr with tmrCnt := update s.tmr.tmrCnt x.1 (s.tmr.tmrCnt x.1 - 1) }
    have hok1 : TmrOk cfg m1 ((x :: l).map fun y => (y.1, y.2 - 1)) := by
      refine ⟨tick_spec hok.delta hx, ?_, ?_, ?_, ?_⟩
      all_goals rw [hfst]
      · exact hok.mem
      · exact hok.lt
      · exact hok.off
      · exact hok.reload
    by_cases hgt : 1 < x.2
    · -- nothing expires
      have hall : ∀ y ∈ x :: l, 1 < y.2 := by
        intro y hy
        rcases List.mem_cons.mp hy with rfl | hy
        · exact hgt
        · exact Nat.lt_of_lt_of_le hgt (hge y hy)
      refine ⟨{ s with tmr := m1 }, _, ?_, hok1, ?_, ⟨rfl, rfl, rfl⟩, ?_, ?_, rfl, rfl, rfl⟩
      · rw [sysTickTmr_some hh, if_pos (by omega)]
      · intro y hy
        obtain ⟨z, hz, rfl⟩ := List.mem_map.mp hy
        have := hall z hz
        change 1 ≤ z.2 - 1
        omega
      · intro t r
        rw [mem_tick hpos]
        constructor
        · intro h
          have := hall _ h
          exact Or.inl ⟨by omega, h⟩
        · intro h
          rcases h with h | h
          · exact h.2
          · exact absurd (hall _ h.1) (by simp)
      · intro t
        have hno : (t, 1) ∉ x :: l := fun h => absurd (hall _ h) (by simp)
        rw [if_neg hno, List.append_nil]
    · -- the timers with one tick to go expire
      have hx1 : x.2 = 1 := by omega
      obtain ⟨Z, P, hZP, hZ, hP⟩ := split_zero hok1.delta.cnts.sorted
      rw [hZP] at hok1
      have hfuel : Z.length ≤ cfg.maxTmr := by
        have := hok1.length_le
        rw [List.length_append] at this
        omega
      obtain ⟨s', h1, h2⟩ := tmrDispose_spec hcb Z P { s with tmr := m1 } cfg.maxTmr hok1 hZ hP hl
        hfuel
      have hZmem : ∀ t, t ∈ Z.map Prod.fst ↔ (t, 1) ∈ x :: l := by
        intro t
        rw [show (t, 1) ∈ x :: l ↔ (t, 0) ∈ (x :: l).map (fun y => (y.1, y.2 - 1)) from
          (mem_tick hpos).symm, hZP]
        constructor
        · intro h
          obtain ⟨z, hz, rfl⟩ := List.mem_map.mp h
          exact List.mem_append_left _ (by rw [← hZ z hz]; exact hz)
        · intro h
          rcases List.mem_append.mp h with h | h
          · exact List.mem_map.mpr ⟨_, h, rfl⟩
          · exact absurd (hP _ h) (by simp)
      have hPmem : ∀ t r, (t, r) ∈ P ↔ 1 ≤ r ∧ (t, r + 1) ∈ x :: l := by
        intro t r
        rw [← mem_tick hpos, hZP]
        constructor
        · intro h
          exact ⟨hP _ h, List.mem_append_right _ h⟩
        · intro h
          rcases List.mem_append.mp h.2 with h' | h'
          · have := hZ _ h'
            have := h.1
            omega
          · exact h'
      have hnd : (Z.map Prod.fst).Nodup := by
        have := hok1.delta.links.nodup
        rw [List.map_append] at this
        exact (List.nodup_append.mp this).1
      refine ⟨s', _, ?_, h2.ok, ?_, ⟨h2.kind.periodic, h2.kind.reload, h2.kind.vessel⟩, ?_, ?_,
        h2.tick, h2.isr, h2.lock⟩
      · have e0 : s.tmr.tmrCnt x.1 - 1 = 0 := by omega
        rw [sysTickTmr_some hh, if_neg (by omega), ← e0]
        unfold isr_TmrDispose
        rw [if_neg (show ¬ 1 < s.OSSchedLock by omega)]
        exact h1
      · intro y hy
        rcases mem_afterFiring.mp hy with hy | hy
        · exact hP y hy
        · obtain ⟨z, hz, hp, rfl⟩ := hy
          have hm : z.1 ∈ (Z ++ P).map Prod.fst :=
            List.mem_map_of_mem (List.mem_append_left _ hz)
          exact (hok1.reload z.1 hm hp).1
      · intro t r
        rw [mem_afterFiring, hPmem]
        constructor
        · intro h
          rcases h with h | h
          · exact Or.inl h
          · obtain ⟨z, hz, hp, e⟩ := h
            obtain ⟨rfl, rfl⟩ := Prod.mk.inj e
            exact Or.inr ⟨(hZmem z.1).mp (List.mem_map_of_mem hz), hp, rfl⟩
        · intro h
          rcases h with h | h
          · exact Or.inl h
          · obtain ⟨h1, hp, rfl⟩ := h
            obtain ⟨z, hz, rfl⟩ := List.mem_map.mp ((hZmem t).mpr h1)
            exact Or.inr ⟨z, hz, hp, rfl⟩
      · intro t
        rw [h2.log, firedAt_append, firedAt_map hnd]
        congr 1
        by_cases ht : t ∈ Z.map Prod.fst
        · rw [if_pos ht, if_pos ((hZmem t).mp ht)]
        · rw [if_neg ht, if_neg (fun e => ht ((hZmem t).mpr e))]

end Fire

end CoOS
