/-
  Runs of the software timers.

  A run consists of calls of the timer functions, of ticks taken with the scheduler unlocked,
  and of anything else that leaves the timers and the clock alone (`TmrStep`). Starting a
  stopped timer finds a count from 1 to below `2 ^ 31`, and a reload value in that range when
  the timer is periodic; a count is set only on a stopped timer; callbacks call no timer
  function (`CallBacksOk`).

  Proved: a timer started with count `c` at tick `s` fires at `s + c` and, when periodic, at
  `s + c + j * tmrReload` for every `j`, and at no other tick, until it is stopped, deleted or
  started anew, whatever happens to the other timers; and the timer part of every tick ends
  (`tmr_fires_on_schedule`).
-/
import CoOS.Timer.Dispose

namespace CoOS

open Function (update)
open DList KeyOrder

/-! ## Runs -/

inductive TmrOp where
  | create (tmrType tmrCnt tmrReload func : Nat)
  | start (t : Nat)
  | stop (t : Nat)
  | del (t : Nat)
  | setCnt (t tmrCnt tmrReload : Nat)
  | tick
  | other

/-- The counts with which a timer may be started. -/
def Startable (m : Tmr) (t : Nat) : Prop :=
  (1 ≤ m.tmrCnt t ∧ m.tmrCnt t < 2 ^ 31) ∧
    (m.tmrPeriodic t = true → 1 ≤ m.tmrReload t ∧ m.tmrReload t < 2 ^ 31)

/-- One step of a run. -/
def TmrStep (cfg : Env) (s s' : Kernel) : TmrOp → Prop
  | .create tmrType tmrCnt tmrReload func =>
    ∃ id, coCreateTmr cfg s tmrType tmrCnt tmrReload func = some (s', id)
  | .start t => (¬ badTmr cfg s t → s.tmr.tmrRunning t = false → Startable s.tmr t) ∧
    ∃ st, coStartTmr cfg s t = some (s', st)
  | .stop t => ∃ st, coStopTmr cfg s t = some (s', st)
  | .del t => ∃ st, coDelTmr cfg s t = some (s', st)
  | .setCnt t tmrCnt tmrReload => (¬ badTmr cfg s t → s.tmr.tmrRunning t = false) ∧
    ∃ st, coSetTmrCnt cfg s t tmrCnt tmrReload = some (s', st)
  | .tick => s.OSSchedLock = 0 ∧ sysTick_Handler cfg s = some s'
  | .other => s'.tmr = s.tmr ∧ s'.callBacks = s.callBacks ∧ s'.OSTickCnt = s.OSTickCnt ∧
    s'.IsrReq = s.IsrReq

/-- The states that runs reach. -/
inductive TmrReach (cfg : Env) : Kernel → Prop where
  | start {s : Kernel} (htmr : s.tmr = Tmr.zero) (hisr : s.IsrReq = false) : TmrReach cfg s
  | step {s s' : Kernel} (op : TmrOp) (h : TmrReach cfg s) (hs : TmrStep cfg s s' op) :
    TmrReach cfg s'

/-- The step neither stops nor deletes `t`, nor starts it anew. -/
def TmrOp.Leaves (t : Nat) (s : Kernel) : TmrOp → Prop
  | .start u => u = t → s.tmr.tmrRunning t = true
  | .stop u => u ≠ t
  | .del u => u ≠ t
  | _ => True

/-- Runs from `s` whose steps leave `t`. -/
inductive TmrRun (cfg : Env) (t : Nat) (s : Kernel) : Kernel → Prop where
  | refl : TmrRun cfg t s s
  | step {s1 s2 : Kernel} (op : TmrOp) (h : TmrRun cfg t s s1) (hop : op.Leaves t s1)
    (hs : TmrStep cfg s1 s2 op) : TmrRun cfg t s s2

/-! ## One step -/

/-- The invariant: the running timers are those of `l`, all with ticks to go. -/
structure TmrInv (cfg : Env) (s : Kernel) (l : List (Nat × Nat)) : Prop where
  ok : TmrOk cfg s.tmr l
  pos : ∀ x ∈ l, 1 ≤ x.2
  isr : s.IsrReq = false

/-- A step other than a tick, seen from timer `t`. -/
structure TmrKeeps (t : Nat) (s s' : Kernel) (l l' : List (Nat × Nat)) : Prop where
  mem : ∀ r, (t, r) ∈ l' ↔ (t, r) ∈ l
  kind : t ∈ l.map Prod.fst →
    s'.tmr.tmrPeriodic t = s.tmr.tmrPeriodic t ∧ s'.tmr.tmrReload t = s.tmr.tmrReload t
  log : s'.callBacks = s.callBacks
  tick : s'.OSTickCnt = s.OSTickCnt

section Step

variable {cfg : Env} {s s' : Kernel} {l : List (Nat × Nat)} {t u : Nat}

theorem TmrKeeps.refl (t : Nat) (s : Kernel) (l : List (Nat × Nat)) : TmrKeeps t s s l l :=
  ⟨fun _ => Iff.rfl, fun _ => ⟨rfl, rfl⟩, rfl, rfl⟩

/-- The timers of a state before its lock is released are those after it. -/
theorem unlock_view (hi : s.IsrReq = false) (h : osSchedUnlock cfg s = some s') :
    s'.tmr = s.tmr ∧ s'.callBacks = s.callBacks ∧ s'.OSTickCnt = s.OSTickCnt ∧
      s'.IsrReq = false := by
  have hv := osSchedUnlock_tmrView hi h
  refine ⟨congrArg TmrView.tmr hv, congrArg TmrView.log hv, congrArg TmrView.tick hv, ?_⟩
  exact (congrArg TmrView.isr hv).trans hi

/-- `RemoveTmrList` of a running timer. -/
theorem removeTmrList_inv (h : TmrInv cfg s l) (hu : u ∈ l.map Prod.fst)
    (hr : removeTmrList cfg s u = some s') :
    ∃ l1 l2 r, l = l1 ++ (u, r) :: l2 ∧ s'.tmr = s.tmr.setDelta (s.tmr.delta.remove u) ∧
      IsDelta s'.tmr.delta (l1 ++ l2) ∧
      (∀ a, a ∉ (l1 ++ l2).map Prod.fst → s'.tmr.tmrNext a = none ∧ s'.tmr.tmrPrev a = none) ∧
      u ∉ (l1 ++ l2).map Prod.fst ∧ s'.callBacks = s.callBacks ∧ s'.OSTickCnt = s.OSTickCnt ∧
      s'.IsrReq = false := by
  obtain ⟨x, hx, rfl⟩ := List.mem_map.mp hu
  obtain ⟨l1, l2, rfl⟩ := List.append_of_mem hx
  obtain ⟨e1, e2, e3, e4⟩ := unlock_view (s := { osSchedLock s with
    tmr := s.tmr.setDelta (s.tmr.delta.remove x.1) }) h.isr hr
  obtain ⟨hd, hoff, hx'⟩ := TmrOk.remove h.ok
  exact ⟨l1, l2, x.2, rfl, e1, by rw [e1]; exact hd, by rw [e1]; exact hoff, hx', e2, e3, e4⟩

theorem mem_erase {l1 l2 : List (Nat × Nat)} {r : Nat} (htu : t ≠ u) {q : Nat} :
    (t, q) ∈ l1 ++ l2 ↔ (t, q) ∈ l1 ++ (u, r) :: l2 := by
  simp [htu]

/-- What stopping or deleting `u` leaves. -/
theorem remove_step {m : Tmr} (h : TmrInv cfg s l) {l1 l2 : List (Nat × Nat)} {r : Nat}
    (hl : l = l1 ++ (u, r) :: l2) (hd : IsDelta m.delta (l1 ++ l2))
    (hoff : ∀ a, a ∉ (l1 ++ l2).map Prod.fst → m.tmrNext a = none ∧ m.tmrPrev a = none)
    (hu : u ∉ (l1 ++ l2).map Prod.fst)
    (hk : SameKind s.tmr { m with TmrIDVessel := s.tmr.TmrIDVessel })
    (hrun : ∀ a, a ≠ u → m.tmrRunning a = s.tmr.tmrRunning a ∧
      m.TmrIDVessel a = s.tmr.TmrIDVessel a)
    (hgone : ¬ (m.tmrRunning u = true ∧ m.TmrIDVessel u = true)) : TmrOk cfg m (l1 ++ l2) := by
  have hsub : ∀ a, a ∈ (l1 ++ l2).map Prod.fst → a ∈ l.map Prod.fst := by
    intro a ha
    rw [hl]
    simp only [List.map_append, List.mem_append, List.map_cons, List.mem_cons] at ha ⊢
    tauto
  refine ⟨hd, ?_, fun a ha => h.ok.lt a (hsub a ha), hoff, ?_⟩
  · intro a
    by_cases hau : a = u
    · rw [hau]
      exact ⟨fun e => absurd e hu, fun e => absurd e hgone⟩
    · rw [(hrun a hau).1, (hrun a hau).2, ← h.ok.mem a, hl]
      simp [hau]
  · intro a ha hp
    have hp' : s.tmr.tmrPeriodic a = true := by
      rw [← hk.periodic]
      exact hp
    have := h.ok.reload a (hsub a ha) hp'
    rw [← hk.reload] at this
    exact this

theorem stop_step (h : TmrInv cfg s l) {st : StatusType} (hs : coStopTmr cfg s u = some (s', st))
    (htu : u ≠ t) : ∃ l', TmrInv cfg s' l' ∧ TmrKeeps t s s' l l' := by
  unfold coStopTmr at hs
  split at hs
  · cases hs
    exact ⟨l, h, .refl t s l⟩
  · next hb =>
    split at hs
    · cases hs
      exact ⟨l, h, .refl t s l⟩
    · next hr =>
      obtain ⟨s1, h1, hs⟩ := Option.bind_eq_some_iff.mp hs
      cases hs
      have hmem : u ∈ l.map Prod.fst := by
        refine (h.ok.mem u).mpr ⟨by simpa using hr, ?_⟩
        unfold badTmr at hb
        simp only [not_or, Bool.not_eq_false] at hb
        exact hb.2
      obtain ⟨l1, l2, r, hl, e1, hd, hoff, hu, e2, e3, e4⟩ := removeTmrList_inv h hmem h1
      have hok : TmrOk cfg (stopTmr s1 u).tmr (l1 ++ l2) := by
        refine remove_step h hl hd hoff hu ⟨?_, ?_, ?_⟩ ?_ ?_
        · change s1.tmr.tmrPeriodic = _
          rw [e1]
          rfl
        · change s1.tmr.tmrReload = _
          rw [e1]
          rfl
        · rfl
        · intro a ha
          change update s1.tmr.tmrRunning u false a = _ ∧ s1.tmr.TmrIDVessel a = _
          rw [Function.update_of_ne ha, e1]
          exact ⟨rfl, rfl⟩
        · intro e
          have e' : update s1.tmr.tmrRunning u false u = true := e.1
          rw [Function.update_self] at e'
          exact nomatch e'
      refine ⟨l1 ++ l2, ⟨hok, ?_, e4⟩, ⟨?_, ?_, e2, e3⟩⟩
      · intro x hx
        refine h.pos x ?_
        rw [hl]
        rcases List.mem_append.mp hx with hx | hx
        · exact List.mem_append_left _ hx
        · exact List.mem_append_right _ (List.mem_cons_of_mem _ hx)
      · intro q
        rw [hl]
        exact mem_erase (Ne.symm htu)
      · intro _
        change s1.tmr.tmrPeriodic t = _ ∧ s1.tmr.tmrReload t = _
        rw [e1]
        exact ⟨rfl, rfl⟩

theorem del_step (h : TmrInv cfg s l) {st : StatusType} (hs : coDelTmr cfg s u = some (s', st))
    (htu : u ≠ t) : ∃ l', TmrInv cfg s' l' ∧ TmrKeeps t s s' l l' := by
  unfold coDelTmr at hs
  split at hs
  · cases hs
    exact ⟨l, h, .refl t s l⟩
  · next hb =>
    have hv : s.tmr.TmrIDVessel u = true := by
      unfold badTmr at hb
      simp only [not_or, Bool.not_eq_false] at hb
      exact hb.2
    by_cases hr : s.tmr.tmrRunning u = true
    · simp only [hr, if_true] at hs
      obtain ⟨s1, h1, hs⟩ := Option.bind_eq_some_iff.mp hs
      cases hs
      obtain ⟨l1, l2, r, hl, e1, hd, hoff, hu, e2, e3, e4⟩ :=
        removeTmrList_inv h ((h.ok.mem u).mpr ⟨hr, hv⟩) h1
      refine ⟨l1 ++ l2, ⟨remove_step h hl hd hoff hu ⟨?_, ?_, rfl⟩ ?_ ?_, ?_, e4⟩, ⟨?_, ?_, e2, e3⟩⟩
      · change s1.tmr.tmrPeriodic = _
        rw [e1]
        rfl
      · change s1.tmr.tmrReload = _
        rw [e1]
        rfl
      · intro a ha
        change s1.tmr.tmrRunning a = _ ∧ update s1.tmr.TmrIDVessel u false a = _
        rw [Function.update_of_ne ha, e1]
        exact ⟨rfl, rfl⟩
      · intro e
        have e' : update s1.tmr.TmrIDVessel u false u = true := e.2
        rw [Function.update_self] at e'
        exact nomatch e'
      · intro x hx
        refine h.pos x ?_
        rw [hl]
        rcases List.mem_append.mp hx with hx | hx
        · exact List.mem_append_left _ hx
        · exact List.mem_append_right _ (List.mem_cons_of_mem _ hx)
      · intro q
        rw [hl]
        exact mem_erase (Ne.symm htu)
      · intro _
        change s1.tmr.tmrPeriodic t = _ ∧ s1.tmr.tmrReload t = _
        rw [e1]
        exact ⟨rfl, rfl⟩
    · simp only [hr, Bool.false_eq_true, if_false, Option.bind_eq_bind, Option.bind_some] at hs
      cases hs
      refine ⟨l, ⟨⟨h.ok.delta, ?_, h.ok.lt, h.ok.off, h.ok.reload⟩, h.pos, h.isr⟩,
        ⟨fun _ => Iff.rfl, fun _ => ⟨rfl, rfl⟩, rfl, rfl⟩⟩
      intro a
      change _ ↔ s.tmr.tmrRunning a = true ∧ update s.tmr.TmrIDVessel u false a = true
      by_cases hau : a = u
      · rw [hau, h.ok.mem u]
        exact ⟨fun e => absurd e.1 hr, fun e => absurd e.1 hr⟩
      · rw [Function.update_of_ne hau]
        exact h.ok.mem a

/-- Starting a stopped timer puts it in the list with its count. -/
theorem start_fresh (h : TmrInv cfg s l) {st : StatusType} (hb : ¬ badTmr cfg s u)
    (hr : s.tmr.tmrRunning u = false) (hst : Startable s.tmr u)
    (hs : coStartTmr cfg s u = some (s', st)) :
    TmrInv cfg s' (insertKey Prod.snd (u, s.tmr.tmrCnt u) l) ∧ u ∉ l.map Prod.fst ∧
      SameKind s.tmr s'.tmr ∧ s'.callBacks = s.callBacks ∧ s'.OSTickCnt = s.OSTickCnt := by
  obtain ⟨⟨hc1, hc2⟩, hrl⟩ := hst
  have hum : u ∉ l.map Prod.fst := by
    rw [h.ok.mem u, hr]
    exact fun e => nomatch e.1
  unfold badTmr at hb
  simp only [not_or, not_le, Bool.not_eq_false] at hb
  obtain ⟨D, hD, hDl, hDoff⟩ := delta_insert h.ok.delta h.ok.lt h.ok.off hum hc2
  let m1 : Tmr := { s.tmr with tmrRunning := update s.tmr.tmrRunning u true }
  have hmem : ∀ a, a ∈ (insertKey Prod.snd (u, s.tmr.tmrCnt u) l).map Prod.fst ↔
      a = u ∨ a ∈ l.map Prod.fst := by
    intro a
    simp only [List.mem_map, mem_insertKey]
    constructor
    · intro h
      obtain ⟨x, hx | hx, e⟩ := h
      · exact Or.inl (by rw [← e, hx])
      · exact Or.inr ⟨x, hx, e⟩
    · intro h
      rcases h with h | h
      · exact ⟨_, Or.inl rfl, h.symm⟩
      · obtain ⟨x, hx, e⟩ := h
        exact ⟨x, Or.inr hx, e⟩
  have hok : TmrOk cfg (m1.setDelta D) (insertKey Prod.snd (u, s.tmr.tmrCnt u) l) := by
    refine ⟨hDl, ?_, ?_, hDoff, ?_⟩
    · intro a
      rw [hmem a]
      change _ ↔ update s.tmr.tmrRunning u true a = true ∧ s.tmr.TmrIDVessel a = true
      by_cases hau : a = u
      · rw [hau, Function.update_self]
        exact ⟨fun _ => ⟨rfl, hb.2⟩, fun _ => Or.inl rfl⟩
      · rw [Function.update_of_ne hau, or_iff_right hau]
        exact h.ok.mem a
    · intro a ha
      rcases (hmem a).mp ha with rfl | ha
      · exact hb.1
      · exact h.ok.lt a ha
    · intro a ha
      rcases (hmem a).mp ha with rfl | ha
      · exact hrl
      · exact h.ok.reload a ha
  unfold coStartTmr at hs
  rw [if_neg (by unfold badTmr; simp [hb]), if_neg (by simp [hr])] at hs
  obtain ⟨s1, h1, hs⟩ := Option.bind_eq_some_iff.mp hs
  cases hs
  unfold insertTmrList at h1
  rw [if_neg (show ¬ s.tmr.tmrCnt u = 0 by omega)] at h1
  obtain ⟨D', hD', h1⟩ := Option.bind_eq_some_iff.mp h1
  obtain rfl : D = D' := Option.some.inj (hD.symm.trans hD')
  obtain ⟨e1, e2, e3, e4⟩ := unlock_view (by exact h.isr) h1
  have e1' : s'.tmr = m1.setDelta D := e1
  refine ⟨⟨by rw [e1']; exact hok, ?_, e4⟩, hum, ?_, e2, e3⟩
  · intro x hx
    rcases mem_insertKey.mp hx with rfl | hx
    · exact hc1
    · exact h.pos x hx
  · rw [e1']
    exact ⟨rfl, rfl, rfl⟩

theorem start_step (h : TmrInv cfg s l) {st : StatusType}
    (hcnt : ¬ badTmr cfg s u → s.tmr.tmrRunning u = false → Startable s.tmr u)
    (hs : coStartTmr cfg s u = some (s', st)) (htu : u = t → s.tmr.tmrRunning t = true) :
    ∃ l', TmrInv cfg s' l' ∧ TmrKeeps t s s' l l' := by
  by_cases hb : badTmr cfg s u
  · unfold coStartTmr at hs
    rw [if_pos hb] at hs
    cases hs
    exact ⟨l, h, .refl t s l⟩
  · by_cases hr : s.tmr.tmrRunning u = true
    · unfold coStartTmr at hs
      rw [if_neg hb, if_pos hr] at hs
      cases hs
      exact ⟨l, h, .refl t s l⟩
    · have hr' : s.tmr.tmrRunning u = false := by simpa using hr
      have hne : u ≠ t := fun e => hr (by rw [e]; exact htu e)
      obtain ⟨h1, -, h3, h4, h5⟩ := start_fresh h hb hr' (hcnt hb hr') hs
      refine ⟨_, h1, ⟨?_, ?_, h4, h5⟩⟩
      · intro q
        rw [mem_insertKey]
        simp [Ne.symm hne]
      · intro _
        rw [h3.periodic, h3.reload]
        exact ⟨rfl, rfl⟩

theorem freeTmr_spec {m : Tmr} : ∀ {n i j : Nat}, freeTmr m n i = some j →
    m.TmrIDVessel j = false
  | 0, _, _, h => nomatch h
  | n + 1, i, j, h => by
    unfold freeTmr at h
    split at h
    · exact freeTmr_spec h
    · next hv =>
      cases h
      simpa using hv

/-- Data of a timer outside the list may change. -/
theorem delta_outside {m m' : Tmr} (hd : IsDelta m.delta l) (hu : u ∉ l.map Prod.fst)
    (hh : m'.TmrList = m.TmrList)
    (ho : ∀ a, a ≠ u → m'.tmrNext a = m.tmrNext a ∧ m'.tmrPrev a = m.tmrPrev a ∧
      m'.tmrCnt a = m.tmrCnt a) : IsDelta m'.delta l := by
  have hne : ∀ a ∈ l.map Prod.fst, a ≠ u := fun a ha e => hu (e ▸ ha)
  refine ⟨hd.links.congr hh (fun a ha => (ho a (hne a ha)).1) (fun a ha => (ho a (hne a ha)).2.1),
    hd.cnts.congr ?_, hd.lt⟩
  intro x hx
  exact (ho x.1 (hne x.1 (List.mem_map_of_mem hx))).2.2

theorem create_step (h : TmrInv cfg s l) {tmrType tmrCnt tmrReload func id : Nat}
    (hs : coCreateTmr cfg s tmrType tmrCnt tmrReload func = some (s', id)) :
    ∃ l', TmrInv cfg s' l' ∧ TmrKeeps t s s' l l' := by
  unfold coCreateTmr at hs
  split at hs
  · cases hs
    exact ⟨l, h, .refl t s l⟩
  · simp only at hs
    split at hs
    · obtain ⟨s1, h1, hs⟩ := Option.bind_eq_some_iff.mp hs
      cases hs
      obtain ⟨e1, e2, e3, e4⟩ := unlock_view (s := osSchedLock s) h.isr h1
      have e1' : s'.tmr = s.tmr := e1
      exact ⟨l, ⟨by rw [e1']; exact h.ok, h.pos, e4⟩,
        ⟨fun _ => Iff.rfl, fun _ => by rw [e1']; exact ⟨rfl, rfl⟩, e2, e3⟩⟩
    · next i hi =>
      obtain ⟨s1, h1, hs⟩ := Option.bind_eq_some_iff.mp hs
      cases hs
      obtain ⟨e1, e2, e3, e4⟩ := unlock_view (s := { osSchedLock s with
        tmr := { s.tmr with TmrIDVessel := update s.tmr.TmrIDVessel id true } }) h.isr h1
      have hv : s.tmr.TmrIDVessel id = false := freeTmr_spec hi
      have hmem : id ∉ l.map Prod.fst := by
        rw [h.ok.mem id, hv]
        exact fun e => nomatch e.2
      have hne : ∀ a ∈ l.map Prod.fst, a ≠ id := fun a ha e => hmem (e ▸ ha)
      refine ⟨l, ⟨⟨?_, ?_, h.ok.lt, ?_, ?_⟩, h.pos, e4⟩, ⟨fun _ => Iff.rfl, ?_, e2, e3⟩⟩
      · refine delta_outside h.ok.delta hmem (by rw [e1]) fun a ha => ?_
        simp only [Function.update_of_ne ha, e1, and_self]
      · intro a
        change _ ↔ update s1.tmr.tmrRunning id false a = true ∧ s1.tmr.TmrIDVessel a = true
        rw [e1]
        by_cases ha : a = id
        · rw [ha, Function.update_self]
          exact ⟨fun e => absurd e hmem, fun e => nomatch e.1⟩
        · simp only [Function.update_of_ne ha]
          exact h.ok.mem a
      · intro a ha
        change update s1.tmr.tmrNext id none a = none ∧ update s1.tmr.tmrPrev id none a = none
        by_cases hai : a = id
        · rw [hai, Function.update_self, Function.update_self]
          exact ⟨rfl, rfl⟩
        · rw [Function.update_of_ne hai, Function.update_of_ne hai, e1]
          exact h.ok.off a ha
      · intro a ha
        simp only [Function.update_of_ne (hne a ha), e1]
        exact h.ok.reload a ha
      · intro ht
        simp only [Function.update_of_ne (hne t ht), e1, and_self]

theorem setCnt_step (h : TmrInv cfg s l) {tmrCnt tmrReload : Nat} {st : StatusType}
    (hst : ¬ badTmr cfg s u → s.tmr.tmrRunning u = false)
    (hs : coSetTmrCnt cfg s u tmrCnt tmrReload = some (s', st)) :
    ∃ l', TmrInv cfg s' l' ∧ TmrKeeps t s s' l l' := by
  unfold coSetTmrCnt at hs
  split at hs
  · cases hs
    exact ⟨l, h, .refl t s l⟩
  · next hb =>
    have hr := hst hb
    simp only [hr, Bool.false_eq_true, if_false] at hs
    cases hs
    have hmem : u ∉ l.map Prod.fst := by
      rw [h.ok.mem u, hr]
      exact fun e => nomatch e.1
    have hne : ∀ a ∈ l.map Prod.fst, a ≠ u := fun a ha e => hmem (e ▸ ha)
    refine ⟨l, ⟨⟨?_, h.ok.mem, h.ok.lt, h.ok.off, ?_⟩, h.pos, h.isr⟩,
      ⟨fun _ => Iff.rfl, ?_, rfl, rfl⟩⟩
    · refine delta_outside h.ok.delta hmem rfl fun a ha => ?_
      simp only [Function.update_of_ne ha, and_self]
    · intro a ha
      simp only [Function.update_of_ne (hne a ha)]
      exact h.ok.reload a ha
    · intro ht
      simp only [Function.update_of_ne (hne t ht), and_self]

/-- A tick: every count is lowered by one, and the timers that reach 0 fire. -/
theorem tick_step (hcb : CallBacksOk cfg) (h : TmrInv cfg s l) (hlock : s.OSSchedLock = 0)
    (hs : sysTick_Handler cfg s = some s') :
    ∃ l', TmrInv cfg s' l' ∧ SameKind s.tmr s'.tmr ∧ s'.OSTickCnt = s.OSTickCnt + 1 ∧
      (∀ t r, (t, r) ∈ l' ↔ 1 ≤ r ∧ (t, r + 1) ∈ l ∨
        (t, 1) ∈ l ∧ s.tmr.tmrPeriodic t = true ∧ r = s.tmr.tmrReload t) ∧
      (∀ t, firedAt t s'.callBacks =
        firedAt t s.callBacks ++ if (t, 1) ∈ l then [s.OSTickCnt + 1] else []) := by
  unfold sysTick_Handler at hs
  obtain ⟨s1, h1, hs⟩ := Option.bind_eq_some_iff.mp hs
  obtain ⟨s2, h2, hs⟩ := Option.bind_eq_some_iff.mp hs
  have hlock' : s.OSSchedLock + 1 = 1 := by omega
  have hv := sysTickDelay_tmrView hlock' h1
  simp only [Kernel.tmrView, TmrView.mk.injEq] at hv
  obtain ⟨v1, v2, v3, v4, v5⟩ := hv
  have v1' : s1.tmr = s.tmr := v1
  have v2' : s1.callBacks = s.callBacks := v2
  have v3' : s1.OSTickCnt = s.OSTickCnt + 1 := v3
  obtain ⟨s2', l', e1, e2, e3, e4, e5, e6, e7, e8, e9⟩ :=
    @sysTickTmr_spec cfg s1 l hcb (by rw [v1']; exact h.ok) h.pos (v5.trans hlock')
  obtain rfl : s2' = s2 := Option.some.inj (e1.symm.trans h2)
  obtain ⟨w1, w2, w3, w4⟩ := unlock_view (s := { s2' with TaskSchedReq := true })
    ((e8.trans v4).trans h.isr) hs
  have w1' : s'.tmr = s2'.tmr := w1
  rw [v1'] at e4 e5
  rw [v2', v3'] at e6
  refine ⟨l', ⟨by rw [w1']; exact e2, e3, w4⟩, by rw [w1']; exact e4, ?_, e5, ?_⟩
  · rw [w3]
    exact e7.trans v3'
  · rw [w2]
    exact e6

end Step

/-! ## Whole runs -/

section Run

variable {cfg : Env} {s s' : Kernel} {l : List (Nat × Nat)} {t : Nat}

/-- A step that is no tick and leaves `t`. -/
theorem keep_step (h : TmrInv cfg s l) {op : TmrOp} (hs : TmrStep cfg s s' op)
    (hop : op.Leaves t s) (ht : op ≠ .tick) : ∃ l', TmrInv cfg s' l' ∧ TmrKeeps t s s' l l' := by
  cases op with
  | create tmrType tmrCnt tmrReload func =>
    obtain ⟨id, hs⟩ := hs
    exact create_step h hs
  | start u =>
    obtain ⟨hc, st, hs⟩ := hs
    exact start_step h hc hs hop
  | stop u =>
    obtain ⟨st, hs⟩ := hs
    exact stop_step h hs hop
  | del u =>
    obtain ⟨st, hs⟩ := hs
    exact del_step h hs hop
  | setCnt u tmrCnt tmrReload =>
    obtain ⟨hc, st, hs⟩ := hs
    exact setCnt_step h hc hs
  | tick => exact absurd rfl ht
  | other =>
    obtain ⟨e1, e2, e3, e4⟩ := hs
    exact ⟨l, ⟨by rw [e1]; exact h.ok, h.pos, e4.trans h.isr⟩,
      ⟨fun _ => Iff.rfl, fun _ => by rw [e1]; exact ⟨rfl, rfl⟩, e2, e3⟩⟩

/-- Every step keeps the invariant. -/
theorem tmrInv_step (hcb : CallBacksOk cfg) (h : TmrInv cfg s l) {op : TmrOp}
    (hs : TmrStep cfg s s' op) : ∃ l', TmrInv cfg s' l' := by
  by_cases ht : op = .tick
  · subst ht
    obtain ⟨l', h', -⟩ := tick_step hcb h hs.1 hs.2
    exact ⟨l', h'⟩
  · -- some timer is neither stopped, deleted nor started
    have hfresh : ∃ t, op.Leaves t s := by
      cases op with
      | start u => exact ⟨u + 1, fun e => absurd e (by omega)⟩
      | stop u => exact ⟨u + 1, by unfold TmrOp.Leaves; omega⟩
      | del u => exact ⟨u + 1, by unfold TmrOp.Leaves; omega⟩
      | create _ _ _ _ => exact ⟨0, trivial⟩
      | setCnt _ _ _ => exact ⟨0, trivial⟩
      | tick => exact ⟨0, trivial⟩
      | other => exact ⟨0, trivial⟩
    obtain ⟨t, hop⟩ := hfresh
    obtain ⟨l', h', -⟩ := keep_step h hs hop ht
    exact ⟨l', h'⟩

theorem tmrReach_inv (hcb : CallBacksOk cfg) (h : TmrReach cfg s) : ∃ l, TmrInv cfg s l := by
  induction h with
  | start htmr hisr =>
    refine ⟨[], ⟨⟨⟨isDList_nil (by rw [htmr]; rfl), trivial, by simp⟩, ?_, by simp, ?_, by simp⟩,
      by simp, hisr⟩⟩
    · intro t
      rw [htmr]
      simp [Tmr.zero]
    · intro t _
      rw [htmr]
      exact ⟨rfl, rfl⟩
  | step op _ hs ih =>
    obtain ⟨l, hl⟩ := ih
    exact tmrInv_step hcb hl hs

/-- The one-shot timer `t`, due at tick `first`: still counting, or fired once. -/
def DueOnce (s : Kernel) (l : List (Nat × Nat)) (t first : Nat) (log : List Nat) : Prop :=
  (∃ r, (t, r) ∈ l ∧ s.tmr.tmrPeriodic t = false ∧ firedAt t s.callBacks = log ∧
    s.OSTickCnt + r = first) ∨
  (t ∉ l.map Prod.fst ∧ firedAt t s.callBacks = log ++ [first] ∧ first ≤ s.OSTickCnt)

/-- The periodic timer `t`, first due at tick `first`, after `k` firings. -/
def DueEvery (s : Kernel) (l : List (Nat × Nat)) (t first reload : Nat) (log : List Nat) : Prop :=
  ∃ k r, (t, r) ∈ l ∧ s.tmr.tmrPeriodic t = true ∧ s.tmr.tmrReload t = reload ∧
    firedAt t s.callBacks = log ++ (List.range k).map (fun j => first + j * reload) ∧
    s.OSTickCnt + r = first + k * reload ∧ ∀ j, j < k → first + j * reload ≤ s.OSTickCnt

theorem mem_fst {r : Nat} (h : (t, r) ∈ l) : t ∈ l.map Prod.fst := List.mem_map_of_mem h

theorem unique_rem (h : TmrInv cfg s l) {r q : Nat} (h1 : (t, r) ∈ l) (h2 : (t, q) ∈ l) :
    r = q := by
  have hinj := List.inj_on_of_nodup_map h.ok.delta.links.nodup h1 h2 rfl
  exact (Prod.mk.inj hinj).2

theorem dueOnce_step (hcb : CallBacksOk cfg) (h : TmrInv cfg s l) {first : Nat} {log : List Nat}
    (hd : DueOnce s l t first log) {op : TmrOp} (hop : op.Leaves t s) (hs : TmrStep cfg s s' op) :
    ∃ l', TmrInv cfg s' l' ∧ DueOnce s' l' t first log := by
  by_cases ht : op = .tick
  · subst ht
    obtain ⟨l', h', hk, htick, hmem, hfire⟩ := tick_step hcb h hs.1 hs.2
    refine ⟨l', h', ?_⟩
    rcases hd with ⟨r, hr, hp, hf, he⟩ | ⟨hno, hf, hle⟩
    · have hr1 : 1 ≤ r := h.pos _ hr
      by_cases hr2 : r = 1
      · -- the last tick
        subst hr2
        refine Or.inr ⟨?_, ?_, by omega⟩
        · intro hm
          obtain ⟨⟨a, q⟩, hq, rfl⟩ := List.mem_map.mp hm
          rcases (hmem a q).mp hq with e | e
          · have := unique_rem h hr e.2
            omega
          · rw [hp] at e
            exact nomatch e.2.1
        · rw [hfire t, if_pos hr, hf, he]
      · refine Or.inl ⟨r - 1, (hmem t (r - 1)).mpr (Or.inl ⟨by omega, ?_⟩), ?_, ?_, by omega⟩
        · rw [Nat.sub_add_cancel hr1]
          exact hr
        · rw [hk.periodic]
          exact hp
        · rw [hfire t, if_neg (fun e => hr2 (unique_rem h hr e)), List.append_nil, hf]
    · refine Or.inr ⟨?_, ?_, by omega⟩
      · intro hm
        obtain ⟨⟨a, q⟩, hq, rfl⟩ := List.mem_map.mp hm
        rcases (hmem a q).mp hq with e | e
        · exact hno (mem_fst e.2)
        · exact hno (mem_fst e.1)
      · rw [hfire t, if_neg (fun e => hno (mem_fst e)), List.append_nil, hf]
  · obtain ⟨l', h', hk⟩ := keep_step h hs hop ht
    refine ⟨l', h', ?_⟩
    rcases hd with ⟨r, hr, hp, hf, he⟩ | ⟨hno, hf, hle⟩
    · refine Or.inl ⟨r, (hk.mem r).mpr hr, ?_, by rw [hk.log, hf], by rw [hk.tick, he]⟩
      rw [(hk.kind (mem_fst hr)).1]
      exact hp
    · refine Or.inr ⟨?_, by rw [hk.log, hf], by rw [hk.tick]; exact hle⟩
      intro hm
      obtain ⟨⟨a, q⟩, hq, rfl⟩ := List.mem_map.mp hm
      exact hno (mem_fst ((hk.mem q).mp hq))

theorem dueEvery_step (hcb : CallBacksOk cfg) (h : TmrInv cfg s l) {first reload : Nat}
    {log : List Nat} (hd : DueEvery s l t first reload log) {op : TmrOp} (hop : op.Leaves t s)
    (hs : TmrStep cfg s s' op) : ∃ l', TmrInv cfg s' l' ∧ DueEvery s' l' t first reload log := by
  obtain ⟨k, r, hr, hp, hrl, hf, he, hpast⟩ := hd
  by_cases ht : op = .tick
  · subst ht
    obtain ⟨l', h', hk, htick, hmem, hfire⟩ := tick_step hcb h hs.1 hs.2
    refine ⟨l', h', ?_⟩
    have hr1 : 1 ≤ r := h.pos _ hr
    have hp' : s'.tmr.tmrPeriodic t = true := by
      rw [hk.periodic]
      exact hp
    have hrl' : s'.tmr.tmrReload t = reload := by
      rw [hk.reload]
      exact hrl
    by_cases hr2 : r = 1
    · subst hr2
      refine ⟨k + 1, reload, (hmem t reload).mpr (Or.inr ⟨hr, hp, hrl.symm⟩), hp', hrl', ?_, ?_, ?_⟩
      · rw [hfire t, if_pos hr, hf, List.range_succ, List.map_append, he, List.append_assoc]
        rfl
      · rw [htick, he, Nat.succ_mul, Nat.add_assoc]
      · intro j hj
        rcases Nat.lt_or_eq_of_le (Nat.lt_succ_iff.mp hj) with hj | rfl
        · have := hpast j hj
          omega
        · omega
    · refine ⟨k, r - 1, (hmem t (r - 1)).mpr (Or.inl ⟨by omega, ?_⟩), hp', hrl', ?_, by omega, ?_⟩
      · rw [Nat.sub_add_cancel hr1]
        exact hr
      · rw [hfire t, if_neg (fun e => hr2 (unique_rem h hr e)), List.append_nil, hf]
      · intro j hj
        have := hpast j hj
        omega
  · obtain ⟨l', h', hk⟩ := keep_step h hs hop ht
    obtain ⟨k1, k2⟩ := hk.kind (mem_fst hr)
    exact ⟨l', h', k, r, (hk.mem r).mpr hr, k1.trans hp, k2.trans hrl, by rw [hk.log, hf],
      by rw [hk.tick, he], by rw [hk.tick]; exact hpast⟩

/-- A property of the timer `t` kept by every step that leaves it holds after every run. -/
theorem tmrRun_induct {Q : Kernel → List (Nat × Nat) → Prop}
    (hstep : ∀ {s s' : Kernel} {l : List (Nat × Nat)} {op : TmrOp}, TmrInv cfg s l → Q s l →
      op.Leaves t s → TmrStep cfg s s' op → ∃ l', TmrInv cfg s' l' ∧ Q s' l')
    (h : TmrInv cfg s l) (hQ : Q s l) (hrun : TmrRun cfg t s s') :
    ∃ l', TmrInv cfg s' l' ∧ Q s' l' := by
  induction hrun with
  | refl => exact ⟨l, h, hQ⟩
  | step op _ hop hs ih =>
    obtain ⟨l1, h1, hQ1⟩ := ih
    exact hstep h1 hQ1 hop hs

/-- The timer part of a tick ends in every state that satisfies the invariant. -/
theorem tmr_tick_ends (hcb : CallBacksOk cfg) (h : TmrInv cfg s l) (hlock : s.OSSchedLock = 0)
    (hdly : sysTickDelay cfg { osSchedLock s with OSTickCnt := s.OSTickCnt + 1 } = some s') :
    ∃ s'', sysTickTmr cfg s' = some s'' := by
  have hlock' : s.OSSchedLock + 1 = 1 := by omega
  have hv := sysTickDelay_tmrView hlock' hdly
  have v1 : s'.tmr = s.tmr := congrArg TmrView.tmr hv
  have v2 : s'.OSSchedLock = 1 := (congrArg TmrView.lock hv).trans hlock'
  obtain ⟨s'', l', e, -⟩ := @sysTickTmr_spec cfg s' l hcb (by rw [v1]; exact h.ok) h.pos v2
  exact ⟨s'', e⟩

end Run

/-- **Exact firing schedule.** `s0` is any reachable state in which the created timer `t` is
    stopped, `s1` the state after `CoStartTmr`, and `s2` any later state such that `t` was not
    stopped, deleted or started anew in between. The last part is the end of `TmrDispose`: in
    every reachable state the timer part of a tick returns. -/
theorem tmr_fires_on_schedule (cfg : Env) (hcb : CallBacksOk cfg) {s0 s1 s2 : Kernel} {t : Nat}
    (hreach : TmrReach cfg s0) (hgood : ¬ badTmr cfg s0 t) (hstop : s0.tmr.tmrRunning t = false)
    (hstart : TmrStep cfg s0 s1 (.start t)) (hrun : TmrRun cfg t s1 s2) :
    (s0.tmr.tmrPeriodic t = false →
      firedAt t s2.callBacks = firedAt t s0.callBacks ++
        if s0.OSTickCnt + s0.tmr.tmrCnt t ≤ s2.OSTickCnt then [s0.OSTickCnt + s0.tmr.tmrCnt t]
        else []) ∧
    (s0.tmr.tmrPeriodic t = true →
      ∃ k, firedAt t s2.callBacks = firedAt t s0.callBacks ++ (List.range k).map
          (fun j => s0.OSTickCnt + s0.tmr.tmrCnt t + j * s0.tmr.tmrReload t) ∧
        ∀ j, j < k ↔
          s0.OSTickCnt + s0.tmr.tmrCnt t + j * s0.tmr.tmrReload t ≤ s2.OSTickCnt) ∧
    (∀ s s', TmrReach cfg s → s.OSSchedLock = 0 →
      sysTickDelay cfg { osSchedLock s with OSTickCnt := s.OSTickCnt + 1 } = some s' →
      ∃ s'', sysTickTmr cfg s' = some s'') := by
  obtain ⟨l, hl⟩ := tmrReach_inv hcb hreach
  obtain ⟨hc, st, hs⟩ := hstart
  obtain ⟨h1, -, hk, hlog, htick⟩ := start_fresh hl hgood hstop (hc hgood hstop) hs
  have hmem : (t, s0.tmr.tmrCnt t) ∈ insertKey Prod.snd (t, s0.tmr.tmrCnt t) l :=
    mem_insertKey.mpr (Or.inl rfl)
  refine ⟨?_, ?_, ?_⟩
  · intro hp
    have hd : DueOnce s1 _ t (s0.OSTickCnt + s0.tmr.tmrCnt t) (firedAt t s0.callBacks) :=
      Or.inl ⟨_, hmem, by rw [hk.periodic]; exact hp, by rw [hlog], by rw [htick]⟩
    obtain ⟨l2, h2, hd2⟩ := tmrRun_induct
      (fun h hQ hop hs => dueOnce_step hcb h hQ hop hs) h1 hd hrun
    rcases hd2 with ⟨r, hr, -, hf, he⟩ | ⟨-, hf, hle⟩
    · have := h2.pos _ hr
      rw [if_neg (by omega), List.append_nil]
      exact hf
    · rw [if_pos hle]
      exact hf
  · intro hp
    have hd : DueEvery s1 _ t (s0.OSTickCnt + s0.tmr.tmrCnt t) (s0.tmr.tmrReload t)
        (firedAt t s0.callBacks) :=
      ⟨0, _, hmem, by rw [hk.periodic]; exact hp, by rw [hk.reload], by rw [hlog]; simp,
        by rw [htick, Nat.zero_mul, Nat.add_zero], fun j hj => absurd hj (Nat.not_lt_zero j)⟩
    obtain ⟨l2, h2, k, r, hr, -, -, hf, he, hpast⟩ := tmrRun_induct
      (fun h hQ hop hs => dueEvery_step hcb h hQ hop hs) h1 hd hrun
    refine ⟨k, hf, fun j => ⟨hpast j, fun hj => ?_⟩⟩
    have hr1 : 1 ≤ r := h2.pos _ hr
    by_contra hlt
    have := Nat.mul_le_mul_right (s0.tmr.tmrReload t) (Nat.le_of_not_lt hlt)
    omega
  · intro s s' hr hlock hdly
    obtain ⟨l, h⟩ := tmrReach_inv hcb hr
    exact tmr_tick_ends hcb h hlock hdly

/-- `n` ticks, with the scheduler unlocked. -/
def tmrTicks (cfg : Env) : Nat → Kernel → Option Kernel
  | 0, s => some s
  | n + 1, s => if s.OSSchedLock = 0 then (sysTick_Handler cfg s).bind (tmrTicks cfg n) else none

theorem tmrTicks_run {cfg : Env} {t : Nat} (n : Nat) : ∀ {s s1 s2 : Kernel}, TmrRun cfg t s s1 →
    tmrTicks cfg n s1 = some s2 → TmrRun cfg t s s2 := by
  induction n with
  | zero =>
    intro s s1 s2 h e
    exact Option.some.inj e ▸ h
  | succ n ih =>
    intro s s1 s2 h e
    unfold tmrTicks at e
    split at e
    · next hl =>
      obtain ⟨s3, e1, e2⟩ := Option.bind_eq_some_iff.mp e
      exact ih (.step .tick h trivial ⟨hl, e1⟩) e2
    · exact nomatch e

/-- Of a timer that has been created. -/
def TmrIs (s : Kernel) (t : Nat) (cnt reload : Nat) (periodic : Bool) : Prop :=
  ¬ badTmr shippedEnv s t ∧ s.tmr.tmrRunning t = false ∧ s.tmr.tmrCnt t = cnt ∧
    s.tmr.tmrReload t = reload ∧
    s.tmr.tmrPeriodic t = periodic ∧ s.OSTickCnt = 0 ∧ s.callBacks = []

instance (s : Kernel) (t cnt reload : Nat) (periodic : Bool) :
    Decidable (TmrIs s t cnt reload periodic) :=
  inferInstanceAs (Decidable (¬ (_ ∨ _) ∧ _))

/-- In the shipped configuration: a periodic timer with count 2 and reload 3 and a one-shot timer
    with count 4 are created, the second and then the first is started, and five ticks pass. -/
theorem tmr_five_ticks : ∃ k0 s0 s1 s2 s3 i j st st',
    coCreateTmr shippedEnv Kernel.zero 1 2 3 7 = some (k0, i) ∧
    coCreateTmr shippedEnv k0 0 4 0 8 = some (s0, j) ∧
    coStartTmr shippedEnv s0 1 = some (s1, st) ∧ coStartTmr shippedEnv s1 0 = some (s2, st') ∧
    tmrTicks shippedEnv 5 s2 = some s3 ∧
    TmrIs s0 1 4 0 false ∧ TmrIs s1 0 2 3 true ∧ s3.OSTickCnt = 5 := by
  have key : ((coCreateTmr shippedEnv Kernel.zero 1 2 3 7).bind fun a =>
      (coCreateTmr shippedEnv a.1 0 4 0 8).bind fun b => (coStartTmr shippedEnv b.1 1).bind fun c =>
      (coStartTmr shippedEnv c.1 0).bind fun d => (tmrTicks shippedEnv 5 d.1).map fun s =>
        decide (TmrIs b.1 1 4 0 false ∧ TmrIs c.1 0 2 3 true ∧ s.OSTickCnt = 5)) = some true := by
          decide +kernel
  obtain ⟨⟨k0, i⟩, h0, key⟩ := Option.bind_eq_some_iff.mp key
  obtain ⟨⟨s0, j⟩, h1, key⟩ := Option.bind_eq_some_iff.mp key
  obtain ⟨⟨s1, st⟩, h2, key⟩ := Option.bind_eq_some_iff.mp key
  obtain ⟨⟨s2, st'⟩, h3, key⟩ := Option.bind_eq_some_iff.mp key
  obtain ⟨s3, h4, key⟩ := Option.map_eq_some_iff.mp key
  exact ⟨k0, s0, s1, s2, s3, i, j, st, st', h0, h1, h2, h3, h4, of_decide_eq_true key⟩

/-- Five ticks after the start the one-shot timer has fired at the tick 4, and the periodic one at
    the ticks 2 and 5. -/
theorem tmr_fires_on_schedule_shipped : ∃ s0 s1 s2, TmrReach shippedEnv s0 ∧
    TmrRun shippedEnv 1 s0 s2 ∧ TmrRun shippedEnv 0 s1 s2 ∧ s2.OSTickCnt = 5 ∧
    firedAt 1 s2.callBacks = [4] ∧
    ∃ k, firedAt 0 s2.callBacks = (List.range k).map (fun j => 0 + 2 + j * 3) ∧ ∀ j, j < k ↔
    0 + 2 + j * 3 ≤ 5 := by
  obtain ⟨k0, s0, s1, s2, s3, i, j, st, st', h0, h1, h2, h3, h4, ⟨a1, a2, a3, a4, a5, a6, a7⟩,
    ⟨b1, b2, b3, b4, b5, b6, b7⟩, ht⟩ := tmr_five_ticks
  have hcb : CallBacksOk shippedEnv := fun _ s => ⟨s, rfl, rfl⟩
  have hr0 : TmrReach shippedEnv s0 :=
    .step (.create 0 4 0 8)
      (.step (s := Kernel.zero) (.create 1 2 3 7) (.start rfl rfl) ⟨i, h0⟩) ⟨j, h1⟩
  have hst1 : TmrStep shippedEnv s0 s1 (.start 1) := by
    refine ⟨fun _ _ => ?_, st, h2⟩
    unfold Startable
    rw [a3, a4, a5]
    decide
  have hst0 : TmrStep shippedEnv s1 s2 (.start 0) := by
    refine ⟨fun _ _ => ?_, st', h3⟩
    unfold Startable
    rw [b3, b4, b5]
    decide
  have hrun1 : TmrRun shippedEnv 1 s1 s3 := tmrTicks_run 5 (.step (.start 0) .refl nofun hst0) h4
  have hrun0 : TmrRun shippedEnv 0 s2 s3 := tmrTicks_run 5 .refl h4
  have hr1 : TmrReach shippedEnv s1 := .step (.start 1) hr0 hst1
  have key1 := (tmr_fires_on_schedule shippedEnv hcb hr0 a1 a2 hst1 hrun1).1 a5
  have key0 := (tmr_fires_on_schedule shippedEnv hcb hr1 b1 b2 hst0 hrun0).2.1 b5
  rw [a3, a6, a7, ht] at key1
  rw [b3, b4, b6, b7, ht] at key0
  exact ⟨s1, s2, s3, hr1, hrun1, hrun0, ht, key1, key0⟩

end CoOS
