/-
  Every tick keeps `TmrLinked`, whatever the counts are. So in every run whose calls are orderly
  (`TmrOp.Orderly`), starting, stopping or deleting one timer leaves the others where they are
  (`timers_undisturbed`).
-/
import CoOS.Timer.Linked

namespace CoOS

open Function (update)
open DList KeyOrder

/-! ## Ticks -/

section Functions

variable {cfg : Env} {s s' : Kernel} {l : List (Nat × Nat)} {t : Nat}

/-- A timer that is on no list fires. -/
theorem callBack_view (hcb : CallBacksOk cfg) (h : callBack cfg s t = some s') :
    s'.tmrView = { s.tmrView with log := s.callBacks ++ [(t, s.OSTickCnt)] } := by
  obtain ⟨s1, h1, h2⟩ :=
    hcb (s.tmr.tmrCallBack t) { s with callBacks := s.callBacks ++ [(t, s.OSTickCnt)] }
  obtain rfl : s1 = s' := Option.some.inj (h1.symm.trans h)
  exact h2

theorem fired_view (hcb : CallBacksOk cfg) {s1 : Kernel} {m : Tmr}
    (hv : s1.tmrView = { s.tmrView with tmr := m }) (h : callBack cfg s1 t = some s') :
    s'.tmrView = { s.tmrView with tmr := m, log := s.callBacks ++ [(t, s.OSTickCnt)] } := by
  have e1 : s1.callBacks = s.callBacks := congrArg TmrView.log hv
  have e2 : s1.OSTickCnt = s.OSTickCnt := congrArg TmrView.tick hv
  rw [callBack_view hcb h, hv, e1, e2]

/-- What the firing of `t` leaves of the list `(t, 0) :: l`: the timers of `l` as they were,
    and `t` if it is periodic with a count to reload. -/
structure Refired (cfg : Env) (s s' : Kernel) (l l' : List (Nat × Nat)) (t : Nat) : Prop where
  linked : TmrLinked cfg s'.tmr l'
  kept : (∀ x ∈ l, x.2 < 2 ^ 31) →
    Undisturbed t l l' ∧ ∀ x ∈ l', (x.1 = t ∧ 0 < x.2 ∧ x.2 < 2 ^ 31) ∨ x ∈ l
  log : s'.callBacks = s.callBacks ++ [(t, s.OSTickCnt)]
  tick : s'.OSTickCnt = s.OSTickCnt
  isr : s'.IsrReq = s.IsrReq
  lock : s'.OSSchedLock = s.OSSchedLock

theorem fireTmr_linked (hcb : CallBacksOk cfg) (hl : TmrLinked cfg s.tmr ((t, 0) :: l))
    (hlock : s.OSSchedLock ≠ 0) (h : fireTmr cfg s t = some s') :
    ∃ l', Refired cfg s s' l l' t := by
  have hq : NoneDeferred s := fun e => absurd e hlock
  have hrun := hl.run t (by simp)
  have htm := hl.lt t (by simp)
  -- the counter of the head is 0, so nothing is carried to the next timer
  have hcnt0 : s.tmr.tmrCnt t = 0 := hl.counted.cnts.2.1
  have hrem : ∀ {s1 : Kernel}, removeTmrList cfg s t = some s1 →
      TmrLinked cfg s1.tmr l ∧ t ∉ l.map Prod.fst ∧
        s1.tmrView = { s.tmrView with tmr := s.tmr.setDelta (s.tmr.delta.remove t) } := by
    intro s1 h1
    have hv := removeTmrList_view hq h1
    have e : s1.tmr = s.tmr.setDelta (s.tmr.delta.remove t) := congrArg TmrView.tmr hv
    obtain ⟨l2', d, h2, h3, -, h5, h6, -⟩ :=
      (show TmrLinked cfg s.tmr ([] ++ (t, 0) :: l) from hl).remove
    have hd : d = 0 ∨ l = [] := h5.mpr fun y _ => by
      rw [hcnt0]
      exact hl.word y.1
    have hl2 : l2' = l := by
      rcases hd with rfl | rfl
      · rw [h3, later_zero, List.map_id]
      · exact List.map_eq_nil_iff.mp h3.symm
    rw [hl2] at h2 h6
    exact ⟨by rw [e]; exact h2, h6, hv⟩
  unfold fireTmr at h
  split at h
  · -- a periodic timer is linked again, unless its reload value is 0
    obtain ⟨s1, h1, h⟩ := Option.bind_eq_some_iff.mp h
    obtain ⟨s2, h2, h3⟩ := Option.bind_eq_some_iff.mp h
    obtain ⟨hl1, ht, hv1⟩ := hrem h1
    have e1 : s1.tmr = s.tmr.setDelta (s.tmr.delta.remove t) := congrArg TmrView.tmr hv1
    have hrl : s1.tmr.tmrReload t < 2 ^ 31 := hl1.reload t
    let m1 : Tmr := { s1.tmr with tmrCnt := update s1.tmr.tmrCnt t (s1.tmr.tmrReload t) }
    have hm1 : m1.tmrCnt t = s1.tmr.tmrReload t := Function.update_self ..
    have hl2 : TmrLinked cfg m1 l :=
      hl1.outside ht rfl (fun a ha => ⟨rfl, rfl, Function.update_of_ne ha .., rfl, rfl⟩)
        (hl1.off t ht)
        (hm1.trans_lt (hrl.trans (by decide))) hl1.reload
    have hrun1 : m1.tmrRunning t = true ∧ m1.TmrIDVessel t = true := by
      change s1.tmr.tmrRunning t = true ∧ s1.tmr.TmrIDVessel t = true
      rw [e1]
      exact hrun
    have hv2 : Kernel.tmrView { s1 with tmr := m1 } = { s.tmrView with tmr := m1 } :=
      written_view hv1 m1
    obtain ⟨l', h4, h5, D, h6⟩ :=
      insertTmrList_keeps (s := { s1 with tmr := m1 }) (hq.view hv2) hl2 ht htm
      hrun1 h2
    have hv3 := fired_view hcb (s := s) (h6.trans (by rw [hv2])) h3
    have e3 : s'.tmr = s2.tmr := (congrArg TmrView.tmr hv3).trans (congrArg TmrView.tmr h6).symm
    refine ⟨l', by rw [e3]; exact h4, fun hs => ?_, congrArg TmrView.log hv3,
      congrArg TmrView.tick hv3, congrArg TmrView.isr hv3, congrArg TmrView.lock hv3⟩
    have hm1' : m1.tmrCnt t < 2 ^ 31 := hm1.trans_lt hrl
    have h7 := h5 (near_of_lt hm1' hs)
    refine ⟨fun b q _ hm => (h7 _).mpr (Or.inr hm), fun x hx => ((h7 x).mp hx).imp_left ?_⟩
    rintro ⟨rfl, h0⟩
    exact ⟨rfl, Nat.pos_of_ne_zero h0, hm1'⟩
  · obtain ⟨s1, h1, h2⟩ := Option.bind_eq_some_iff.mp h
    obtain ⟨hl1, ht, hv1⟩ := hrem h1
    have hl2 : TmrLinked cfg (stopTmr s1 t).tmr l :=
      hl1.outside ht rfl (fun a ha => ⟨rfl, rfl, rfl, Function.update_of_ne ha .., rfl⟩)
        (hl1.off t ht)
        (hl1.word t) hl1.reload
    have hv2 := fired_view hcb (written_view hv1 (stopTmr s1 t).tmr) h2
    have e2 : s'.tmr = (stopTmr s1 t).tmr := congrArg TmrView.tmr hv2
    exact ⟨l, by rw [e2]; exact hl2, fun _ => ⟨.refl t l, fun _ => Or.inr⟩,
      congrArg TmrView.log hv2,
      congrArg TmrView.tick hv2, congrArg TmrView.isr hv2, congrArg TmrView.lock hv2⟩

/-- What the loop of `TmrDispose` leaves of the list `l`. While every count is below `2 ^ 31`,
    the timers with ticks to go are untouched, and each of the others fires once. -/
structure Disposed (cfg : Env) (s s' : Kernel) (l l' : List (Nat × Nat)) : Prop where
  linked : TmrLinked cfg s'.tmr l'
  kept : (∀ x ∈ l, x.2 < 2 ^ 31) → (∀ x ∈ l', 0 < x.2 ∧ x.2 < 2 ^ 31) ∧
    (∀ a q, 0 < q → (a, q) ∈ l → (a, q) ∈ l') ∧
    ∀ a, firedAt a s'.callBacks = firedAt a s.callBacks ++ if (a, 0) ∈ l then [s.OSTickCnt] else []
  tick : s'.OSTickCnt = s.OSTickCnt
  isr : s'.IsrReq = s.IsrReq
  lock : s'.OSSchedLock = s.OSSchedLock

/-- A loop that finds no timer due. -/
theorem Disposed.done (hl : TmrLinked cfg s.tmr l) (hpos : ∀ x ∈ l, 0 < x.2) :
    Disposed cfg s s l l where
  linked := hl
  kept hs := by
    refine ⟨fun x hx => ⟨hpos x hx, hs x hx⟩, fun _ _ _ h => h, fun a => ?_⟩
    rw [if_neg fun h => Nat.lt_irrefl 0 (hpos _ h), List.append_nil]
  tick := rfl
  isr := rfl
  lock := rfl

/-- One round, and the rest of the loop. -/
theorem Disposed.round {s1 : Kernel} {l1 l2 : List (Nat × Nat)}
    (hl : TmrLinked cfg s.tmr ((t, 0) :: l))
    (h1 : Refired cfg s s1 l l1 t) (h2 : Disposed cfg s1 s' l1 l2) :
    Disposed cfg s s' ((t, 0) :: l) l2 where
  linked := h2.linked
  kept hs := by
    obtain ⟨h3, h4⟩ := h1.kept fun x hx => hs x (List.mem_cons_of_mem _ hx)
    obtain ⟨h5, h6, h7⟩ := h2.kept fun x hx => by
      rcases h4 x hx with hx | hx
      · exact hx.2.2
      · exact hs x (List.mem_cons_of_mem _ hx)
    have ht : t ∉ l.map Prod.fst := (List.nodup_cons.mp hl.counted.links.nodup).1
    refine ⟨h5, fun a q hq hm => ?_, fun a => ?_⟩
    · rcases List.mem_cons.mp hm with e | hm
      · exact absurd (congrArg Prod.snd e) (Nat.ne_of_gt hq)
      · exact h6 a q hq (h3 a q (fun e => ht (e ▸ List.mem_map_of_mem hm)) hm)
    · rw [h7 a, h1.log, h1.tick, firedAt_append]
      by_cases ha : a = t
      · -- the timer of this round is not due again
        have hn : (a, 0) ∉ l1 := fun hm => by
          rcases h4 _ hm with hm | hm
          · exact Nat.lt_irrefl 0 hm.2.1
          · exact ht (ha ▸ List.mem_map_of_mem hm)
        rw [if_neg hn, if_pos (by rw [ha]; exact List.mem_cons_self), List.append_nil, ha]
        simp [firedAt]
      · have hm : (a, 0) ∈ l1 ↔ (a, 0) ∈ (t, 0) :: l := by
          constructor
          · intro hm
            rcases h4 _ hm with hm | hm
            · exact absurd hm.1 ha
            · exact List.mem_cons_of_mem _ hm
          · intro hm
            rcases List.mem_cons.mp hm with e | hm
            · exact absurd (congrArg Prod.fst e) ha
            · exact h3 a 0 ha hm
        simp only [hm]
        have hf : firedAt a [(t, s.OSTickCnt)] = [] := by simp [firedAt, Ne.symm ha]
        rw [hf, List.append_nil]
  tick := h2.tick.trans h1.tick
  isr := h2.isr.trans h1.isr
  lock := h2.lock.trans h1.lock

/-- The head of the list and its counter. -/
theorem TmrLinked.head (hl : TmrLinked cfg s.tmr l) :
    (l = [] ∧ s.tmr.TmrList = none) ∨
      ∃ t r l2, l = (t, r) :: l2 ∧ s.tmr.TmrList = some t ∧ s.tmr.tmrCnt t = r ∧
      ∀ x ∈ l, r ≤ x.2 := by
  have hh : s.tmr.TmrList = (l.map Prod.fst).head? := hl.counted.links.head
  cases l with
  | nil => exact Or.inl ⟨rfl, hh⟩
  | cons x l2 =>
    obtain ⟨-, h2, h3⟩ := hl.counted.cnts
    refine Or.inr ⟨x.1, x.2, l2, rfl, hh, h2, fun y hy => ?_⟩
    rcases List.mem_cons.mp hy with rfl | hy
    · exact Nat.le_refl _
    · exact h3.base_le y hy

theorem tmrDispose_linked (hcb : CallBacksOk cfg) (n : Nat) : ∀ {s : Kernel} {l : List (Nat × Nat)},
    TmrLinked cfg s.tmr l → s.OSSchedLock ≠ 0 → tmrDispose cfg n s = some s' →
      ∃ l', Disposed cfg s s' l l' := by
  induction n with
  | zero =>
    intro s l hl hlock h
    unfold tmrDispose at h
    rcases hl.head with ⟨rfl, hh⟩ | ⟨t, r, l2, rfl, hh, hc, hle⟩
    · rw [hh] at h
      rw [← Option.some.inj h]
      exact ⟨[], .done hl fun _ hx => absurd hx List.not_mem_nil⟩
    · rw [hh] at h
      dsimp only at h
      split at h
      · next h0 =>
        rw [← Option.some.inj h]
        exact ⟨_, .done hl fun x hx => (Nat.pos_of_ne_zero (hc ▸ h0)).trans_le (hle x hx)⟩
      · exact absurd h (by simp)
  | succ n ih =>
    intro s l hl hlock h
    unfold tmrDispose at h
    rcases hl.head with ⟨rfl, hh⟩ | ⟨t, r, l2, rfl, hh, hc, hle⟩
    · rw [hh] at h
      rw [← Option.some.inj h]
      exact ⟨[], .done hl fun _ hx => absurd hx List.not_mem_nil⟩
    · rw [hh] at h
      dsimp only at h
      split at h
      · next h0 =>
        rw [← Option.some.inj h]
        exact ⟨_, .done hl fun x hx => (Nat.pos_of_ne_zero (hc ▸ h0)).trans_le (hle x hx)⟩
      · next h0 =>
        obtain ⟨s1, h1, h2⟩ := Option.bind_eq_some_iff.mp h
        obtain rfl : r = 0 := hc.symm.trans (not_not.mp h0)
        obtain ⟨l1, hf⟩ := fireTmr_linked hcb hl hlock h1
        obtain ⟨l', hd⟩ := ih hf.linked (fun e => hlock (hf.lock.symm.trans e)) h2
        exact ⟨l', .round hl hf hd⟩

/-- The timer part of a tick. -/
theorem sysTickTmr_linked (hcb : CallBacksOk cfg) (hl : TmrLinked cfg s.tmr l)
    (hlock : s.OSSchedLock = 1)
    (h : sysTickTmr cfg s = some s') :
    ∃ l', TmrLinked cfg s'.tmr l' ∧ s'.OSTickCnt = s.OSTickCnt ∧ s'.IsrReq = s.IsrReq ∧
      s'.OSSchedLock = s.OSSchedLock ∧
      ((∀ x ∈ l, 0 < x.2 ∧ x.2 < 2 ^ 31) → (∀ x ∈ l', 0 < x.2 ∧ x.2 < 2 ^ 31) ∧
        (∀ a q, 1 < q → (a, q) ∈ l → (a, q - 1) ∈ l') ∧
        ∀ a, firedAt a s'.callBacks =
          firedAt a s.callBacks ++ if (a, 1) ∈ l then [s.OSTickCnt] else []) := by
  unfold sysTickTmr at h
  rcases hl.head with ⟨rfl, hh⟩ | ⟨t, r, l2, rfl, hh, hc, hle⟩
  · rw [hh] at h
    rw [← Option.some.inj h]
    exact ⟨[], hl, rfl, rfl, rfl, fun _ => ⟨(fun _ hx => nomatch hx), (fun _ _ _ hx => nomatch hx),
      fun _ => (List.append_nil _).symm⟩⟩
  · obtain ⟨l1, hl1, he⟩ := hl.tick
    rw [hh] at h
    dsimp only at h
    split at h
    · next h1 =>
      rw [← Option.some.inj h]
      refine ⟨l1, hl1, rfl, rfl, rfl, fun hs => ?_⟩
      obtain rfl := he (by omega)
      refine ⟨fun x hx => ?_, fun a q _ hm => ?_, fun a => ?_⟩
      · obtain ⟨y, hy, rfl⟩ := List.mem_map.mp hx
        have h2 := hle y hy
        have h3 := (hs y hy).2
        simp only
        omega
      · exact List.mem_map.mpr ⟨(a, q), hm, rfl⟩
      · rw [if_neg, List.append_nil]
        intro hm
        have h2 := hle _ hm
        simp only at h2
        omega
    · next h1 =>
      have hc0 : s.tmr.tmrCnt t - 1 = 0 := by omega
      rw [hc0] at hl1
      unfold isr_TmrDispose at h
      rw [if_neg (show ¬ 1 < s.OSSchedLock by omega)] at h
      obtain ⟨l', hd⟩ := tmrDispose_linked (s := { s with tmr := { s.tmr with
        tmrCnt := update s.tmr.tmrCnt t 0 } }) hcb _ hl1 (by rw [hlock]; decide) h
      refine ⟨l', hd.linked, hd.tick, hd.isr, hd.lock, fun hs => ?_⟩
      obtain rfl := he (hs (t, r) List.mem_cons_self).1
      obtain ⟨h2, h3, h4⟩ := hd.kept fun x hx => by
        obtain ⟨y, hy, rfl⟩ := List.mem_map.mp hx
        have h5 := (hs y hy).2
        simp only
        omega
      refine ⟨h2, fun a q hq hm => h3 a (q - 1) (by omega) (List.mem_map.mpr ⟨(a, q), hm, rfl⟩),
        fun a => ?_⟩
      have hm : (a, 0) ∈ ((t, r) :: l2).map (fun x => (x.1, x.2 - 1)) ↔ (a, 1) ∈ (t, r) :: l2 := by
        constructor
        · intro hm
          obtain ⟨y, hy, e⟩ := List.mem_map.mp hm
          obtain ⟨e1, e2⟩ := Prod.mk.inj e
          have h5 := (hs y hy).1
          obtain rfl : y = (a, 1) := Prod.ext e1 (by simp only; omega)
          exact hy
        · intro hm
          exact List.mem_map.mpr ⟨(a, 1), hm, rfl⟩
      rw [h4 a]
      simp only [hm]

theorem sysTick_Handler_linked (hcb : CallBacksOk cfg) (hl : TmrLinked cfg s.tmr l)
    (hi : s.IsrReq = false)
    (hlock : s.OSSchedLock = 0) (h : sysTick_Handler cfg s = some s') :
    ∃ l', TmrLinked cfg s'.tmr l' ∧ s'.OSTickCnt = s.OSTickCnt + 1 ∧ s'.IsrReq = false ∧
      s'.OSSchedLock = 0 ∧
      ((∀ x ∈ l, 0 < x.2 ∧ x.2 < 2 ^ 31) → (∀ x ∈ l', 0 < x.2 ∧ x.2 < 2 ^ 31) ∧
        (∀ a q, 1 < q → (a, q) ∈ l → (a, q - 1) ∈ l') ∧
        ∀ a, firedAt a s'.callBacks =
          firedAt a s.callBacks ++ if (a, 1) ∈ l then [s.OSTickCnt + 1] else []) := by
  unfold sysTick_Handler at h
  obtain ⟨s1, h1, h⟩ := Option.bind_eq_some_iff.mp h
  obtain ⟨s2, h2, h⟩ := Option.bind_eq_some_iff.mp h
  have hlock' : s.OSSchedLock + 1 = 1 := by omega
  have hv := sysTickDelay_tmrView hlock' h1
  have v1 : s1.tmr = s.tmr := congrArg TmrView.tmr hv
  have v2 : s1.callBacks = s.callBacks := congrArg TmrView.log hv
  have v3 : s1.OSTickCnt = s.OSTickCnt + 1 := congrArg TmrView.tick hv
  have v4 : s1.IsrReq = s.IsrReq := congrArg TmrView.isr hv
  have v5 : s1.OSSchedLock = 1 := (congrArg TmrView.lock hv).trans hlock'
  obtain ⟨l', e1, e2, e3, e4, e5⟩ :=
    sysTickTmr_linked hcb (s := s1) (l := l) (by rw [v1]; exact hl) v5 h2
  have hw :=
    osSchedUnlock_tmrView (s := { s2 with TaskSchedReq := true }) ((e3.trans v4).trans hi) h
  have w1 : s'.tmr = s2.tmr := congrArg TmrView.tmr hw
  have w2 : s'.callBacks = s2.callBacks := congrArg TmrView.log hw
  have w3 : s'.OSTickCnt = s2.OSTickCnt := congrArg TmrView.tick hw
  have w4 : s'.IsrReq = s2.IsrReq := congrArg TmrView.isr hw
  have w5 : s'.OSSchedLock = s2.OSSchedLock - 1 := congrArg TmrView.lock hw
  rw [v2, v3] at e5
  refine ⟨l', by rw [w1]; exact e1, by rw [w3, e2, v3], by rw [w4, e3, v4, hi], by rw [w5, e4, v5],
    ?_⟩
  rw [w2]
  exact e5

end Functions

/-! ## Runs -/

/-- One step of a run with any counts below `2 ^ 31`, 0 included. -/
def AnyStep (cfg : Env) (s s' : Kernel) : TmrOp → Prop
  | .create tmrType tmrCnt tmrReload func => tmrCnt < 2 ^ 31 ∧ tmrReload < 2 ^ 31 ∧
    ∃ id, coCreateTmr cfg s tmrType tmrCnt tmrReload func = some (s', id)
  | .start t => ∃ st, coStartTmr cfg s t = some (s', st)
  | .stop t => ∃ st, coStopTmr cfg s t = some (s', st)
  | .del t => ∃ st, coDelTmr cfg s t = some (s', st)
  | .setCnt t tmrCnt tmrReload => tmrCnt < 2 ^ 31 ∧ tmrReload < 2 ^ 31 ∧
    ∃ st, coSetTmrCnt cfg s t tmrCnt tmrReload = some (s', st)
  | .tick => s.OSSchedLock = 0 ∧ sysTick_Handler cfg s = some s'
  | .other => s'.tmr = s.tmr ∧ s'.callBacks = s.callBacks ∧ s'.OSTickCnt = s.OSTickCnt ∧
    s'.IsrReq = s.IsrReq

/-- The states that runs reach by steps allowed by `ok`. -/
inductive TmrTrace (cfg : Env) (ok : Kernel → TmrOp → Prop) : Kernel → Prop where
  | start {s : Kernel} (htmr : s.tmr = Tmr.zero) (hisr : s.IsrReq = false) : TmrTrace cfg ok s
  | step {s s' : Kernel} (op : TmrOp) (h : TmrTrace cfg ok s) (hok : ok s op)
    (hs : AnyStep cfg s s' op) : TmrTrace cfg ok s'

/-- A running timer that is stopped, deleted or set is linked. -/
def TmrOp.Orderly (cfg : Env) (s : Kernel) : TmrOp → Prop
  | .stop t => Leavable cfg s t
  | .del t => Leavable cfg s t
  | .setCnt t _ _ => Leavable cfg s t
  | _ => True

/-- The 32-bit arithmetic on the list `l` is exact. -/
def TmrOp.Fits (s : Kernel) (l : List (Nat × Nat)) : TmrOp → Prop
  | .start t => Near (s.tmr.tmrCnt t) l
  | .stop t => NoCarry s.tmr t
  | .del t => NoCarry s.tmr t
  | _ => True

section Runs

variable {cfg : Env} {s s' : Kernel} {l : List (Nat × Nat)} {a : Nat}

theorem AnyStep.linked (hcb : CallBacksOk cfg) (hl : TmrLinked cfg s.tmr l) (hi : s.IsrReq = false)
    {op : TmrOp} (hok : op.Orderly cfg s) (hs : AnyStep cfg s s' op) :
    s'.IsrReq = false ∧ ∃ l', TmrLinked cfg s'.tmr l' := by
  have hq : NoneDeferred s := fun _ => hi
  have hview : ∀ {m : Tmr}, s'.tmrView = { s.tmrView with tmr := m } → s'.IsrReq = false :=
    fun hv =>
    (congrArg TmrView.isr hv).trans hi
  cases op with
  | create tmrType tmrCnt tmrReload func =>
    obtain ⟨hc, hr, id, hs⟩ := hs
    obtain ⟨h1, h2⟩ := coCreateTmr_keeps hq hl hc hr hs
    exact ⟨hview h2, l, h1⟩
  | start t =>
    obtain ⟨st, hs⟩ := hs
    obtain ⟨l', h1, -, h2⟩ := coStartTmr_keeps hq hl hs
    exact ⟨hview h2, l', h1⟩
  | stop t =>
    obtain ⟨st, hs⟩ := hs
    obtain ⟨l', h1, -, h2⟩ := coStopTmr_keeps hq hl hok hs
    exact ⟨hview h2, l', h1⟩
  | del t =>
    obtain ⟨st, hs⟩ := hs
    obtain ⟨l', h1, -, h2⟩ := coDelTmr_keeps hq hl hok hs
    exact ⟨hview h2, l', h1⟩
  | setCnt t c r =>
    obtain ⟨hc, hr, st, hs⟩ := hs
    obtain ⟨l', h1, h2⟩ := coSetTmrCnt_keeps hq hl hc hr hok hs
    exact ⟨hview h2, l', h1⟩
  | tick =>
    obtain ⟨l', h1, -, h2, -⟩ := sysTick_Handler_linked hcb hl hi hs.1 hs.2
    exact ⟨h2, l', h1⟩
  | other =>
    obtain ⟨h1, -, -, h2⟩ := hs
    exact ⟨h2.trans hi, l, by rw [h1]; exact hl⟩

theorem TmrTrace.linked (hcb : CallBacksOk cfg)
    (h : TmrTrace cfg (fun s op => op.Orderly cfg s) s) :
    s.IsrReq = false ∧ ∃ l, TmrLinked cfg s.tmr l := by
  induction h with
  | start htmr hisr =>
    rw [htmr]
    refine ⟨hisr, [], ⟨isDList_nil rfl, trivial, (fun _ hx => nomatch hx)⟩,
      (fun _ hx => nomatch hx),
      (fun _ hx => nomatch hx), fun _ _ => ⟨rfl, rfl⟩, fun _ => ?_, fun _ => ?_⟩
    · change 0 < 2 ^ 32
      decide
    · change 0 < 2 ^ 31
      decide
  | step op _ hok hs ih =>
    obtain ⟨hi, l, hl⟩ := ih
    exact hs.linked hcb hl hi hok

/-- **One timer does not disturb the others**, in every run whose calls take only linked timers
    out of the list: the list is what its links say, and starting, stopping or deleting `a`
    keeps every other timer on it with its ticks. -/
theorem timers_undisturbed (hcb : CallBacksOk cfg)
    (h : TmrTrace cfg (fun s op => op.Orderly cfg s) s) :
    ∃ l, TmrLinked cfg s.tmr l ∧ ∀ a s' op, (op = .start a ∨ op = .stop a ∨ op = .del a) →
      AnyStep cfg s s' op → op.Orderly cfg s → op.Fits s l →
      ∃ l', TmrLinked cfg s'.tmr l' ∧ Undisturbed a l l' := by
  obtain ⟨hi, l, hl⟩ := h.linked hcb
  have hq : NoneDeferred s := fun _ => hi
  refine ⟨l, hl, fun a s' op hop hs hok hfit => ?_⟩
  rcases hop with rfl | rfl | rfl
  · obtain ⟨st, hs⟩ := hs
    obtain ⟨l', h1, h2, -⟩ := coStartTmr_keeps hq hl hs
    exact ⟨l', h1, fun b q _ hm => (h2 hfit _).mpr (Or.inr hm)⟩
  · obtain ⟨st, hs⟩ := hs
    obtain ⟨l', h1, h2, -⟩ := coStopTmr_keeps hq hl hok hs
    exact ⟨l', h1, h2 hfit⟩
  · obtain ⟨st, hs⟩ := hs
    obtain ⟨l', h1, h2, -⟩ := coDelTmr_keeps hq hl hok hs
    exact ⟨l', h1, h2 hfit⟩

end Runs

/-- Timer 0 is created with count 5 and started, then timer 1 with count `c`. -/
theorem two_timers {c : Nat} (hc : c < 2 ^ 31) {P : Kernel → Prop} [DecidablePred P]
    (h : ((coCreateTmr shippedEnv Kernel.zero 0 5 0 7).bind fun a =>
      (coStartTmr shippedEnv a.1 0).bind fun b =>
      (coCreateTmr shippedEnv b.1 0 c 0 7).bind fun d => (coStartTmr shippedEnv d.1 1).map fun e =>
        decide (P e.1)) = some true) :
    ∃ s, TmrTrace shippedEnv (fun s op => op.Orderly shippedEnv s) s ∧ P s := by
  obtain ⟨⟨s1, i⟩, h1, h⟩ := Option.bind_eq_some_iff.mp h
  obtain ⟨⟨s2, st⟩, h2, h⟩ := Option.bind_eq_some_iff.mp h
  obtain ⟨⟨s3, j⟩, h3, h⟩ := Option.bind_eq_some_iff.mp h
  obtain ⟨⟨s4, st'⟩, h4, h⟩ := Option.map_eq_some_iff.mp h
  refine ⟨s4, .step (.start 1) (.step (.create 0 c 0 7) (.step (.start 0) (.step (s := Kernel.zero)
    (.create 0 5 0 7) (.start rfl rfl) trivial ?_) trivial ⟨st, h2⟩) trivial ?_) trivial ⟨st', h4⟩,
    of_decide_eq_true h⟩
  · exact ⟨by decide, by decide, i, h1⟩
  · exact ⟨hc, by decide, j, h3⟩

theorem timers_undisturbed_shipped :
    ∃ s s' l l', TmrTrace shippedEnv (fun s op => op.Orderly shippedEnv s) s ∧
    s.tmr.TmrList = some 1 ∧ AnyStep shippedEnv s s' (.stop 1) ∧ TmrLinked shippedEnv s.tmr l ∧
    TmrLinked shippedEnv s'.tmr l' ∧ Undisturbed 1 l l' := by
  obtain ⟨s, hs, ⟨h1, h2, h3, h4⟩⟩ := two_timers (c := 3) (by decide)
    (P := fun s => s.tmr.TmrList = some 1 ∧ (coStopTmr shippedEnv s 1).isSome = true ∧
      s.tmr.tmrNext 1 = some 0 ∧ s.tmr.tmrCnt 0 + s.tmr.tmrCnt 1 < 2 ^ 32) (by decide +kernel)
  obtain ⟨⟨s', st⟩, hst⟩ := Option.isSome_iff_exists.mp h2
  obtain ⟨l, hl, hall⟩ := @timers_undisturbed shippedEnv _ (fun _ s => ⟨s, rfl, rfl⟩) hs
  obtain ⟨l', hl', hu⟩ := hall 1 s' (.stop 1) (Or.inr (Or.inl rfl)) ⟨st, hst⟩ (fun _ _ => Or.inl h1)
    (fun n hn => by
      rw [h3] at hn
      rw [← Option.some.inj hn]
      exact h4)
  exact ⟨s, s', l, l', hs, h1, ⟨st, hst⟩, hl, hl', hu⟩

/-- Timer 1 has count 0 and runs without being linked; stopping it makes the list forget timer 0. -/
theorem stop_unlinked_forgets :
    ∃ s s', TmrTrace shippedEnv (fun s op => op.Orderly shippedEnv s) s ∧
    s.tmr.TmrList = some 0 ∧ AnyStep shippedEnv s s' (.stop 1) ∧ s'.tmr.TmrList = none := by
  obtain ⟨s, hs, ⟨h1, h2⟩⟩ := two_timers (c := 0) (by decide)
    (P := fun s => s.tmr.TmrList = some 0 ∧
      (coStopTmr shippedEnv s 1).map (fun x => x.1.tmr.TmrList) = some none) (by decide +kernel)
  obtain ⟨⟨s', st⟩, h3, h4⟩ := Option.map_eq_some_iff.mp h2
  exact ⟨s, s', hs, h1, ⟨st, h3⟩, h4⟩

end CoOS
