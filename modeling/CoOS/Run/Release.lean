/-
  The unlock after ticks that were deferred.

  `RespondSRQ` releases what has expired, with the counters as the locked ticks left them; from
  there on every tick counts (`Armed.tick`).
-/
import CoOS.Run.Lock
import CoOS.Run.Delayed

namespace CoOS

open Function (update)
open DList KeyOrder

/-! ## The end of a section -/

section End

variable {cfg : Env} {k q : Kernel} {g : Ghost} {L : List (Nat × Nat)} {m : Tmr}
  {log : List (Nat × Nat)} {cur r : Nat}

theorem TmrOk.env {cfg' : Env} (h : TmrOk cfg m L) (hm : cfg'.maxTmr = cfg.maxTmr) :
    TmrOk cfg' m L :=
  ⟨h.delta, h.mem, fun t ht => by rw [hm]; exact h.lt t ht, h.off, h.reload⟩

theorem takeSwitch_tmrView {k : Kernel} (hl : k.OSSchedLock = 0) : (takeSwitch k).tmrView =
    k.tmrView := by
  rw [takeSwitch_eq hl]
  rfl

/-- The unlock that ends a section in which no request is left. -/
theorem armed_settle (hp : Pending cfg.served q g cur) (hl : q.OSSchedLock = 1)
    (hr : q.reqs = ⟨false, false, false, 0, 1, 0⟩) (ht : TmrOk cfg.served m L)
    (hpos : ∀ x ∈ L, 1 ≤ x.2) :
    ∃ k1, osSchedUnlock cfg.served (q.withTmr m log) = some k1 ∧ Armed cfg (takeSwitch k1) g.dly L ∧
      (takeSwitch k1).tmr = m ∧ (takeSwitch k1).callBacks = log ∧
      (takeSwitch k1).OSTickCnt = q.OSTickCnt ∧
      (∀ t, (takeSwitch k1).state t = .WAITING ↔ q.state t = .WAITING) ∧
      ∀ t, (takeSwitch k1).alive cfg t ↔ Live cfg.served g t := by
  have hi : q.IsrReq = false := congrArg Reqs.IsrReq hr
  obtain ⟨q1, g1, r1, e1, -, e3, e4, e5⟩ := osSchedUnlock_spec hp hi hl
  have hk : osSchedUnlock cfg.served (q.withTmr m log) = some (q1.withTmr m log) := by
    rw [osSchedUnlock_withTmr cfg.served q m log hi, e1]
    rfl
  have hv := osSchedUnlock_tmrView (s := q.withTmr m log) hi hk
  have hlk : (q1.withTmr m log).OSSchedLock = 0 := by
    have h1 : q1.OSSchedLock = q.OSSchedLock - 1 := congrArg TmrView.lock hv
    change q1.OSSchedLock = 0
    omega
  have hsw : takeSwitch (q1.withTmr m log) = (takeSwitch q1).withTmr m log := takeSwitch_withTmr ..
  have hv' := (takeSwitch_tmrView hlk).trans hv
  have hreq : (q1.withTmr m log).reqs = ⟨false, false, false, 0, 0, 0⟩ := by
    have hn : q.OSIntNesting = 0 := congrArg Reqs.nest hr
    have hpend : ¬ (q.withTmr m log).reqs.Pending := by
      change ¬ q.reqs.Pending
      rw [hr]
      exact Reqs.Clean.not_pending ⟨rfl, rfl, rfl, rfl⟩
    have hu := @unlock_reqs cfg (q.withTmr m log) hl (congrArg Reqs.TimeReq hr)
      (congrArg Reqs.TimerReq hr) (fun e => absurd e hpend) _ hk
    change _ = (⟨false, false, false, 0, 0, q.OSIntNesting⟩ : Reqs) at hu
    rwa [hn] at hu
  have hclean : (takeSwitch (q1.withTmr m log)).reqs.Clean := by
    rw [takeSwitch_reqs hlk, hreq]
    exact ⟨rfl, rfl, rfl, rfl⟩
  refine ⟨q1.withTmr m log, hk, ⟨⟨g1, r1, ?_, e3.dly⟩, ⟨?_, hpos, hclean.isr⟩, hclean⟩,
    congrArg TmrView.tmr hv', congrArg TmrView.log hv', congrArg TmrView.tick hv', fun t =>
      ?_, fun t => ?_⟩
  · rw [hsw]
    exact e5.withoutTmr
  · rw [show (takeSwitch (q1.withTmr m log)).tmr = m from congrArg TmrView.tmr hv']
    exact ht
  · rw [hsw]
    exact e4 t
  · rw [hsw]
    exact (alive_iff e5.withoutTmr.coh.rep t).trans (e3.live t)

end End

/-! ## A tick with the scheduler unlocked -/

theorem mem_due {D : List (Nat × Nat)} {t : Nat} : t ∈ due D ↔ DueBy D 1 t := by
  unfold due DueBy
  rw [List.mem_map]
  constructor
  · rintro ⟨x, hx, rfl⟩
    obtain ⟨h1, h2⟩ := List.mem_filter.mp hx
    exact ⟨x, h1, rfl, of_decide_eq_true h2⟩
  · rintro ⟨x, hx, rfl, hle⟩
    exact ⟨x, List.mem_filter.mpr ⟨hx, decide_eq_true hle⟩, rfl⟩

theorem mem_later {D : List (Nat × Nat)} {t r : Nat} : (t, r) ∈ later D ↔
    1 ≤ r ∧ (t, r + 1) ∈ D := by
  unfold later
  rw [List.mem_map]
  constructor
  · rintro ⟨x, hx, e⟩
    obtain ⟨h1, h2⟩ := List.mem_filter.mp hx
    obtain ⟨rfl, rfl⟩ := Prod.mk.inj e
    have h3 : 1 < x.2 := of_decide_eq_true h2
    refine ⟨by omega, ?_⟩
    rw [Nat.sub_add_cancel (Nat.le_of_lt h3)]
    exact h1
  · rintro ⟨h1, h2⟩
    exact ⟨(t, r + 1), List.mem_filter.mpr ⟨h2, decide_eq_true (show 1 < r + 1 by omega)⟩, rfl⟩

theorem dueBy_one {L : List (Nat × Nat)} (hpos : ∀ x ∈ L, 1 ≤ x.2) (t : Nat) :
    DueBy L 1 t ↔ (t, 1) ∈ L := by
  constructor
  · rintro ⟨x, hx, rfl, hle⟩
    have h1 := hpos x hx
    rwa [show (x.1, 1) = x by rw [← Nat.le_antisymm hle h1]]
  · intro h
    exact ⟨_, h, rfl, Nat.le_refl 1⟩

section Free

variable {cfg : Env} {k : Kernel} {D L : List (Nat × Nat)}

/-- **SysTick_Handler** between two calls. -/
theorem Armed.tick (hcb : Silent cfg) (h : Armed cfg k D L) :
    ∃ k' D' L', (sysTick_Handler cfg.served k).map takeSwitch = some k' ∧ Armed cfg k' D' L' ∧
      Passed cfg 1 1 1 k k' D D' L L' := by
  obtain ⟨⟨g, r, hst, rfl⟩, htm, hcl⟩ := h
  let q : Kernel := k.withTmr Tmr.zero []
  let q0 : Kernel := { osSchedLock q with OSTickCnt := q.OSTickCnt + 1 }
  let k0 : Kernel := { osSchedLock k with OSTickCnt := k.OSTickCnt + 1 }
  obtain ⟨q1, g1, e1, e2, e3, e4, e5⟩ := sysTickDelay_pending hst
  have hd : sysTickDelay cfg.served k0 = some (q1.withTmr k.tmr k.callBacks) := by
    change sysTickDelay cfg.served (q0.withTmr k.tmr k.callBacks) = _
    rw [sysTickDelay_withTmr, e1]
    rfl
  have hlock : k.OSSchedLock = 0 := hst.lock
  have hl0 : k0.OSSchedLock = 1 := congrArg Nat.succ hlock
  have hv := sysTickDelay_tmrView hl0 hd
  have hclock : q1.OSTickCnt = k.OSTickCnt + 1 := congrArg TmrView.tick hv
  have hl1 : q1.OSSchedLock = 1 := (congrArg TmrView.lock hv).trans hl0
  obtain ⟨k2, L', f1, f2, f3, f4, f5, f6, f7, f8, f9⟩ := @sysTickTmr_spec cfg.served
    (q1.withTmr k.tmr k.callBacks) L (Silent.ok hcb) htm.ok htm.pos hl1
  obtain ⟨m, log, rfl⟩ :=
    @sysTickTmr_onlyTmr cfg.served (q1.withTmr k.tmr k.callBacks) hcb hl1 k2 f1
  let q2 : Kernel := { q1 with TaskSchedReq := true }
  have hreq : q2.reqs = ⟨false, false, false, 0, 1, 0⟩ := by
    have hdr : (sysTickDelay cfg.served k0).map Kernel.reqs = some k0.reqs := by
      have hs : Ensures (sysTickDelay cfg.served k0) fun k1 => k1.reqs = k0.reqs := by
        unfold sysTickDelay
        split
        · exact .some rfl
        · refine .ite (fun _ => .some rfl) fun _ => ?_
          refine .ite (fun hn => absurd hn (by rw [hl0]; decide)) fun _ => ?_
          exact timeDispose_reqs _ _
      rw [hd]
      exact congrArg some (hs _ hd)
    rw [hd] at hdr
    have hq : q1.reqs = k0.reqs := Option.some.inj hdr
    have hn : k.OSIntNesting = 0 := hst.coh.nest
    change q1.reqs = _
    rw [hq]
    change (⟨k.IsrReq, k.TimeReq, k.TimerReq, k.ServiceReq.cnt, k.OSSchedLock + 1,
      k.OSIntNesting⟩ : Reqs) = _
    rw [show k.IsrReq = false from hcl.isr, show k.TimeReq = false from hcl.time,
      show k.TimerReq = false from hcl.timer, show k.ServiceReq.cnt = 0 from hcl.cnt, hlock, hn]
  obtain ⟨k1, u1, u2, u3, u4, u5, u6, u7⟩ := @armed_settle cfg q2 g1 L' m log r e2 hl1 hreq f2 f3
  have hcalm : Calm g g1 := e5.calm fun t ht => by
    rw [due_loc hst.coh t ht]
    exact plain_dly
  refine ⟨takeSwitch k1, g1.dly, L', ?_, u2, ?_, ?_, fun t r => ?_, fun t => ?_, fun t => ?_,
    fun t r => ?_,
    fun t => ?_⟩
  · unfold sysTick_Handler
    change Option.map takeSwitch ((sysTickDelay cfg.served k0).bind _) = _
    rw [hd]
    change Option.map takeSwitch ((sysTickTmr cfg.served (q1.withTmr k.tmr k.callBacks)).bind _) = _
    rw [f1]
    exact congrArg (Option.map takeSwitch) u1
  · rw [u5]
    exact hclock
  · rw [u3]
    exact f4
  · rw [e4]
    exact mem_later
  · rw [u6 t, ← mem_due]
    change q1.state t = .WAITING ↔ k.state t = .WAITING ∧ _
    rw [e5.state t]
    split
    · next ht => exact ⟨(fun e => nomatch e), fun e => absurd ht e.2⟩
    · next ht => exact ⟨fun e => ⟨e, ht⟩, fun e => e.1⟩
  · exact (u7 t).trans ((hcalm.live t).trans (alive_iff hst.coh.rep t).symm)
  · rw [f5, dueBy_one htm.pos]
    rfl
  · rw [u4]
    refine (f6 t).trans ?_
    have hc : (if (t, 1) ∈ L then [(q1.withTmr k.tmr k.callBacks).OSTickCnt] else []) =
        if DueBy L 1 t then [k.OSTickCnt + 1] else [] := by
      have ho : (q1.withTmr k.tmr k.callBacks).OSTickCnt = k.OSTickCnt + 1 := hclock
      rw [ho]
      by_cases ht : (t, 1) ∈ L
      · rw [if_pos ht, if_pos ((dueBy_one htm.pos t).mpr ht)]
      · rw [if_neg ht, if_neg fun e => ht ((dueBy_one htm.pos t).mp e)]
    rw [hc]
    rfl

end Free

/-! ## The end of a locked section -/

/-- Nothing has expired: everything in the list has ticks left. -/
theorem lower_pos {n : Nat} {L : List (Nat × Nat)} (hs : SortedKey Prod.snd L)
    (he : expired n L = false) :
    ∀ x ∈ lower (elapsed n L) L, 1 ≤ x.2 := by
  intro y hy
  obtain ⟨x, hx, rfl⟩ := List.mem_map.mp hy
  cases L with
  | nil => exact nomatch hx
  | cons z L =>
    have hz : n < z.2 := Nat.lt_of_not_le (of_decide_eq_false he)
    have hzx : z.2 ≤ x.2 := by
      rcases List.mem_cons.mp hx with rfl | hx
      · exact Nat.le_refl _
      · exact (List.pairwise_cons.mp hs).1 x hx
    change 1 ≤ x.2 - min n z.2
    omega

section Request

variable {cfg : Env} {k q : Kernel} {g : Ghost} {t : Nat}

/-- `InsertToTCBRdyList` takes back no request to schedule. -/
theorem insertToTCBRdyList_req (h : q.TaskSchedReq = true) :
    Ensures (insertToTCBRdyList cfg q t) fun q' => q'.TaskSchedReq = true := by
  let q0 : Kernel := { q with state := update q.state t .READY }
  have h0 : (robinCheck cfg q0 t).TaskSchedReq = true := by
    unfold robinCheck
    split
    · exact h
    · split
      · exact h
      · exact h
  unfold insertToTCBRdyList
  refine .ite (fun _ => ?_) fun _ => ?_
  · unfold insertOrdered
    split
    · exact .some rfl
    · exact .ite (fun _ => .some rfl) fun _ => Ensures.skip fun _ => .some h0
  · unfold insertBinary
    refine Ensures.skip fun _ => .ite (fun _ => .some h0) fun _ => ?_
    exact .ite (fun _ => .some rfl) fun _ => .some h0

theorem timeDispose_req (n : Nat) : ∀ {q : Kernel}, q.TaskSchedReq = true →
    Ensures (timeDispose cfg n q) fun q' => q'.TaskSchedReq = true := by
  induction n with
  | zero =>
    intro q h
    unfold timeDispose
    split
    · exact .some h
    · exact .ite (fun _ => .some h) fun _ => .none
  | succ n ih =>
    intro q h
    unfold timeDispose
    split
    · exact .some h
    · next t _ =>
      refine .ite (fun _ => .some h) fun _ => ?_
      let q1 : Kernel := if q.eventID t ≠ INVALID_ID then removeEventWaittingList q t else q
      have h1 : (dropFlagNode q1 t).TaskSchedReq = true := by
        rw [(dropFlagNode_keeps q1 t).2.2]
        unfold q1
        split
        · exact h
        · exact h
      refine Ensures.bind (insertToTCBRdyList_req (q := { dropFlagNode q1 t with
        delayTick := update (dropFlagNode q1 t).delayTick t INVALID_VALUE
        DlyList := (dropFlagNode q1 t).TCBnext t
        TCBnext := update (dropFlagNode q1 t).TCBnext t none }) h1) fun q2 h2 => ?_
      refine ih ?_
      split
      · exact h2
      · exact h2

/-- The time request at the unlock: the tasks whose delay is over are released. -/
theorem respondTime_spec {n : Nat} (h : Coh cfg q (g.lowered (elapsed n g.dly)))
    (hs : SortedKey Prod.snd g.dly) (ht : q.TimeReq = expired n g.dly)
    (hq : expired n g.dly = true → q.TaskSchedReq = true) :
    ∃ q1 g1 T, respondTime cfg q = some q1 ∧
    Coh cfg q1 g1 ∧ (∀ t, t ∈ T ↔ DueBy g.dly (elapsed n g.dly) t) ∧
      (∀ t r, (t, r) ∈ g1.dly ↔ 1 ≤ r ∧ (t, r + elapsed n g.dly) ∈ g.dly) ∧
      Woken T q (g.lowered (elapsed n g.dly)) { q1 with TimeReq := q.TimeReq } g1 ∧
      q1.reqs = { q.reqs with TimeReq := false } ∧ q1.OSTickCnt = q.OSTickCnt ∧
      (T = [] ∨ q1.TaskSchedReq = true) := by
  let e := elapsed n g.dly
  have hsorted : SortedKey Prod.snd (lower e g.dly) := h.rep.deltas.sorted
  cases he : expired n g.dly with
  | false =>
    have htf : ¬ q.TimeReq = true := by
      rw [ht, he]
      decide
    have hpos : ∀ x ∈ lower e g.dly, 1 ≤ x.2 := lower_pos hs he
    obtain ⟨-, hR⟩ := @lower_split e g.dly [] (lower e g.dly) rfl (by simp) hpos
    refine ⟨q, _, [], if_neg htf, h, fun t => ?_, hR, Woken.nil q _, ?_, rfl, Or.inl rfl⟩
    · refine ⟨fun hm => absurd hm List.not_mem_nil, ?_⟩
      rintro ⟨x, hx, -, hle⟩
      have h1 : 1 ≤ x.2 - e := hpos _ (List.mem_map.mpr ⟨x, hx, rfl⟩)
      exact absurd hle (show ¬ x.2 ≤ e by omega)
    · unfold Kernel.reqs
      rw [ht, he]
  | true =>
    have htt : q.TimeReq = true := ht.trans he
    obtain ⟨Z, R, hZR, hZ, hR⟩ := split_zero hsorted
    have hlen : Z.length ≤ cfg.tasks := by
      have h1 : (lower e g.dly).length ≤ cfg.tasks := h.rep.dly_length
      rw [hZR, List.length_append] at h1
      omega
    obtain ⟨q1, g1, e1, e2, e3, e4⟩ := timeDispose_spec cfg.tasks Z hZ hR hlen h hZR
    obtain ⟨hT, hR'⟩ := lower_split hZR hZ hR
    have hreq : q1.reqs = q.reqs := timeDispose_reqs _ q _ e1
    have hcl : q1.OSTickCnt = q.OSTickCnt := congrArg TmrView.tick (timeDispose_tmrView e1)
    refine ⟨{ q1 with TimeReq := false }, g1, Z.map Prod.fst, ?_, e2.congr rfl, hT, ?_, ?_, ?_,
      hcl, Or.inr ?_⟩
    · unfold respondTime
      rw [if_pos htt, e1]
      rfl
    · intro t r
      rw [e3]
      exact hR' t r
    · have hq1 : q1.TimeReq = q.TimeReq := congrArg Reqs.TimeReq hreq
      rw [← hq1]
      exact e4
    · exact congrArg (fun v : Reqs => { v with TimeReq := false }) hreq
    · have hd : q1.TaskSchedReq = true := timeDispose_req cfg.tasks (hq he) q1 e1
      exact hd

/-- The timer request at the unlock: the timers whose count is over fire. -/
theorem respondTimer_spec {n : Nat} {L : List (Nat × Nat)} (hcb : Silent cfg)
    (h : TmrOk cfg k.tmr (lower (elapsed n L) L)) (hs : SortedKey Prod.snd L)
    (ht : k.TimerReq = expired n L) (hl : k.OSSchedLock = 1) :
    ∃ m log L', respondTimer cfg k = some (Kernel.withTmr { k with TimerReq := false } m log) ∧
      TmrOk cfg m L' ∧ (∀ x ∈ L', 1 ≤ x.2) ∧ SameKind k.tmr m ∧
      (∀ t r, (t, r) ∈ L' ↔ 1 ≤ r ∧ (t, r + elapsed n L) ∈ L ∨
        DueBy L (elapsed n L) t ∧ k.tmr.tmrPeriodic t = true ∧ r = k.tmr.tmrReload t) ∧
      ∀ t, firedAt t log = firedAt t k.callBacks ++
        if DueBy L (elapsed n L) t then [k.OSTickCnt] else [] := by
  let e := elapsed n L
  cases he : expired n L with
  | false =>
    have htf : k.TimerReq = false := ht.trans he
    have hpos := lower_pos hs he
    obtain ⟨-, hR⟩ := @lower_split e L [] (lower e L) rfl (by simp) hpos
    have hno : ∀ t, ¬ DueBy L e t := by
      rintro t ⟨x, hx, -, hle⟩
      have h1 : 1 ≤ x.2 - e := hpos _ (List.mem_map.mpr ⟨x, hx, rfl⟩)
      exact absurd hle (by omega)
    refine ⟨k.tmr, k.callBacks, lower e L, ?_, h, hpos, ⟨rfl, rfl, rfl⟩, fun t r => ?_, fun t => ?_⟩
    · unfold respondTimer
      rw [if_neg (by rw [htf]; decide), ← htf]
      rfl
    · rw [hR t r]
      exact ⟨Or.inl, fun e => e.resolve_right fun e => hno t e.1⟩
    · rw [if_neg (hno t), List.append_nil]
  | true =>
    have htt : k.TimerReq = true := ht.trans he
    obtain ⟨Z, P, hZP, hZ, hP⟩ := split_zero h.delta.cnts.sorted
    have h' := h
    rw [hZP] at h'
    have hlen : Z.length ≤ cfg.maxTmr := by
      have h1 := h'.length_le
      rw [List.length_append] at h1
      omega
    obtain ⟨k1, e1, e2⟩ := tmrDispose_spec hcb.ok Z P k cfg.maxTmr h' hZ hP hl hlen
    obtain ⟨m, log, rfl⟩ := tmrDispose_onlyTmr hcb cfg.maxTmr (by omega) k1 e1
    obtain ⟨hT, hR⟩ := lower_split hZP hZ hP
    have hnd : (Z.map Prod.fst).Nodup := by
      have h1 := h'.delta.links.nodup
      rw [List.map_append] at h1
      exact (List.nodup_append.mp h1).1
    -- the timers that fire are those of `Z`
    have hmem : ∀ t, (∃ z ∈ Z, z.1 = t) ↔ DueBy L e t := by
      intro t
      rw [← hT t, List.mem_map]
    refine ⟨m, log, _, ?_, e2.ok, ?_, ⟨e2.kind.periodic, e2.kind.reload, e2.kind.vessel⟩,
      fun t r => ?_,
      fun t => ?_⟩
    · unfold respondTimer
      rw [if_pos htt, e1]
      rfl
    · intro x hx
      rcases mem_afterFiring.mp hx with hx | ⟨z, hz, hp, rfl⟩
      · exact hP x hx
      · exact (h'.reload z.1 (List.mem_map_of_mem (List.mem_append_left _ hz)) hp).1
    · rw [mem_afterFiring, hR t r, ← hmem t]
      constructor
      · rintro (hx | ⟨z, hz, hp, hze⟩)
        · exact Or.inl hx
        · obtain ⟨rfl, rfl⟩ := Prod.mk.inj hze
          exact Or.inr ⟨⟨z, hz, rfl⟩, hp, rfl⟩
      · rintro (hx | ⟨⟨z, hz, rfl⟩, hp, rfl⟩)
        · exact Or.inl hx
        · exact Or.inr ⟨z, hz, hp, rfl⟩
    · have hlog := e2.log
      change log = _ at hlog
      rw [hlog, firedAt_append, firedAt_map hnd]
      congr 1
      by_cases hd : DueBy L e t
      · rw [if_pos hd, if_pos ((hT t).mpr hd)]
      · rw [if_neg hd, if_neg fun h => hd ((hT t).mp h)]

end Request

section Release

variable {cfg : Env} {k0 k k1 k2 : Kernel} {g : Ghost} {D L : List (Nat × Nat)} {n r : Nat}

/-- The last unlock, when only ticks were deferred: first the requests, then the scheduler. -/
theorem unlock_responded (hl : k.OSSchedLock = 1) (hi : k.IsrReq = (k.TimeReq || k.TimerReq))
    (h1 : respondTime cfg.inner k = some k1) (h2 : respondTimer cfg.inner k1 = some k2)
    (hc : k2.ServiceReq.cnt = 0) (hl2 : k2.OSSchedLock = 1) :
    osSchedUnlock cfg.served k = osSchedUnlock cfg.served { k2 with IsrReq := false } := by
  cases hir : k.IsrReq with
  | true =>
    have hsl : serveLoop cfg.inner cfg.maxServiceRequest k2 = some k2 := by
      unfold serveLoop
      rw [if_pos hc]
    have hd : respondSRQ cfg.inner k = some { k2 with IsrReq := false } := by
      rw [respondSRQ_parts, h1, Option.bind_some, h2, Option.bind_some]
      change Option.map endRespond (serveLoop cfg.inner cfg.maxServiceRequest k2) = _
      rw [hsl]
      exact congrArg some (if_pos hc)
    exact osSchedUnlock_served hl hir hd hl2 rfl
  | false =>
    rw [hir] at hi
    have ht : ¬ k.TimeReq = true := fun e => by
      rw [e] at hi
      exact absurd hi (by simp)
    have hr : ¬ k.TimerReq = true := fun e => by
      rw [e, Bool.or_true] at hi
      exact absurd hi (by simp)
    have e1 : k = k1 := by
      unfold respondTime at h1
      rw [if_neg ht] at h1
      exact Option.some.inj h1
    subst e1
    have e2 : k = k2 := by
      unfold respondTimer at h2
      rw [if_neg hr] at h2
      exact Option.some.inj h2
    subst e2
    have e3 : ({ k with IsrReq := false } : Kernel) = k := by
      rw [← hir]
    rw [e3]

/-- The unlock that ends a locked section of `n` ticks. -/
theorem HeldFor.release (hcb : Silent cfg) (hst : Stable cfg.served (k0.withTmr Tmr.zero []) g r)
    (htm : TmrInv cfg.served k0 L) (h : HeldFor cfg k0 g L n 1 k) :
    ∃ k1 D' L', coSchedUnlock cfg.served k = some k1 ∧ Armed cfg (takeSwitch k1) D' L' ∧
      Passed cfg n (elapsed n g.dly) (elapsed n L) k0 (takeSwitch k1) g.dly D' L L' := by
  let q : Kernel := k.withTmr Tmr.zero []
  have hl : k.OSSchedLock = 1 := congrArg Cpu.OSSchedLock h.cpu
  have hqt : q.TimeReq = expired n g.dly := congrArg Reqs.TimeReq h.reqs
  -- something can have expired only after a tick, which requests the scheduler
  have hqr : expired n g.dly = true → q.TaskSchedReq = true := by
    intro he
    have hn : 0 < n := by
      refine Nat.pos_of_ne_zero fun h0 => ?_
      rw [h0] at he
      cases hd : g.dly with
      | nil =>
        rw [hd] at he
        exact nomatch he
      | cons x l =>
        rw [hd] at he
        have h1 : x.2 ≤ 0 := of_decide_eq_true he
        have h2 := hst.ticks x (by rw [hd]; exact List.mem_cons_self)
        omega
    have hr := h.req
    rw [decide_eq_true hn, Bool.or_true] at hr
    exact hr
  have hcoh : Coh cfg.inner q (g.lowered (elapsed n g.dly)) := by
    have ht := h.tasks
    exact ⟨⟨ht.rep.tcb, ht.rep.evt, ht.rep.sorted, ht.rep.fits, ht.rep.dly, ht.rep.deltas,
      ht.rep.dlyLt,
      ht.rep.lt, ht.rep.evLt⟩, ht.task, ht.free, ht.run, ht.nest, ht.tmr, ht.stk, ht.spare⟩
  obtain ⟨q1, g1, T, e1, e2, e3, e4, e5, e6, e7, e8⟩ :=
    respondTime_spec hcoh hst.coh.rep.deltas.sorted hqt hqr
  have hkt : respondTime cfg.inner k = some (q1.withTmr k.tmr k.callBacks) := by
    change respondTime cfg.inner (q.withTmr k.tmr k.callBacks) = _
    rw [respondTime_withTmr, e1]
    rfl
  have hq1 : q1.reqs = ⟨expired n g.dly || expired n L, false, expired n L, 0, 1, 0⟩ := by
    have hq : q.reqs = k.reqs := rfl
    rw [e6, hq, h.reqs]
  have hl1 : q1.OSSchedLock = 1 := congrArg Reqs.lock hq1
  obtain ⟨m, log, L', f1, f2, f3, f4, f5, f6⟩ := @respondTimer_spec cfg.inner
    (q1.withTmr k.tmr k.callBacks) n L hcb (h.timers.env rfl) htm.ok.delta.cnts.sorted
    (congrArg Reqs.TimerReq hq1) hl1
  let q2 : Kernel := { q1 with TimerReq := false, IsrReq := false }
  have hr2 : q2.reqs = ⟨false, false, false, 0, 1, 0⟩ :=
    congrArg (fun v : Reqs => { v with TimerReq := false, IsrReq := false }) hq1
  have hplain : ∀ t ∈ T, g.tcb.loc t = some .dly := by
    intro t ht
    obtain ⟨x, hx, rfl, -⟩ := (e3 t).mp ht
    exact hst.coh.rep.mem_dly.mp (List.mem_map_of_mem hx)
  have hcpu : q1.cpu = ⟨k0.TCBRunning, k0.TCBNext, 1⟩ := e5.cpu.trans h.cpu
  have hstate : ∀ t, q1.state t = if t ∈ T then .READY else k0.state t := by
    intro t
    have hs := e5.state t
    rw [show q.state = k0.state from h.state] at hs
    exact hs
  have hidle : IdleOk q2 g1 := by
    have hne : (0 : Nat) ∉ T := by
      intro hm
      have hloc := hplain 0 hm
      rcases hst.idle with e | e
      · rw [hloc] at e
        exact nomatch e
      · rw [hloc] at e
        exact nomatch e.1
    refine hst.idle.keep ?_ ?_
    · rw [e5.loc 0, if_neg hne]
      rfl
    · exact (hstate 0).trans (if_neg hne)
  have hpend : Pending cfg.served q2 g1 r := by
    have hp := hst.enter
    have hc : Coh cfg.served q2 g1 := by
      have hc1 : Coh cfg.inner q2 g1 := e2.congr rfl
      exact ⟨⟨hc1.rep.tcb, hc1.rep.evt, hc1.rep.sorted, hc1.rep.fits, hc1.rep.dly, hc1.rep.deltas,
        hc1.rep.dlyLt, hc1.rep.lt, hc1.rep.evLt⟩, hc1.task, hc1.free, hc1.run, hc1.nest, hc1.tmr,
        hc1.stk, hc1.spare⟩
    refine ⟨hc, hp.lt, (congrArg Cpu.TCBRunning hcpu).trans hp.running,
      (congrArg Cpu.TCBNext hcpu).trans hp.next, ?_, ?_, ?_, hidle⟩
    · exact Nat.lt_of_lt_of_eq Nat.one_pos hl1.symm
    · rcases e8 with hT | hreq
      · -- nobody was released: the running task is still the most urgent one
        have hrdy := e5.rdy
        rw [hT] at hrdy
        have hprio : q1.prio = k0.prio := by
          have ha := congrArg Aside.prio e5.aside
          rw [hT] at ha
          exact ha.trans h.prio
        refine Or.inr ⟨?_, ?_⟩
        · refine (hstate r).trans ?_
          rw [hT, if_neg List.not_mem_nil]
          exact hst.picked.running
        · intro u hu
          rw [hrdy] at hu
          change q1.prio r ≤ q1.prio u
          rw [hprio]
          exact hst.picked.first u hu
      · exact Or.inl hreq
    · intro _ x hx
      exact ((e4 x.1 x.2).mp hx).1
  obtain ⟨k3, u1, u2, u3, u4, u5, u6, u7⟩ :=
    @armed_settle cfg q2 g1 L' m log r hpend hl1 hr2 (f2.env rfl) f3
  have hcalm : Calm (g.lowered (elapsed n g.dly)) g1 := e5.calm fun t ht => by
    rw [show (g.lowered (elapsed n g.dly)).tcb.loc t = some .dly from hplain t ht]
    exact plain_dly
  have hclock : q1.OSTickCnt = k0.OSTickCnt + n := e7.trans h.clock
  have hun : coSchedUnlock cfg.served k = some k3 := by
    have hi : k.IsrReq = (k.TimeReq || k.TimerReq) := by
      rw [show k.IsrReq = _ from congrArg Reqs.IsrReq h.reqs,
        show k.TimeReq = _ from congrArg Reqs.TimeReq h.reqs,
        show k.TimerReq = _ from congrArg Reqs.TimerReq h.reqs]
    unfold coSchedUnlock
    rw [unlock_responded hl hi hkt f1 (congrArg Reqs.cnt hq1) hl1]
    exact u1
  have hkind : SameKind k0.tmr m := h.kind.trans f4
  refine ⟨k3, g1.dly, L', hun, u2, u5.trans hclock, by rw [u3]; exact hkind, e4, fun t => ?_,
    fun t => ?_,
    fun t r => ?_, fun t => ?_⟩
  · rw [u6 t, ← e3 t]
    change q1.state t = .WAITING ↔ _
    rw [hstate t]
    split
    · next ht => exact ⟨(fun e => nomatch e), fun e => absurd ht e.2⟩
    · next ht => exact ⟨fun e => ⟨e, ht⟩, fun e => e.1⟩
  · exact (u7 t).trans ((hcalm.live t).trans (alive_iff hst.coh.rep t).symm)
  · rw [f5 t r, ← h.kind.periodic, ← h.kind.reload]
    exact Iff.rfl
  · rw [u4, f6 t, ← hclock]
    change firedAt t k.callBacks ++ _ = _
    rw [h.log]
    rfl

/-- **A locked section** in a state between two calls. -/
theorem Armed.locked (hcb : Silent cfg) (h : Armed cfg k D L) {ops : List LockOp}
    (hh : Held 1 ops) :
    ∃ k' D' L', lockedSection cfg.served ops k = some k' ∧ Armed cfg k' D' L' ∧
      Passed cfg (lockedTicks ops) (elapsed (lockedTicks ops) D) (elapsed (lockedTicks ops) L) k k'
      D D' L L' := by
  obtain ⟨⟨g, r, hst, rfl⟩, htm, hcl⟩ := h
  have hz : ∀ L : List (Nat × Nat), elapsed 0 L = 0 := by
    intro L
    cases L with
    | nil => rfl
    | cons x L => exact Nat.zero_min x.2
  have he : ∀ {L : List (Nat × Nat)}, (∀ x ∈ L, 1 ≤ x.2) → expired 0 L = false := by
    intro L hL
    cases L with
    | nil => rfl
    | cons x L =>
      have h1 := hL x List.mem_cons_self
      exact decide_eq_false (by omega)
  have h0 : HeldFor cfg k g L 0 1 (coSchedLock k) := by
    refine ⟨?_, ?_, ⟨rfl, rfl, rfl⟩, rfl, rfl, rfl, rfl, ?_, ?_, ?_⟩
    · have hg : g.lowered (elapsed 0 g.dly) = g := by
        unfold Ghost.lowered
        rw [hz, lower_zero]
      rw [hg]
      exact hst.coh.congr rfl
    · rw [hz, lower_zero]
      exact htm.ok
    · have hlk : k.OSSchedLock = 0 := hst.lock
      unfold Kernel.cpu coSchedLock osSchedLock
      rw [hlk]
    · rw [decide_eq_false (Nat.lt_irrefl 0), Bool.or_false]
      rfl
    · have hn : k.OSIntNesting = 0 := hst.coh.nest
      have hlk : k.OSSchedLock = 0 := hst.lock
      rw [he hst.ticks, he htm.pos]
      change (⟨k.IsrReq, k.TimeReq, k.TimerReq, k.ServiceReq.cnt, k.OSSchedLock + 1,
        k.OSIntNesting⟩ : Reqs) = _
      rw [show k.IsrReq = false from hcl.isr, show k.TimeReq = false from hcl.time,
        show k.TimerReq = false from hcl.timer, show k.ServiceReq.cnt = 0 from hcl.cnt, hlk, hn]
      rfl
  obtain ⟨k1, e1, h1⟩ := h0.run ops hh (Nat.le_refl 1)
  rw [Nat.zero_add] at h1
  obtain ⟨k2, D', L', e2, e3, e4⟩ := h1.release hcb hst htm
  refine ⟨takeSwitch k2, D', L', ?_, e3, e4⟩
  unfold lockedSection
  rw [e1, Option.bind_some, e2]
  rfl

end Release

end CoOS
