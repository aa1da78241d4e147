/-
  The counter of a timer: the ticks left while it is stopped, the difference to the timer before
  it while it is linked.

  `CoSetTmrCnt` writes the counter of a linked timer before it unlinks it, `CoGetCurTmrCnt`
  returns it and `CoStartTmr` starts from it, all without regard to the timers before.
-/
import CoOS.Timer.Undisturbed

namespace CoOS

open Function (update)
open DList KeyOrder

section Set

variable {cfg : Env} {s s' : Kernel} {l : List (Nat × Nat)} {a : Nat}

/-- **`CoSetTmrCnt` of a linked timer**: the timer has `c` ticks to go and the others keep theirs,
    if and only if it is the last of the list or `c` is the counter it had (and the insertion
    compares right). `l` are the timers with their ticks to go. -/
theorem setTmrCnt_own_timer (hq : NoneDeferred s) (hl : Counted s.tmr.delta l)
    (hlt : ∀ x ∈ l, x.2 < 2 ^ 32)
    (hmax : ∀ t ∈ l.map Prod.fst, t < cfg.maxTmr) (ha : a ∈ l.map Prod.fst)
    (hrun : s.tmr.tmrRunning a = true) (hid : s.tmr.TmrIDVessel a = true) {c r : Nat}
    (hc : 1 ≤ c ∧ c < 2 ^ 31)
    {st : StatusType} (h : coSetTmrCnt cfg s a c r = some (s', st)) :
    ∃ l', Counted s'.tmr.delta l' ∧
      ((a, c) ∈ l' ∧ l'.filter (·.1 ≠ a) = l.filter (·.1 ≠ a) ↔
        (s.tmr.tmrNext a = none ∨ c = s.tmr.tmrCnt a) ∧ Near c (l.filter (·.1 ≠ a))) := by
  obtain ⟨x, hx, rfl⟩ := List.mem_map.mp ha
  obtain ⟨l1, l2, rfl⟩ := List.append_of_mem hx
  have hl' : IsDList s.tmr.delta.toLinks (l1.map Prod.fst ++ x.1 :: l2.map Prod.fst) := by
    simpa using hl.links
  have hlen : (l1 ++ x :: l2).length ≤ cfg.maxTmr := by
    have hle := length_le_of_lt hl.links.nodup hmax
    rwa [List.length_map] at hle
  have hothers : (l1 ++ x :: l2).filter (·.1 ≠ x.1) = l1 ++ l2 := by
    have h1 : x.1 ∉ l1.map Prod.fst := nodup_split_left hl'.nodup
    have h2 : x.1 ∉ l2.map Prod.fst := nodup_split_right hl'.nodup
    rw [List.filter_append, List.filter_cons_of_neg (by simp), filter_ne_self h1, filter_ne_self h2]
  have hnext : s.tmr.tmrNext x.1 = none ↔ l2 = [] := by
    have e : s.tmr.tmrNext x.1 = (l2.map Prod.fst).head? := hl'.next_split
    rw [e, List.head?_eq_none_iff, List.map_eq_nil_iff]
  obtain ⟨D, l', h1, h2, h3⟩ := reinsert_wrap (t := x.1) (r := x.2) hl
    (fun y hy => hlt y (by simp [hy])) hc.2 hlen
  refine ⟨l', ?_, ?_⟩
  · -- the code unlinks and inserts with these counters
    have hb : ¬ badTmr cfg s x.1 := not_or.mpr ⟨Nat.not_le.mpr (hmax x.1 ha), fun e => by
      rw [hid] at e
      exact Bool.false_ne_true e.symm⟩
    let m1 : Tmr := { s.tmr with
      tmrCnt := update s.tmr.tmrCnt x.1 c, tmrReload := update s.tmr.tmrReload x.1 r }
    unfold coSetTmrCnt at h
    rw [if_neg hb] at h
    dsimp only at h
    rw [if_pos hrun] at h
    obtain ⟨s1, h4, h⟩ := Option.bind_eq_some_iff.mp h
    obtain ⟨s2, h5, h⟩ := Option.bind_eq_some_iff.mp h
    obtain rfl : s2 = s' := congrArg Prod.fst (Option.some.inj h)
    have hv := removeTmrList_view (s := { s with tmr := m1 }) hq h4
    have e1 : s1.tmr = m1.setDelta (m1.delta.remove x.1) := congrArg TmrView.tmr hv
    have hcnt : s1.tmr.tmrCnt x.1 = c := by
      obtain ⟨_, _, h6⟩ := setCnt_wrap (t := x.1) (r := x.2) hl (hc.2.trans (by decide))
      rw [e1]
      exact (remove_cnt_self h6.links).trans (Function.update_self ..)
    obtain ⟨D', hD, hv'⟩ := insertTmrList_view (hq.view hv) h5 (by rw [hcnt]; omega)
    rw [hcnt, e1] at hD
    obtain rfl : D = D' := Option.some.inj (h1.symm.trans hD)
    have e2 : s2.tmr = s1.tmr.setDelta D := congrArg TmrView.tmr hv'
    rw [e2]
    exact h2
  · rw [hothers, hnext]
    exact h3

end Set

/-- Timer 1 with 3 ticks to go stands before timer 0 with 5. -/
theorem linked_pair {P : Kernel → Prop} [DecidablePred P]
    (h : ((coCreateTmr shippedEnv Kernel.zero 0 5 0 7).bind fun a =>
      (coStartTmr shippedEnv a.1 0).bind fun b =>
      (coCreateTmr shippedEnv b.1 0 3 0 7).bind fun d => (coStartTmr shippedEnv d.1 1).map fun e =>
        decide (e.1.tmr.delta.read shippedEnv.maxTmr = [(1, 3), (0, 5)] ∧ P e.1)) = some true) :
    ∃ s, s.IsrReq = false ∧ TmrLinked shippedEnv s.tmr [(1, 3), (0, 5)] ∧ P s := by
  obtain ⟨s, hs, h1, h2⟩ :=
    two_timers (P := fun s => s.tmr.delta.read shippedEnv.maxTmr = [(1, 3), (0, 5)] ∧ P s)
    (by decide) h
  obtain ⟨hi, l, hl⟩ := hs.linked (fun _ s => ⟨s, rfl, rfl⟩)
  have hread := hl.counted.read_eq hl.length_le
  rw [h1] at hread
  rw [← hread] at hl
  exact ⟨s, hi, hl, h2⟩

theorem setTmrCnt_own_timer_shipped : ∃ s s' st l', TmrLinked shippedEnv s.tmr [(1, 3), (0, 5)] ∧
    coSetTmrCnt shippedEnv s 0 9 0 = some (s', st) ∧ Counted s'.tmr.delta l' ∧ (0, 9) ∈ l' ∧
    l'.filter (·.1 ≠ 0) = [(1, 3)] := by
  obtain ⟨s, hi, hl, h1, h2⟩ :=
    linked_pair (P := fun s => (coSetTmrCnt shippedEnv s 0 9 0).isSome = true ∧
    s.tmr.tmrNext 0 = none) (by decide +kernel)
  obtain ⟨⟨s', st⟩, h3⟩ := Option.isSome_iff_exists.mp h1
  obtain ⟨l', h4, h5⟩ := setTmrCnt_own_timer (fun _ => hi) hl.counted (by decide) hl.lt (by decide)
    (hl.run 0 (by decide)).1 (hl.run 0 (by decide)).2 (by decide) h3
  obtain ⟨h6, h7⟩ := h5.mpr ⟨Or.inl h2, by decide⟩
  exact ⟨s, s', st, l', hl, h3, h4, h6, h7⟩

/-- Timer 1, with timer 0 behind it, is set from 3 to 5: timer 0 goes from 5 to 7 ticks. -/
theorem setTmrCnt_shifts_successor : ∃ s s' st, TmrLinked shippedEnv s.tmr [(1, 3), (0, 5)] ∧
    s.tmr.tmrRunning 1 = true ∧ coSetTmrCnt shippedEnv s 1 5 0 = some (s', st) ∧
    s'.tmr.delta.read shippedEnv.maxTmr = [(1, 5), (0, 7)] := by
  obtain ⟨s, -, hl, h1⟩ := linked_pair (P := fun s => (coSetTmrCnt shippedEnv s 1 5 0).map
    (fun x => x.1.tmr.delta.read shippedEnv.maxTmr) = some [(1, 5), (0, 7)]) (by decide +kernel)
  obtain ⟨⟨s', st⟩, h2, h3⟩ := Option.map_eq_some_iff.mp h1
  exact ⟨s, s', st, hl, (hl.run 1 (by decide)).1, h2, h3⟩

/-! ## The time left -/

/-- `n` ticks, and nothing else. -/
def ticks (cfg : Env) : Nat → Kernel → Option Kernel
  | 0, s => some s
  | n + 1, s => (sysTick_Handler cfg s).bind (ticks cfg n)

section Left

variable {cfg : Env} {s s' : Kernel} {l : List (Nat × Nat)} {a r : Nat}

theorem ticks_log (hcb : CallBacksOk cfg) (n : Nat) : ∀ {s : Kernel} {l : List (Nat × Nat)},
    TmrLinked cfg s.tmr l → s.IsrReq = false →
    s.OSSchedLock = 0 → (∀ x ∈ l, 0 < x.2 ∧ x.2 < 2 ^ 31) →
      ticks cfg n s = some s' → ∃ more, firedAt a s'.callBacks = firedAt a s.callBacks ++ more := by
  induction n with
  | zero =>
    intro s l _ _ _ _ h
    rw [← Option.some.inj h]
    exact ⟨[], (List.append_nil _).symm⟩
  | succ n ih =>
    intro s l hl hi hlock hpos h
    obtain ⟨s1, h1, h2⟩ := Option.bind_eq_some_iff.mp h
    obtain ⟨l1, e1, -, e3, e4, e5⟩ := sysTick_Handler_linked hcb hl hi hlock h1
    obtain ⟨e6, -, e7⟩ := e5 hpos
    obtain ⟨more, hm⟩ := ih e1 e3 e4 e6 h2
    exact ⟨_, by rw [hm, e7 a, List.append_assoc]⟩

/-- A timer with `r` ticks to go fires at the `r`-th tick. -/
theorem fires_after (hcb : CallBacksOk cfg) (n : Nat) :
    ∀ {s : Kernel} {l : List (Nat × Nat)} {r : Nat},
    TmrLinked cfg s.tmr l → s.IsrReq = false →
    s.OSSchedLock = 0 → (∀ x ∈ l, 0 < x.2 ∧ x.2 < 2 ^ 31) →
      (a, r) ∈ l → ticks cfg n s = some s' →
      (firedAt a s'.callBacks = firedAt a s.callBacks ↔ n < r) := by
  induction n with
  | zero =>
    intro s l r _ _ _ hpos ha h
    rw [← Option.some.inj h]
    exact iff_of_true rfl (hpos _ ha).1
  | succ n ih =>
    intro s l r hl hi hlock hpos ha h
    obtain ⟨s1, h1, h2⟩ := Option.bind_eq_some_iff.mp h
    obtain ⟨l1, e1, -, e3, e4, e5⟩ := sysTick_Handler_linked hcb hl hi hlock h1
    obtain ⟨e6, e7, e8⟩ := e5 hpos
    have hr := (hpos _ ha).1
    by_cases hr1 : r = 1
    · -- the timer fires at this tick, and what is logged stays
      subst hr1
      obtain ⟨more, hm⟩ := ticks_log (a := a) hcb n e1 e3 e4 e6 h2
      rw [hm, e8 a, if_pos ha, List.append_assoc]
      refine iff_of_false (fun e => ?_) (by omega)
      exact absurd (List.append_right_eq_self.mp e) (List.cons_ne_nil _ _)
    · have hno : (a, 1) ∉ l := fun hm => by
        have e := List.inj_on_of_nodup_map hl.counted.links.nodup ha hm rfl
        exact hr1 (Prod.mk.inj e).2
      have hiff := ih e1 e3 e4 e6 (e7 a r (by omega) ha) h2
      rw [e8 a, if_neg hno, List.append_nil] at hiff
      rw [hiff]
      omega

/-- The counter of a linked timer is its time left when no timer stands before it. -/
theorem cnt_eq_iff_head (hl : TmrLinked cfg s.tmr l) (hpos : ∀ x ∈ l, 0 < x.2 ∧ x.2 < 2 ^ 31)
    (ha : (a, r) ∈ l) :
    s.tmr.tmrCnt a = r ↔ s.tmr.TmrList = some a := by
  obtain ⟨l1, l2, rfl⟩ := List.append_of_mem ha
  obtain ⟨-, hr, hc, -⟩ := deltas_append.mp hl.counted.cnts
  have hc' : s.tmr.tmrCnt a = r - lastRem 0 l1 := hc
  have hh : s.tmr.TmrList = ((l1 ++ (a, r) :: l2).map Prod.fst).head? := hl.counted.links.head
  have hnd : (l1.map Prod.fst ++ a :: l2.map Prod.fst).Nodup := by
    simpa using hl.counted.links.nodup
  rcases List.eq_nil_or_concat l1 with rfl | ⟨k, x, rfl⟩
  · exact iff_of_true hc' hh
  · rw [List.concat_eq_append, lastRem_concat] at hc'
    have hx := (hpos x (by simp)).1
    have hr0 := (hpos (a, r) ha).1
    refine iff_of_false (by omega) fun e => ?_
    rw [e] at hh
    refine nodup_split_left hnd ?_
    cases k with
    | nil => exact List.mem_map.mpr ⟨x, by simp, (Option.some.inj hh).symm⟩
    | cons y k => exact List.mem_map.mpr ⟨y, by simp, (Option.some.inj hh).symm⟩

/-- **The reported count is the time left, and a stop followed by a start keeps it, exactly when
    the timer is the first of the list.** `r` is the number of ticks until `a` fires. -/
theorem tmrCnt_time_left (hcb : CallBacksOk cfg) (hi : s.IsrReq = false) (hlock : s.OSSchedLock = 0)
    (hl : TmrLinked cfg s.tmr l) (hpos : ∀ x ∈ l, 0 < x.2 ∧ x.2 < 2 ^ 31) (ha : (a, r) ∈ l) :
    (∀ n s', ticks cfg n s = some s' → (firedAt a s'.callBacks = firedAt a s.callBacks ↔ n < r)) ∧
    (coGetCurTmrCnt cfg s a = (r, .E_OK) ↔ s.tmr.TmrList = some a) ∧
    ∀ s1 s2 st st', coStopTmr cfg s a = some (s1, st) → coStartTmr cfg s1 a = some (s2, st') →
      ((a, r) ∈ s2.tmr.delta.read cfg.maxTmr ↔ s.tmr.TmrList = some a) := by
  have hq : NoneDeferred s := fun _ => hi
  have hmem : a ∈ l.map Prod.fst := List.mem_map_of_mem ha
  have hrun := hl.run a hmem
  have hb : ¬ badTmr cfg s a := not_or.mpr ⟨Nat.not_le.mpr (hl.lt a hmem), fun e => by
    rw [hrun.2] at e
    exact nomatch e⟩
  have hhead := cnt_eq_iff_head hl hpos ha
  refine ⟨fun n s' h => fires_after hcb n hl hi hlock hpos ha h, ?_, fun s1 s2 st st' h1 h2 => ?_⟩
  · unfold coGetCurTmrCnt
    rw [if_neg hb, ← hhead, Prod.mk.injEq, and_iff_left rfl]
  · -- the stopped timer keeps its counter, and is started with it
    unfold coStopTmr at h1
    rw [if_neg hb, if_neg (not_not.mpr hrun.1)] at h1
    obtain ⟨s3, h3, h4⟩ := Option.bind_eq_some_iff.mp h1
    obtain rfl : stopTmr s3 a = s1 := congrArg Prod.fst (Option.some.inj h4)
    obtain ⟨l', h5, h6, h7, h8, h9⟩ := removeTmrList_keeps hq hl hmem h3
    have hc : s.tmr.tmrCnt a < 2 ^ 31 := (hl.counted.cnts.cnt_le _ ha).trans_lt (hpos _ ha).2
    have hcarry : NoCarry s.tmr a := fun n hn => by
      have hn' : nextIn (l.map Prod.fst) a = some n := (hl.counted.links.next a hmem).symm.trans hn
      obtain ⟨x, hx, rfl⟩ := List.mem_map.mp (nextIn_mem hn')
      have hcx : s.tmr.tmrCnt x.1 ≤ x.2 := hl.counted.cnts.cnt_le x hx
      have hx2 := (hpos x hx).2
      omega
    have h10 : TmrLinked cfg (stopTmr s3 a).tmr l' :=
      h5.outside h6 rfl (fun b hb => ⟨rfl, rfl, rfl, Function.update_of_ne hb .., rfl⟩)
        (h5.off a h6)
        (h5.word a) h5.reload
    have hq1 : NoneDeferred (stopTmr s3 a) := hq.view (written_view h9 _)
    obtain ⟨l'', h11, h12, -⟩ := coStartTmr_keeps hq1 h10 h2
    have hcnt : (stopTmr s3 a).tmr.tmrCnt a = s.tmr.tmrCnt a := h7
    have hnear : Near ((stopTmr s3 a).tmr.tmrCnt a) l' := by
      rw [hcnt]
      exact near_of_lt hc fun x hx => (hpos x ((h8 hcarry x).mp hx).2).2
    rw [h11.counted.read_eq h11.length_le, h12 hnear, ← hhead, hcnt]
    constructor
    · rintro (⟨e, -⟩ | hm)
      · exact (Prod.mk.inj e).2.symm
      · exact absurd (List.mem_map_of_mem hm) h6
    · intro e
      refine Or.inl ⟨by rw [e], ?_, fun hb1 => hb ?_, Function.update_self ..⟩
      · have hr := (hpos _ ha).1
        omega
      · have e1 : (stopTmr s3 a).tmr.TmrIDVessel = s.tmr.TmrIDVessel :=
          congrArg (fun v => v.tmr.TmrIDVessel) h9
        unfold badTmr at hb1 ⊢
        rwa [e1] at hb1

end Left

/-- Timer 1 is the first of the list: its count is its time left. -/
theorem tmrCnt_time_left_shipped : ∃ s, TmrLinked shippedEnv s.tmr [(1, 3), (0, 5)] ∧
    coGetCurTmrCnt shippedEnv s 1 = (3, .E_OK) ∧
    (∀ n s', ticks shippedEnv n s = some s' →
      (firedAt 1 s'.callBacks = firedAt 1 s.callBacks ↔ n < 3)) ∧
    ∀ s1 s2 st st', coStopTmr shippedEnv s 1 = some (s1, st) →
    coStartTmr shippedEnv s1 1 = some (s2, st') →
      (1, 3) ∈ s2.tmr.delta.read shippedEnv.maxTmr := by
  obtain ⟨s, hi, hl, h1, h2⟩ :=
    linked_pair (P := fun s => s.OSSchedLock = 0 ∧ s.tmr.TmrList = some 1)
    (by decide +kernel)
  obtain ⟨h3, h4, h5⟩ :=
    tmrCnt_time_left (a := 1) (r := 3) (fun _ s => ⟨s, rfl, rfl⟩) hi h1 hl (by decide)
    (by decide)
  exact ⟨s, hl, h4.mpr h2, h3, fun s1 s2 st st' e1 e2 => (h5 s1 s2 st st' e1 e2).mpr h2⟩

/-- Timer 0 has 5 ticks to go and stands behind timer 1: its count reads 2, and a stop and a start
    make it expire after 2. -/
theorem tmrCnt_behind_another : ∃ s, TmrLinked shippedEnv s.tmr [(1, 3), (0, 5)] ∧
    coGetCurTmrCnt shippedEnv s 0 = (2, .E_OK) ∧
    ∃ s1 s2 st st', coStopTmr shippedEnv s 0 = some (s1, st) ∧
    coStartTmr shippedEnv s1 0 = some (s2, st') ∧
      s2.tmr.delta.read shippedEnv.maxTmr = [(0, 2), (1, 3)] := by
  obtain ⟨s, -, hl, h1, h2⟩ :=
    linked_pair (P := fun s => coGetCurTmrCnt shippedEnv s 0 = (2, .E_OK) ∧
    ((coStopTmr shippedEnv s 0).bind fun x => (coStartTmr shippedEnv x.1 0).map fun y =>
      y.1.tmr.delta.read shippedEnv.maxTmr) = some [(0, 2), (1, 3)]) (by decide +kernel)
  obtain ⟨⟨s1, st⟩, h3, h4⟩ := Option.bind_eq_some_iff.mp h2
  obtain ⟨⟨s2, st'⟩, h5, h6⟩ := Option.map_eq_some_iff.mp h4
  exact ⟨s, hl, h1, s1, s2, st, st', h3, h5, h6⟩

end CoOS
