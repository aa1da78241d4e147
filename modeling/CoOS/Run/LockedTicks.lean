/-
  The ticks that come while the scheduler is locked, and those after it: none is lost if and only
  if the locked section satisfies `InTime` for both lists (`locked_ticks`).
-/
import CoOS.Run.Release

namespace CoOS

open Function (update)
open DList KeyOrder

/-! ## After the lock -/

/-- READY, or already running. -/
def Kernel.up (k : Kernel) (t : Nat) : Prop := k.state t = .READY ∨ k.state t = .RUNNING

/-- The tick at which the timer `t` fired first between `k` and `k'`. -/
def firstSince (k k' : Kernel) (t : Nat) : Option Nat :=
  ((firedAt t k'.callBacks).drop (firedAt t k.callBacks).length).head?

theorem firstSince_append {k k' : Kernel} {t : Nat} {rest : List Nat}
    (h : firedAt t k'.callBacks = firedAt t k.callBacks ++ rest) :
    firstSince k k' t = rest.head? := by
  unfold firstSince
  rw [h, List.drop_left]

/-- Every delayed task is released, and every timer that is still pending when the scheduler is
    unlocked fires first, in the tick in which its time is up; a task whose time is up before the
    unlock is released there. -/
def LosesNoTick (cfg : Env) (ops : List LockOp) (k : Kernel) (D L : List (Nat × Nat)) : Prop :=
  ∃ k1, lockedSection cfg.served ops k = some k1 ∧ ∀ j, ∃ k2, freeTicks cfg.served j k1 = some k2 ∧
    (∀ x ∈ D, k2.up x.1 ↔ x.2 ≤ lockedTicks ops + j) ∧
    ∀ x ∈ L, firstSince k k1 x.1 = none →
      firstSince k k2 x.1 = if x.2 ≤ lockedTicks ops + j then some (k.OSTickCnt + x.2) else none

/-- The lock of `n` ticks ends by the first expiry, or nothing expires later than the first. -/
def InTime (n : Nat) (L : List (Nat × Nat)) : Prop := ∀ x ∈ L, ∀ y ∈ L, x.2 < y.2 → n ≤ x.2

instance (n : Nat) (L : List (Nat × Nat)) : Decidable (InTime n L) :=
  inferInstanceAs (Decidable (∀ x ∈ L, ∀ y ∈ L, x.2 < y.2 → n ≤ x.2))

section After

variable {cfg : Env} {k k' : Kernel} {D D' L L' : List (Nat × Nat)} {n e f j t : Nat}
    {ops : List LockOp}

theorem Armed.pos (h : Armed cfg k D L) : (∀ x ∈ D, 1 ≤ x.2) ∧ ∀ x ∈ L, 1 ≤ x.2 := by
  obtain ⟨⟨g, r, hst, rfl⟩, htm, -⟩ := h
  exact ⟨hst.ticks, htm.pos⟩

theorem Armed.sorted (h : Armed cfg k D L) : SortedKey Prod.snd D ∧ SortedKey Prod.snd L := by
  obtain ⟨⟨g, r, hst, rfl⟩, htm, -⟩ := h
  exact ⟨hst.coh.rep.deltas.sorted, htm.ok.delta.cnts.sorted⟩

/-- A task that exists waits or is up. -/
theorem Armed.up_iff (h : Armed cfg k D L) (ha : k.alive cfg t) :
    k.up t ↔ k.state t ≠ .WAITING := by
  obtain ⟨⟨g, r, hst, rfl⟩, -, -⟩ := h
  have hlive : Live cfg.served g t := (alive_iff hst.coh.rep t).mp ha
  have hok := hst.coh.task t hlive
  have hs : (k.withTmr Tmr.zero []).state t = k.state t := rfl
  constructor
  · rintro (e | e)
    · rw [e]
      exact fun e => nomatch e
    · rw [e]
      exact fun e => nomatch e
  · intro hw
    cases hloc : g.tcb.loc t with
    | none => exact Or.inr ((hok.off hloc).resolve_left hw).1
    | some kd =>
      cases kd with
      | rdy => exact Or.inl (hok.rdy hloc).1
      | dly => exact absurd (hok.dly hloc) hw
      | free => exact absurd hloc hlive.2
      | mtx m => exact absurd (hok.mtx m hloc).1 hw

/-- The tasks of the delay list exist and wait. -/
theorem Armed.delayed (h : Armed cfg k D L) {x : Nat × Nat} (hx : x ∈ D) :
    k.alive cfg x.1 ∧ k.state x.1 = .WAITING := by
  obtain ⟨⟨g, r, hst, rfl⟩, -, -⟩ := h
  have hloc : g.tcb.loc x.1 = some .dly := hst.coh.rep.mem_dly.mp (List.mem_map_of_mem hx)
  have hlive : Live cfg.served g x.1 :=
    ⟨hst.coh.rep.lt x.1 .dly hloc, by rw [hloc]; exact fun e => nomatch e⟩
  exact ⟨(alive_iff hst.coh.rep x.1).mpr hlive, (hst.coh.task x.1 hlive).dly hloc⟩

/-- The time to go of a timer is unique. -/
theorem Armed.unique (h : Armed cfg k D L) {c d : Nat} (hc : (t, c) ∈ L) (hd : (t, d) ∈ L) :
    c = d :=
  unique_rem h.timers hc hd

/-- What `j` ticks with the scheduler unlocked do. -/
structure Ticked (cfg : Env) (j : Nat) (k k' : Kernel) (D L : List (Nat × Nat)) : Prop where
  alive : ∀ t, k'.alive cfg t ↔ k.alive cfg t
  stays : ∀ t, k.state t ≠ .WAITING → k'.state t ≠ .WAITING
  waits : ∀ t d, (t, d) ∈ D → (k'.state t = .WAITING ↔ j < d)
  more : ∀ t, ∃ rest, firedAt t k'.callBacks = firedAt t k.callBacks ++ rest
  fired : ∀ t c, (t, c) ∈ L → ∃ rest, firedAt t k'.callBacks = firedAt t k.callBacks ++ rest ∧
    rest.head? = if c ≤ j then some (k.OSTickCnt + c) else none

theorem Armed.ticks (hcb : Silent cfg) (j : Nat) : ∀ {k : Kernel} {D L : List (Nat × Nat)},
    Armed cfg k D L → ∃ k' D' L', freeTicks cfg.served j k = some k' ∧ Armed cfg k' D' L' ∧
      Ticked cfg j k k' D L := by
  induction j with
  | zero =>
    intro k D L h
    obtain ⟨hD, hL⟩ := h.pos
    refine ⟨k, D, L, rfl, h, fun t => Iff.rfl, fun t ht => ht, fun t d hd => ?_, fun t => ⟨[], ?_⟩,
      fun t c hc => ⟨[], ?_, ?_⟩⟩
    · exact ⟨fun _ => hD _ hd, fun _ => (h.delayed hd).2⟩
    · rw [List.append_nil]
    · rw [List.append_nil]
    · have h1 : 1 ≤ c := hL _ hc
      rw [if_neg (by omega)]
      rfl
  | succ j ih =>
    intro k D L h
    obtain ⟨hD, hL⟩ := h.pos
    obtain ⟨k1, D1, L1, e1, h1, hp⟩ := h.tick hcb
    obtain ⟨k2, D2, L2, e2, h2, ht⟩ := ih h1
    refine ⟨k2, D2, L2, ?_, h2, fun t => (ht.alive t).trans (hp.alive t), fun t hw => ?_,
      fun t d hd => ?_,
      fun t => ?_, fun t c hc => ?_⟩
    · unfold freeTicks
      rw [e1]
      exact e2
    · exact ht.stays t fun e => hw ((hp.waits t).mp e).1
    · have hd1 : 1 ≤ d := hD _ hd
      rcases Nat.eq_or_lt_of_le hd1 with rfl | hlt
      · -- the delay ends with the first tick
        have hup : k1.state t ≠ .WAITING := fun e =>
          ((hp.waits t).mp e).2 ⟨_, hd, rfl, Nat.le_refl 1⟩
        exact ⟨fun e => absurd e (ht.stays t hup), fun e => by omega⟩
      · have hm : (t, d - 1) ∈ D1 := (hp.dly t (d - 1)).mpr ⟨by omega, by
          rw [Nat.sub_add_cancel hd1]
          exact hd⟩
        rw [ht.waits t (d - 1) hm]
        omega
    · obtain ⟨rest, hr⟩ := ht.more t
      refine ⟨(if DueBy L 1 t then [k.OSTickCnt + 1] else []) ++ rest, ?_⟩
      rw [hr, hp.fired t, List.append_assoc]
    · have hc1 : 1 ≤ c := hL _ hc
      rcases Nat.eq_or_lt_of_le hc1 with rfl | hlt
      · obtain ⟨rest, hr⟩ := ht.more t
        refine ⟨(k.OSTickCnt + 1) :: rest, ?_, ?_⟩
        · rw [hr, hp.fired t, if_pos ⟨_, hc, rfl, Nat.le_refl 1⟩, List.append_assoc]
          rfl
        · rw [if_pos (by omega)]
          rfl
      · have hno : ¬ DueBy L 1 t := fun e => by
          have := h.unique hc ((dueBy_one hL t).mp e)
          omega
        have hm : (t, c - 1) ∈ L1 := (hp.tmr t (c - 1)).mpr (Or.inl ⟨by omega, by
          rw [Nat.sub_add_cancel hc1]
          exact hc⟩)
        obtain ⟨rest, hr, hh⟩ := ht.fired t (c - 1) hm
        refine ⟨rest, ?_, ?_⟩
        · rw [hr, hp.fired t, if_neg hno, List.append_nil]
        · have hcl : k1.OSTickCnt + (c - 1) = k.OSTickCnt + c := by
            rw [hp.clock]
            omega
          rw [hh, hcl]
          exact if_congr (by omega) rfl rfl

/-- A list loses no tick when `n` locked ticks lower every item that stays by `n`. -/
theorem inTime_iff (hs : SortedKey Prod.snd L) :
    InTime n L ↔ ∀ x ∈ L, elapsed n L < x.2 → elapsed n L = n := by
  cases L with
  | nil =>
    exact ⟨fun _ x hx => absurd hx List.not_mem_nil, fun _ x hx => absurd hx List.not_mem_nil⟩
  | cons z L =>
    have hle : ∀ x ∈ z :: L, z.2 ≤ x.2 := by
      intro x hx
      rcases List.mem_cons.mp hx with rfl | hx
      · exact Nat.le_refl _
      · exact (List.pairwise_cons.mp hs).1 x hx
    rw [elapsed_cons]
    constructor
    · intro h x hx hlt
      rcases Nat.lt_or_ge z.2 x.2 with hz | hz
      · have := h z List.mem_cons_self x hx hz
        omega
      · have := hle x hx
        omega
    · intro h x hx y hy hxy
      have h1 := hle x hx
      have h2 := h y hy (by omega)
      omega

/-- The delayed tasks after a locked section and `j` more ticks. -/
theorem Armed.locked_task (h : Armed cfg k D L) (hp : Passed cfg n (elapsed n D) f k k' D D' L L')
    (ht : Ticked cfg j k' k2 D' L') {x : Nat × Nat} (hx : x ∈ D) :
    k2.state x.1 = .WAITING ↔ elapsed n D + j < x.2 := by
  obtain ⟨-, hw⟩ := h.delayed hx
  have hmin : elapsed n D ≤ x.2 := by
    cases D with
    | nil => exact absurd hx List.not_mem_nil
    | cons z D =>
      have hz : z.2 ≤ x.2 := by
        rcases List.mem_cons.mp hx with rfl | hx
        · exact Nat.le_refl _
        · exact (List.pairwise_cons.mp h.sorted.1).1 x hx
      rw [elapsed_cons]
      omega
  rcases Nat.eq_or_lt_of_le hmin with he | hlt
  · have hup : k'.state x.1 ≠ .WAITING := fun e =>
      ((hp.waits x.1).mp e).2 ⟨x, hx, rfl, Nat.le_of_eq he.symm⟩
    exact ⟨fun e => absurd e (ht.stays x.1 hup), fun e => by omega⟩
  · have hm : (x.1, x.2 - elapsed n D) ∈ D' := (hp.dly x.1 _).mpr ⟨by omega, by
      rw [Nat.sub_add_cancel hmin]
      exact hx⟩
    rw [ht.waits x.1 _ hm]
    omega

/-- The timers that did not fire at the unlock, after `j` more ticks. -/
theorem Armed.locked_timer (h : Armed cfg k D L) (hp : Passed cfg n e (elapsed n L) k k' D D' L L')
    (ht : Ticked cfg j k' k2 D' L') {x : Nat × Nat} (hx : x ∈ L) :
    (firstSince k k' x.1 = none ↔ elapsed n L < x.2) ∧
      (elapsed n L < x.2 → firstSince k k2 x.1 =
        if x.2 ≤ elapsed n L + j then some (k.OSTickCnt + n + (x.2 - elapsed n L)) else none) := by
  have hdue : DueBy L (elapsed n L) x.1 ↔ x.2 ≤ elapsed n L := by
    constructor
    · rintro ⟨y, hy, hxy, hle⟩
      have hy' : (x.1, y.2) ∈ L := by
        rw [← hxy]
        exact hy
      rw [h.unique hx hy']
      exact hle
    · exact fun hle => ⟨x, hx, rfl, hle⟩
  have hf := hp.fired x.1
  constructor
  · rw [firstSince_append hf]
    by_cases hd : DueBy L (elapsed n L) x.1
    · rw [if_pos hd]
      exact ⟨(fun e => nomatch e), fun e => absurd (hdue.mp hd) (by omega)⟩
    · rw [if_neg hd]
      exact ⟨fun _ => Nat.lt_of_not_le fun e => hd (hdue.mpr e), fun _ => rfl⟩
  · intro hlt
    have hd : ¬ DueBy L (elapsed n L) x.1 := fun e => absurd (hdue.mp e) (by omega)
    have hm : (x.1, x.2 - elapsed n L) ∈ L' := (hp.tmr x.1 _).mpr (Or.inl ⟨by omega, by
      rw [Nat.sub_add_cancel (Nat.le_of_lt hlt)]
      exact hx⟩)
    obtain ⟨rest, hr, hh⟩ := ht.fired x.1 _ hm
    rw [if_neg hd, List.append_nil] at hf
    rw [hf] at hr
    rw [firstSince_append hr, hh, hp.clock]
    exact if_congr (by omega) rfl rfl

/-- **When locking the scheduler loses no tick**, for every locked section in a state between two
    calls and all lists of delayed tasks and running timers. -/
theorem locked_ticks (hcb : Silent cfg) (h : Armed cfg k D L) (hh : Held 1 ops) :
    LosesNoTick cfg ops k D L ↔ InTime (lockedTicks ops) D ∧ InTime (lockedTicks ops) L := by
  obtain ⟨k1, D1, L1, e1, h1, hp⟩ := h.locked hcb hh
  unfold LosesNoTick
  generalize lockedTicks ops = n at hp ⊢
  have hup : ∀ {j : Nat} {k2 : Kernel} {D2 L2 : List (Nat × Nat)}, Armed cfg k2 D2 L2 →
      Ticked cfg j k1 k2 D1 L1 → ∀ x ∈ D, k2.up x.1 ↔ x.2 ≤ elapsed n D + j := by
    intro j k2 D2 L2 h2 ht x hx
    have ha : k2.alive cfg x.1 := (ht.alive x.1).mpr ((hp.alive x.1).mpr (h.delayed hx).1)
    rw [h2.up_iff ha, Ne, h.locked_task hp ht hx]
    exact Nat.not_lt
  rw [inTime_iff h.sorted.1, inTime_iff h.sorted.2]
  constructor
  · rintro ⟨k1', e1', hall⟩
    obtain rfl : k1 = k1' := Option.some.inj (e1.symm.trans e1')
    have hle : ∀ L : List (Nat × Nat), elapsed n L ≤ n := by
      intro L
      cases L with
      | nil => exact Nat.zero_le n
      | cons z L => exact Nat.min_le_left n z.2
    constructor
    · intro x hx hlt
      -- one tick before its time the task is still waiting
      obtain ⟨k2, D2, L2, e2, h2, ht⟩ := h1.ticks hcb (x.2 - elapsed n D - 1)
      obtain ⟨k2', e2', hD, -⟩ := hall (x.2 - elapsed n D - 1)
      obtain rfl : k2 = k2' := Option.some.inj (e2.symm.trans e2')
      have h3 := (hup h2 ht x hx).symm.trans (hD x hx)
      have := hle D
      omega
    · intro x hx hlt
      obtain ⟨k2, D2, L2, e2, h2, ht⟩ := h1.ticks hcb (x.2 - elapsed n L)
      obtain ⟨k2', e2', -, hL⟩ := hall (x.2 - elapsed n L)
      obtain rfl : k2 = k2' := Option.some.inj (e2.symm.trans e2')
      obtain ⟨hnone, hfirst⟩ := h.locked_timer hp ht hx
      have h3 := (hfirst hlt).symm.trans (hL x hx (hnone.mpr hlt))
      have := hle L
      rw [if_pos (by omega), if_pos (by omega)] at h3
      have h4 : k.OSTickCnt + n + (x.2 - elapsed n L) = k.OSTickCnt + x.2 := Option.some.inj h3
      omega
  · rintro ⟨hD, hL⟩
    refine ⟨k1, e1, fun j => ?_⟩
    obtain ⟨k2, D2, L2, e2, h2, ht⟩ := h1.ticks hcb j
    refine ⟨k2, e2, fun x hx => ?_, fun x hx hnone => ?_⟩
    · rw [hup h2 ht x hx]
      rcases Nat.lt_or_ge (elapsed n D) x.2 with hlt | hge
      · rw [hD x hx hlt]
      · have : elapsed n D ≤ n := by
          cases D with
          | nil => exact Nat.zero_le n
          | cons z D => exact Nat.min_le_left n z.2
        exact ⟨fun _ => by omega, fun _ => by omega⟩
    · obtain ⟨hno, hfirst⟩ := h.locked_timer hp ht hx
      have hlt := hno.mp hnone
      have he : elapsed n L = n := hL x hx hlt
      rw [hfirst hlt]
      have hc : k.OSTickCnt + n + (x.2 - elapsed n L) = k.OSTickCnt + x.2 := by omega
      rw [hc, he]

end After

/-! ## In the shipped configuration -/

/-- One one-shot timer, with 2 ticks to go. -/
def oneTmr : Tmr := { Tmr.zero with
  tmrRunning := update Tmr.zero.tmrRunning 0 true
  tmrCnt := update Tmr.zero.tmrCnt 0 2
  TmrList := some 0
  TmrIDVessel := update Tmr.zero.TmrIDVessel 0 true }

theorem oneTmr_ok : TmrOk shippedEnv.served oneTmr [(0, 2)] := by
  have hlinks : IsDList oneTmr.delta.toLinks [0] :=
    ⟨rfl, List.nodup_singleton 0, by simp [nextIn]; rfl, by simp [prevIn]; rfl⟩
  refine ⟨⟨hlinks, ⟨Nat.zero_le 2, rfl, trivial⟩, ?_⟩, fun t => ?_, ?_, fun t _ => ⟨rfl, rfl⟩, ?_⟩
  · simp
  · change t ∈ [0] ↔ update Tmr.zero.tmrRunning 0 true t = true ∧
      update Tmr.zero.TmrIDVessel 0 true t = true
    by_cases ht : t = 0
    · rw [ht, Function.update_self, Function.update_self]
      simp
    · rw [Function.update_of_ne ht]
      simp [ht, Tmr.zero]
  · simp [shippedEnv, Env.served]
  · intro t _ hp
    exact absurd hp Bool.false_ne_true

/-- Task 1 has one tick to go, task 2 has three. -/
def twoDelays : List (List SQC × Act) := [([], .call (.tickDelay 1)), ([], .call (.tickDelay 3))]

/-- What is computed of the state after `twoDelays`, and of the state after `ops` and a tick. -/
def lookAt (ops : List LockOp) (m : Sys) :
    (List Nat × Nat × Nat) × (Bool × Bool × Bool × Nat) × Option TaskState :=
  ((m.k.delayed shippedEnv, m.k.delayTick 1, m.k.delayTick 2),
    (m.k.IsrReq, m.k.TimeReq, m.k.TimerReq, m.k.ServiceReq.cnt),
    ((lockedSection shippedEnv.served ops (m.k.withTmr oneTmr [])).bind
      (freeTicks shippedEnv.served 1)).map fun k => k.state 2)

/-- A reachable state with two delayed tasks, and a timer. -/
theorem armed_shipped {ops : List LockOp} {st : TaskState}
    (hrun : (((boot shippedEnv shippedIdle twoTasks).bind fun m =>
      runs shippedEnv DelayStep m twoDelays).map (lookAt ops)) =
      some (([1, 2], 1, 2), (false, false, false, 0), some st)) :
    ∃ m0 m, boot shippedEnv shippedIdle twoTasks = some m0 ∧ Reach shippedEnv DelayStep m0 m ∧
      Armed shippedEnv (m.k.withTmr oneTmr []) [(1, 1), (2, 3)] [(0, 2)] ∧
      ((lockedSection shippedEnv.served ops (m.k.withTmr oneTmr [])).bind
        (freeTicks shippedEnv.served 1)).map (fun k => k.state 2) = some st := by
  obtain ⟨m0, m, h1, h2, h3⟩ := ran hrun
  have hd : m.k.delayed shippedEnv = [1, 2] := congrArg (fun x => x.1.1) h3
  have ht1 : m.k.delayTick 1 = 1 := congrArg (fun x => x.1.2.1) h3
  have ht2 : m.k.delayTick 2 = 2 := congrArg (fun x => x.1.2.2) h3
  have hisr : m.k.IsrReq = false := congrArg (fun x => x.2.1.1) h3
  refine ⟨m0, m, h1, h2, ⟨?_, ⟨oneTmr_ok, by simp, hisr⟩, ⟨hisr, ?_, ?_, ?_⟩⟩,
    congrArg (fun x => x.2.2) h3⟩
  · obtain ⟨g, r, hbt, -⟩ := @booted shippedEnv m0 shippedIdle twoTasks (by decide) h1
    obtain ⟨g, r, F, hi⟩ := h2.ofTimed.tame ⟨g, r, [], hbt.inv⟩
    refine ⟨g, r, hi.stable.withoutTmr, ?_⟩
    have hrep := hi.stable.coh.rep
    -- the delay list is that of the kernel, and its counters add up
    have hlist : g.dly.map Prod.fst = [1, 2] := by
      have hw : m.k.delayed shippedEnv = g.tcb.lst .dly := hrep.delayed_eq
      rw [← hrep.dly, ← hw, hd]
    have hdel := hrep.deltas
    have htwo : g.dly.length = 2 := by
      rw [← List.length_map (f := Prod.fst), hlist]
      rfl
    obtain ⟨x, y, hg⟩ := List.length_eq_two.mp htwo
    rw [hg] at hlist hdel ⊢
    simp only [List.map_cons, List.map_nil, List.cons.injEq, and_true] at hlist
    obtain ⟨-, hx, hle, hy, -⟩ := hdel
    rw [hlist.1, ht1] at hx
    rw [hlist.2, ht2] at hy
    have e1 : x = (1, 1) := Prod.ext hlist.1 (show x.2 = 1 by omega)
    have e2 : y = (2, 3) := Prod.ext hlist.2 (show y.2 = 3 by omega)
    rw [e1, e2]
  · exact congrArg (fun x => x.2.1.2.1) h3
  · exact congrArg (fun x => x.2.1.2.2.1) h3
  · exact congrArg (fun x => x.2.1.2.2.2) h3

theorem silent_shipped : Silent shippedEnv := fun _ _ => rfl

/-- A lock of one tick, taken twice over. -/
theorem locked_ticks_shipped : ∃ m0 m, boot shippedEnv shippedIdle twoTasks = some m0 ∧
    Reach shippedEnv DelayStep m0 m ∧
    LosesNoTick shippedEnv [.lock, .tick, .unlock] (m.k.withTmr oneTmr []) [(1, 1), (2, 3)]
    [(0, 2)] := by
  obtain ⟨m0, m, h1, h2, h3, -⟩ := @armed_shipped [] .WAITING (by decide +kernel)
  have hh : Held 1 [.lock, .tick, .unlock] := ⟨Nat.le_refl 2, rfl⟩
  exact ⟨m0, m, h1, h2, (locked_ticks silent_shipped h3 hh).mpr (by decide)⟩

/-- A lock of two ticks: task 2, with three ticks to go, still waits after the third. -/
theorem second_delay_late : ∃ m0 m, boot shippedEnv shippedIdle twoTasks = some m0 ∧
    Reach shippedEnv DelayStep m0 m ∧
    Armed shippedEnv (m.k.withTmr oneTmr []) [(1, 1), (2, 3)] [(0, 2)] ∧ Held 1 [.tick, .tick] ∧
    ¬ LosesNoTick shippedEnv [.tick, .tick] (m.k.withTmr oneTmr []) [(1, 1), (2, 3)] [(0, 2)] := by
  obtain ⟨m0, m, h1, h2, h3, h4⟩ := @armed_shipped [.tick, .tick] .WAITING (by decide +kernel)
  refine ⟨m0, m, h1, h2, h3, rfl, ?_⟩
  rintro ⟨k1, e1, hall⟩
  obtain ⟨k2, e2, hup, -⟩ := hall 1
  rw [e1, Option.bind_some, e2] at h4
  have hw : k2.state 2 = .WAITING := Option.some.inj h4
  rcases (hup (2, 3) (by simp)).mpr (by decide) with e | e
  · rw [hw] at e
    exact nomatch e
  · rw [hw] at e
    exact nomatch e

end CoOS
