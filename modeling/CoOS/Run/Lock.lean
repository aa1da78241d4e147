/-
  Ticks while the scheduler is locked.

  Between `CoSchedLock` and `CoSchedUnlock` a tick lowers the first counter of each list, and when
  it is 0 the expiry is left to the unlock. The counters count from the item before, so a counter
  that is 0 stops the whole list: the ticks that come after the first expiry are lost to the items
  behind it. A list loses no tick when the lock is released by its first expiry, or when all its
  items expire together (`InTime`).

  `Passed` is what any stretch of time does to the lists; both a locked section and a free tick are
  such stretches.
-/
import CoOS.Timer.Apart
import CoOS.Timer.Run
import CoOS.Run.Unlock

namespace CoOS

open Function (update)
open DList KeyOrder

/-! ## The runs -/

/-- `CoSchedLock` and `CoSchedUnlock`. -/
def coSchedLock (s : Kernel) : Kernel := osSchedLock s

def coSchedUnlock (cfg : Env) (s : Kernel) : Option Kernel := osSchedUnlock cfg s

/-- What happens while the scheduler is locked. -/
inductive LockOp where
  | lock | unlock | tick
  deriving DecidableEq, Repr

/-- No context switch is outstanding in a locked section. -/
def LockOp.exec (cfg : Env) (k : Kernel) : LockOp → Option Kernel
  | .lock => some (coSchedLock k)
  | .unlock => coSchedUnlock cfg k
  | .tick => sysTick_Handler cfg k

def lockRun (cfg : Env) : List LockOp → Kernel → Option Kernel
  | [], k => some k
  | op :: ops, k => (op.exec cfg k).bind (lockRun cfg ops)

/-- With `d` locks taken before, the scheduler stays locked, and one lock is left at the end. -/
def Held : Nat → List LockOp → Prop
  | d, [] => d = 1
  | d, .lock :: ops => Held (d + 1) ops
  | d, .unlock :: ops => 2 ≤ d ∧ Held (d - 1) ops
  | d, .tick :: ops => Held d ops

/-- The number of ticks. -/
def lockedTicks (ops : List LockOp) : Nat := ops.count .tick

/-- A section from `CoSchedLock` to the `CoSchedUnlock` that unlocks the scheduler, with the
    context switch that this requests. -/
def lockedSection (cfg : Env) (ops : List LockOp) (k : Kernel) : Option Kernel :=
  ((lockRun cfg ops (coSchedLock k)).bind (coSchedUnlock cfg)).map takeSwitch

/-- `n` ticks with the scheduler unlocked, each with its context switch. -/
def freeTicks (cfg : Env) : Nat → Kernel → Option Kernel
  | 0, k => some k
  | n + 1, k => ((sysTick_Handler cfg k).map takeSwitch).bind (freeTicks cfg n)

/-- Between two calls, with the delayed tasks `D` and the running timers `L`, each with the ticks
    it has to go. -/
structure Armed (cfg : Env) (k : Kernel) (D L : List (Nat × Nat)) : Prop where
  tasks : ∃ g r, Stable cfg.served (k.withTmr Tmr.zero []) g r ∧ g.dly = D
  timers : TmrInv cfg.served k L
  clean : k.reqs.Clean

/-! ## What time does to the lists -/

/-- The item `t` has at most `e` ticks to go. -/
def DueBy (L : List (Nat × Nat)) (e t : Nat) : Prop := ∃ x ∈ L, x.1 = t ∧ x.2 ≤ e

instance (L : List (Nat × Nat)) (e t : Nat) : Decidable (DueBy L e t) :=
  inferInstanceAs (Decidable (∃ x ∈ L, x.1 = t ∧ x.2 ≤ e))

/-- After `n` ticks of the clock, `e` of which the delayed tasks saw and `f` the timers. -/
structure Passed (cfg : Env) (n e f : Nat) (k k' : Kernel) (D D' L L' : List (Nat × Nat)) :
    Prop where
  clock : k'.OSTickCnt = k.OSTickCnt + n
  kind : SameKind k.tmr k'.tmr
  dly : ∀ t r, (t, r) ∈ D' ↔ 1 ≤ r ∧ (t, r + e) ∈ D
  waits : ∀ t, k'.state t = .WAITING ↔ k.state t = .WAITING ∧ ¬ DueBy D e t
  alive : ∀ t, k'.alive cfg t ↔ k.alive cfg t
  tmr : ∀ t r, (t, r) ∈ L' ↔ 1 ≤ r ∧ (t, r + f) ∈ L ∨
    DueBy L f t ∧ k.tmr.tmrPeriodic t = true ∧ r = k.tmr.tmrReload t
  fired : ∀ t, firedAt t k'.callBacks =
    firedAt t k.callBacks ++ if DueBy L f t then [k.OSTickCnt + n] else []

/-- The list after `e` ticks. -/
def lower (e : Nat) (L : List (Nat × Nat)) : List (Nat × Nat) := L.map fun x => (x.1, x.2 - e)

theorem lower_fst (e : Nat) (L : List (Nat × Nat)) : (lower e L).map Prod.fst = L.map Prod.fst := by
  unfold lower
  rw [List.map_map]
  rfl

theorem lower_zero (L : List (Nat × Nat)) : lower 0 L = L := by
  unfold lower
  exact List.map_id L

theorem lower_succ (e : Nat) (L : List (Nat × Nat)) :
    (lower e L).map (fun x => (x.1, x.2 - 1)) = lower (e + 1) L := by
  unfold lower
  rw [List.map_map]
  rfl

/-- How many of `n` locked ticks the list sees. -/
def elapsed (n : Nat) : List (Nat × Nat) → Nat
  | [] => 0
  | x :: _ => min n x.2

/-- The first item has expired by the `n`-th locked tick. -/
def expired (n : Nat) : List (Nat × Nat) → Bool
  | [] => false
  | x :: _ => decide (x.2 ≤ n)

/-- What a list with `e` ticks less is made of: the items that are due and those that stay. -/
theorem lower_split {e : Nat} {L Z R : List (Nat × Nat)} (h : lower e L = Z ++ R)
    (hz : ∀ x ∈ Z, x.2 = 0)
    (hR : ∀ x ∈ R, 1 ≤ x.2) :
    (∀ t, t ∈ Z.map Prod.fst ↔ DueBy L e t) ∧ ∀ t r, (t, r) ∈ R ↔ 1 ≤ r ∧ (t, r + e) ∈ L := by
  constructor
  · intro t
    constructor
    · intro ht
      obtain ⟨z, hzm, rfl⟩ := List.mem_map.mp ht
      have hm : z ∈ lower e L := by
        rw [h]
        exact List.mem_append_left _ hzm
      obtain ⟨x, hx, rfl⟩ := List.mem_map.mp hm
      exact ⟨x, hx, rfl, Nat.le_of_sub_eq_zero (hz _ hzm)⟩
    · rintro ⟨x, hx, rfl, hle⟩
      have hm : (x.1, x.2 - e) ∈ lower e L := List.mem_map.mpr ⟨x, hx, rfl⟩
      rw [h] at hm
      rcases List.mem_append.mp hm with hm | hm
      · exact List.mem_map.mpr ⟨_, hm, rfl⟩
      · have h1 : 1 ≤ x.2 - e := hR _ hm
        omega
  · intro t r
    constructor
    · intro hr
      have hm : (t, r) ∈ lower e L := by
        rw [h]
        exact List.mem_append_right _ hr
      obtain ⟨x, hx, hxe⟩ := List.mem_map.mp hm
      obtain ⟨rfl, rfl⟩ := Prod.mk.inj hxe
      have h1 : 1 ≤ x.2 - e := hR _ hr
      refine ⟨h1, ?_⟩
      rw [show x.2 - e + e = x.2 by omega]
      exact hx
    · rintro ⟨h1, hm⟩
      have hl : (t, r) ∈ lower e L := List.mem_map.mpr ⟨_, hm, by rw [Nat.add_sub_cancel]⟩
      rw [h] at hl
      rcases List.mem_append.mp hl with hl | hl
      · have h0 : r = 0 := hz _ hl
        omega
      · exact hl

/-! ## A locked tick -/

/-- The first counter of a list is lowered, down to 0. -/
def lowerHead (head : Option Nat) (cnt : Nat → Nat) : Nat → Nat :=
  match head with
  | none => cnt
  | some h => update cnt h (cnt h - 1)

/-- `SysTick_Handler` with the scheduler locked. -/
def Kernel.tickLocked (k : Kernel) : Kernel := { k with
  OSTickCnt := k.OSTickCnt + 1
  delayTick := lowerHead k.DlyList k.delayTick
  tmr := { k.tmr with tmrCnt := lowerHead k.tmr.TmrList k.tmr.tmrCnt }
  IsrReq := k.IsrReq || k.timeDue || k.timerDue
  TimeReq := k.TimeReq || k.timeDue
  TimerReq := k.TimerReq || k.timerDue
  TaskSchedReq := true }

section Locked

variable {cfg : Env} {k : Kernel}

theorem sysTickDelay_lower (hl : 1 < k.OSSchedLock) : sysTickDelay cfg k = some { k with
    delayTick := lowerHead k.DlyList k.delayTick
    IsrReq := k.IsrReq || k.timeDue, TimeReq := k.TimeReq || k.timeDue } := by
  unfold Kernel.timeDue lowerHead
  cases hd : k.DlyList with
  | none =>
    rw [sysTickDelay_none hd]
    simp only [Option.any_none, Bool.or_false]
    rw [← hd]
  | some h =>
    rw [sysTickDelay_some hd]
    by_cases hlt : 1 < k.delayTick h
    · rw [if_pos hlt]
      simp only [Option.any_some, decide_eq_false (Nat.not_le_of_lt hlt), Bool.or_false]
      rw [← hd]
    · rw [if_neg hlt]
      unfold isr_TimeDispose
      rw [if_pos hl]
      have h0 : k.delayTick h - 1 = 0 := by omega
      simp only [Option.any_some, decide_eq_true (Nat.le_of_not_lt hlt), Bool.or_true, h0]
      rw [← hd]

theorem sysTickTmr_lower (hl : 1 < k.OSSchedLock) : sysTickTmr cfg k = some { k with
    tmr := { k.tmr with tmrCnt := lowerHead k.tmr.TmrList k.tmr.tmrCnt }
    IsrReq := k.IsrReq || k.timerDue, TimerReq := k.TimerReq || k.timerDue } := by
  unfold Kernel.timerDue lowerHead
  cases hd : k.tmr.TmrList with
  | none =>
    unfold sysTickTmr
    rw [hd]
    simp only [Option.any_none, Bool.or_false]
  | some h =>
    rw [sysTickTmr_some hd]
    by_cases hlt : 1 < k.tmr.tmrCnt h
    · rw [if_pos hlt]
      simp only [Option.any_some, decide_eq_false (Nat.not_le_of_lt hlt), Bool.or_false]
    · rw [if_neg hlt]
      unfold isr_TmrDispose
      rw [if_pos hl]
      have h0 : k.tmr.tmrCnt h - 1 = 0 := by omega
      simp only [Option.any_some, decide_eq_true (Nat.le_of_not_lt hlt), Bool.or_true, h0]

theorem sysTick_locked (hl : 0 < k.OSSchedLock) : sysTick_Handler cfg k = some k.tickLocked := by
  let k0 : Kernel := { osSchedLock k with OSTickCnt := k.OSTickCnt + 1 }
  let k1 : Kernel := { k0 with
    delayTick := lowerHead k.DlyList k.delayTick
    IsrReq := k.IsrReq || k.timeDue, TimeReq := k.TimeReq || k.timeDue }
  let k2 : Kernel := { k1 with
    tmr := { k.tmr with tmrCnt := lowerHead k.tmr.TmrList k.tmr.tmrCnt }
    IsrReq := k1.IsrReq || k.timerDue, TimerReq := k.TimerReq || k.timerDue }
  have h1 : sysTickDelay cfg k0 = some k1 := sysTickDelay_lower (k := k0) (Nat.succ_lt_succ hl)
  have h2 : sysTickTmr cfg k1 = some k2 := sysTickTmr_lower (k := k1) (Nat.succ_lt_succ hl)
  have h3 : osSchedUnlock cfg { k2 with TaskSchedReq := true } = some k.tickLocked :=
    osSchedUnlock_nested cfg (show k.OSSchedLock + 1 ≠ 1 by omega)
  unfold sysTick_Handler
  change (sysTickDelay cfg k0).bind _ = _
  rw [h1]
  change (sysTickTmr cfg k1).bind _ = _
  rw [h2]
  exact h3

end Locked

/-! ## A locked section -/

theorem elapsed_cons (n : Nat) (x : Nat × Nat) (L : List (Nat × Nat)) :
    elapsed n (x :: L) = min n x.2 := rfl

/-- A locked tick lowers the first counter, unless that is 0 already. -/
theorem lowerHead_cons {D : Delta Nat} {n : Nat} {x : Nat × Nat} {L : List (Nat × Nat)}
    (h : IsDelta D (lower (elapsed n (x :: L)) (x :: L))) :
    D.head = some x.1 ∧ D.cnt x.1 = x.2 - min n x.2 ∧
      (x.2 ≤ n → elapsed (n + 1) (x :: L) = elapsed n (x :: L) ∧ lowerHead D.head D.cnt = D.cnt) ∧
      (n < x.2 → elapsed (n + 1) (x :: L) = elapsed n (x :: L) + 1) := by
  have hh : D.head = some x.1 := h.links.head
  have hc : D.cnt x.1 = x.2 - min n x.2 := h.cnts.2.1
  refine ⟨hh, hc, fun hle => ⟨?_, ?_⟩, fun hlt => ?_⟩
  · rw [elapsed_cons, elapsed_cons]
    omega
  · have h0 : D.cnt x.1 - 1 = D.cnt x.1 := by omega
    rw [hh]
    change update D.cnt x.1 (D.cnt x.1 - 1) = D.cnt
    rw [h0, Function.update_eq_self]
  · rw [elapsed_cons, elapsed_cons]
    omega

theorem lowerHead_delta {D : Delta Nat} {n : Nat} {L : List (Nat × Nat)}
    (h : IsDelta D (lower (elapsed n L) L)) :
    IsDelta ⟨D.toLinks, lowerHead D.head D.cnt⟩ (lower (elapsed (n + 1) L) L) := by
  cases L with
  | nil =>
    have hh : D.head = none := h.links.head
    rw [hh]
    exact h
  | cons x L =>
    obtain ⟨hh, hc, hle, hlt⟩ := lowerHead_cons h
    rcases Nat.lt_or_ge n x.2 with hn | hn
    · have ht := tick_spec h (show 0 < x.2 - min n x.2 by omega)
      rw [hlt hn, ← lower_succ, hh]
      exact ht
    · rw [(hle hn).1, (hle hn).2]
      exact h

theorem due_expired {D : Delta Nat} {n : Nat} {L : List (Nat × Nat)}
    (h : IsDelta D (lower (elapsed n L) L)) :
    (D.head.any fun t => decide (D.cnt t ≤ 1)) = expired (n + 1) L := by
  cases L with
  | nil =>
    have hh : D.head = none := h.links.head
    rw [hh]
    rfl
  | cons x L =>
    obtain ⟨hh, hc, -⟩ := lowerHead_cons h
    rw [hh, Option.any_some, hc]
    refine decide_eq_decide.mpr ?_
    omega

theorem expired_mono {n : Nat} {L : List (Nat × Nat)} (h : expired n L = true) :
    expired (n + 1) L = true := by
  cases L with
  | nil => exact nomatch h
  | cons x L => exact decide_eq_true (Nat.le_succ_of_le (of_decide_eq_true h))

/-- A request that was made stays. -/
theorem expired_or (n : Nat) (L : List (Nat × Nat)) :
    (expired n L || expired (n + 1) L) = expired (n + 1) L := by
  cases h : expired n L with
  | false => rfl
  | true => rw [expired_mono h]; rfl

/-- The ghost state with the delay list `e` ticks lower. -/
def Ghost.lowered (g : Ghost) (e : Nat) : Ghost := { g with dly := lower e g.dly }

theorem Coh.lowered {cfg : Env} {s : Kernel} {g : Ghost} {n : Nat}
    (h : Coh cfg s (g.lowered (elapsed n g.dly))) :
    Coh cfg { s with delayTick := lowerHead s.DlyList s.delayTick }
      (g.lowered (elapsed (n + 1) g.dly)) := by
  have hi : IsDelta s.dly (lower (elapsed n g.dly) g.dly) := h.rep.isDelta
  cases hd : g.dly with
  | nil =>
    rw [hd] at hi h
    have hh : s.DlyList = none := hi.links.head
    have hcnt : lowerHead s.DlyList s.delayTick = s.delayTick := by
      rw [hh]
      rfl
    rw [hcnt]
    exact h
  | cons x l =>
    rw [hd] at hi
    obtain ⟨hh, hc, hle, hlt⟩ := lowerHead_cons hi
    rcases Nat.lt_or_ge n x.2 with hn | hn
    · have hx : 1 ≤ x.2 - min n x.2 := by omega
      have hgd : (g.lowered (elapsed n g.dly)).dly =
          (x.1, x.2 - min n x.2) :: lower (elapsed n (x :: l)) l := by
        unfold Ghost.lowered
        rw [hd]
        rfl
      have ht := h.tickDown hgd hx
      have hcnt : lowerHead s.DlyList s.delayTick =
        update s.delayTick x.1 (s.delayTick x.1 - 1) := by
        rw [show s.DlyList = some x.1 from hh]
        rfl
      rw [hlt hn, hcnt, ← hd]
      have hg : (g.lowered (elapsed n g.dly)).tickDown = g.lowered (elapsed n g.dly + 1) := by
        unfold Ghost.lowered Ghost.tickDown
        rw [lower_succ]
      rw [hg] at ht
      exact ht
    · have hcnt : lowerHead s.DlyList s.delayTick = s.delayTick := (hle hn).2
      rw [(hle hn).1, hcnt, ← hd]
      exact h

/-- After `n` ticks in the locked section that began in `k0`, with `d` locks held. -/
structure HeldFor (cfg : Env) (k0 : Kernel) (g : Ghost) (L : List (Nat × Nat)) (n d : Nat)
    (k : Kernel) :
    Prop where
  tasks : Coh cfg.served (k.withTmr Tmr.zero []) (g.lowered (elapsed n g.dly))
  timers : TmrOk cfg.served k.tmr (lower (elapsed n L) L)
  kind : SameKind k0.tmr k.tmr
  log : k.callBacks = k0.callBacks
  clock : k.OSTickCnt = k0.OSTickCnt + n
  state : k.state = k0.state
  prio : k.prio = k0.prio
  cpu : k.cpu = ⟨k0.TCBRunning, k0.TCBNext, d⟩
  req : k.TaskSchedReq = (k0.TaskSchedReq || decide (0 < n))
  reqs : k.reqs = ⟨expired n g.dly || expired n L, expired n g.dly, expired n L, 0, d, 0⟩

section Section

variable {cfg : Env} {k0 k : Kernel} {g : Ghost} {L : List (Nat × Nat)} {n d r : Nat}

theorem HeldFor.delay (h : HeldFor cfg k0 g L n d k) : k.timeDue = expired (n + 1) g.dly :=
  due_expired (D := k.dly) h.tasks.rep.isDelta

theorem HeldFor.timer (h : HeldFor cfg k0 g L n d k) : k.timerDue = expired (n + 1) L :=
  due_expired (D := k.tmr.delta) h.timers.delta

theorem HeldFor.tick (h : HeldFor cfg k0 g L n d k) :
    HeldFor cfg k0 g L (n + 1) d k.tickLocked := by
  have hi : k.IsrReq = (expired n g.dly || expired n L) := congrArg Reqs.IsrReq h.reqs
  have ht : k.TimeReq = expired n g.dly := congrArg Reqs.TimeReq h.reqs
  have hr : k.TimerReq = expired n L := congrArg Reqs.TimerReq h.reqs
  have hfst : ∀ e f, (lower e L).map Prod.fst = (lower f L).map Prod.fst := fun e f =>
    (lower_fst e L).trans (lower_fst f L).symm
  refine ⟨?_, ?_, ⟨h.kind.periodic, h.kind.reload, h.kind.vessel⟩, h.log, ?_, h.state, h.prio,
    h.cpu, ?_, ?_⟩
  · exact h.tasks.lowered.congr rfl
  · have ho := h.timers
    refine ⟨lowerHead_delta ho.delta, ?_, ?_, ?_, ?_⟩
    all_goals rw [hfst _ (elapsed n L)]
    · exact ho.mem
    · exact ho.lt
    · exact ho.off
    · exact ho.reload
  · change k.OSTickCnt + 1 = _
    rw [h.clock, Nat.add_assoc]
  · change true = _
    rw [decide_eq_true (Nat.succ_pos n), Bool.or_true]
  · change ({ k.reqs with
      IsrReq := k.IsrReq || k.timeDue || k.timerDue
      TimeReq := k.TimeReq || k.timeDue
      TimerReq := k.TimerReq || k.timerDue } : Reqs) = _
    rw [h.delay, h.timer, hi, ht, hr, h.reqs, ← expired_or n g.dly, ← expired_or n L]
    cases expired n g.dly <;> cases expired n L <;> cases expired (n + 1) g.dly <;>
      cases expired (n + 1) L <;> rfl

theorem HeldFor.lock (h : HeldFor cfg k0 g L n d k) :
    HeldFor cfg k0 g L n (d + 1) (coSchedLock k) := by
  refine ⟨h.tasks.congr rfl, h.timers, h.kind, h.log, h.clock, h.state, h.prio, ?_, h.req, ?_⟩
  · exact congrArg (fun c : Cpu => { c with OSSchedLock := c.OSSchedLock + 1 }) h.cpu
  · exact congrArg (fun v : Reqs => { v with lock := v.lock + 1 }) h.reqs

theorem HeldFor.unlock (h : HeldFor cfg k0 g L n d k) (hd : 2 ≤ d) :
    ∃ k', coSchedUnlock cfg.served k = some k' ∧ HeldFor cfg k0 g L n (d - 1) k' := by
  have hl : k.OSSchedLock = d := congrArg Cpu.OSSchedLock h.cpu
  refine ⟨_, osSchedUnlock_nested cfg.served (by omega), h.tasks.congr rfl, h.timers, h.kind, h.log,
    h.clock, h.state, h.prio, ?_, h.req, ?_⟩
  · exact congrArg (fun c : Cpu => { c with OSSchedLock := c.OSSchedLock - 1 }) h.cpu
  · exact congrArg (fun v : Reqs => { v with lock := v.lock - 1 }) h.reqs

/-- A whole locked section, up to its last unlock. -/
theorem HeldFor.run (ops : List LockOp) : ∀ {k : Kernel} {n d : Nat}, HeldFor cfg k0 g L n d k →
    Held d ops → 1 ≤ d →
    ∃ k', lockRun cfg.served ops k = some k' ∧ HeldFor cfg k0 g L (n + lockedTicks ops) 1 k' := by
  induction ops with
  | nil =>
    intro k n d h hh _
    obtain rfl : d = 1 := hh
    exact ⟨k, rfl, h⟩
  | cons op ops ih =>
    intro k n d h hh hd
    cases op with
    | lock => exact ih h.lock hh (Nat.succ_pos d)
    | unlock =>
      obtain ⟨h2, hh⟩ : 2 ≤ d ∧ Held (d - 1) ops := hh
      obtain ⟨k1, e1, h1⟩ := h.unlock h2
      obtain ⟨k2, e2, h3⟩ := ih h1 hh (by omega)
      refine ⟨k2, ?_, h3⟩
      change (coSchedUnlock cfg.served k).bind _ = _
      rw [e1]
      exact e2
    | tick =>
      have hl : k.OSSchedLock = d := congrArg Cpu.OSSchedLock h.cpu
      have hn : n + lockedTicks (.tick :: ops) = n + 1 + lockedTicks ops := by
        unfold lockedTicks
        rw [List.count_cons_self]
        omega
      obtain ⟨k2, e2, h2⟩ := ih h.tick hh hd
      rw [hn]
      refine ⟨k2, ?_, h2⟩
      change (sysTick_Handler cfg.served k).bind _ = _
      rw [sysTick_locked (by omega)]
      exact e2

end Section

end CoOS
