/-
  `CoEnterMutexSection` and `CoLeaveMutexSection` on coherent states: what they do to the columns of
  the mutexes (`Aside.entered`, `Aside.left`) and to the waiting lists. The task that leaves is the
  owner, and runs.
-/
import CoOS.Kernel.Parts
import CoOS.Mutex.Lists

namespace CoOS

open Function (update)
open DList KeyOrder

/-! ## Who is the most urgent -/

/-- The search along a waiting list: the least priority, and the first task that has it. -/
def firstUrgent (prio : Nat → Nat) (x : Nat × Nat) (l : List Nat) : Nat × Nat :=
  l.foldl (fun x t => if prio t < x.1 then (prio t, t) else x) x

section Urgent

variable {prio : Nat → Nat} {x : Nat × Nat} {l : List Nat}

theorem firstUrgent_cases (prio : Nat → Nat) (x : Nat × Nat) (l : List Nat) :
    firstUrgent prio x l = x ∨ (firstUrgent prio x l).2 ∈ l ∧
      (firstUrgent prio x l).1 = prio (firstUrgent prio x l).2 ∧ (firstUrgent prio x l).1 <
      x.1 := by
  induction l generalizing x with
  | nil => exact Or.inl rfl
  | cons t l ih =>
    change firstUrgent prio (if prio t < x.1 then (prio t, t) else x) l = x ∨ _
    unfold firstUrgent
    rw [List.foldl_cons]
    change _ ∨ (firstUrgent prio (if prio t < x.1 then (prio t, t) else x) l).2 ∈ _ ∧
      (firstUrgent prio (if prio t < x.1 then (prio t, t) else x) l).1 =
        prio (firstUrgent prio (if prio t < x.1 then (prio t, t) else x) l).2 ∧
      (firstUrgent prio (if prio t < x.1 then (prio t, t) else x) l).1 < x.1
    by_cases hlt : prio t < x.1
    · rw [if_pos hlt]
      refine Or.inr ?_
      rcases ih (prio t, t) with e | ⟨e1, e2, e3⟩
      · rw [e]
        exact ⟨List.mem_cons_self, rfl, hlt⟩
      · exact ⟨List.mem_cons_of_mem t e1, e2, Nat.lt_trans e3 hlt⟩
    · rw [if_neg hlt]
      exact (ih x).imp_right fun ⟨e1, e2, e3⟩ => ⟨List.mem_cons_of_mem t e1, e2, e3⟩

theorem firstUrgent_le (prio : Nat → Nat) (x : Nat × Nat) (l : List Nat) :
    (firstUrgent prio x l).1 ≤ x.1 := by
  rcases firstUrgent_cases prio x l with e | e
  · rw [e]
  · exact Nat.le_of_lt e.2.2

/-- Nobody in the list is more urgent. -/
theorem firstUrgent_first (prio : Nat → Nat) (x : Nat × Nat) (l : List Nat) :
    ∀ t ∈ l, (firstUrgent prio x l).1 ≤ prio t := by
  induction l generalizing x with
  | nil => exact fun t ht => absurd ht List.not_mem_nil
  | cons u l ih =>
    intro t ht
    have hrec : firstUrgent prio x (u :: l) = firstUrgent prio (if prio u < x.1 then (prio u,
      u) else x) l := rfl
    rw [hrec]
    rcases List.mem_cons.mp ht with rfl | ht
    · refine Nat.le_trans (firstUrgent_le prio _ l) ?_
      split
      · exact Nat.le_refl _
      · next hn => exact Nat.le_of_not_lt hn
    · exact ih _ t ht

theorem hipriWaiter_eq {s : Kernel} {hd : Option Nat} {fuel : Nat} (h : IsSList hd s.TCBnext l)
    (hf : l.length ≤ fuel) (x : Nat × Nat) :
    hipriWaiter s fuel hd x.1 x.2 = some (firstUrgent s.prio x l) := by
  induction l generalizing hd fuel x with
  | nil =>
    obtain rfl : hd = none := h.head
    cases fuel with
    | zero => rfl
    | succ fuel => rfl
  | cons t l ih =>
    obtain rfl : hd = some t := h.head
    cases fuel with
    | zero => exact absurd hf (Nat.not_succ_le_zero _)
    | succ fuel =>
      have hlen : l.length ≤ fuel := Nat.le_of_succ_le_succ hf
      unfold hipriWaiter firstUrgent
      rw [List.foldl_cons]
      split
      · exact ih h.pop hlen (s.prio t, t)
      · exact ih h.pop hlen x

end Urgent

/-! ## The columns of the mutexes -/

/-- **CoEnterMutexSection** of the task `cur`. -/
def LockPart.entered (p : LockPart) (i cur : Nat) : LockPart :=
  let p := { p with mutexID := update p.mutexID cur i }
  if p.mutexOccupied i then
    if p.prio cur < p.prio (p.mutexTaskID i) then p.promoted i (p.mutexTaskID i) cur else p
  else { p with
    originalPrio := update p.originalPrio i (p.prio cur)
    mutexTaskID := update p.mutexTaskID i cur
    hipriTaskID := update p.hipriTaskID i cur
    mutexOccupied := update p.mutexOccupied i true }

section Entered

variable (p : LockPart) (i cur : Nat)

theorem entered_promoted (ho : p.mutexOccupied i = true)
    (hlt : p.prio cur < p.prio (p.mutexTaskID i)) :
    p.entered i cur =
      { p with mutexID := update p.mutexID cur i : LockPart }.promoted i (p.mutexTaskID i) cur :=
  (if_pos ho).trans (if_pos hlt)

theorem entered_waits (ho : p.mutexOccupied i = true)
    (hlt : ¬ p.prio cur < p.prio (p.mutexTaskID i)) :
    p.entered i cur = { p with mutexID := update p.mutexID cur i } :=
  (if_pos ho).trans (if_neg hlt)

theorem entered_free (ho : ¬ p.mutexOccupied i = true) :
    p.entered i cur = { p with
      mutexID := update p.mutexID cur i
      originalPrio := update p.originalPrio i (p.prio cur)
      mutexTaskID := update p.mutexTaskID i cur
      hipriTaskID := update p.hipriTaskID i cur
      mutexOccupied := update p.mutexOccupied i true } := if_neg ho

end Entered

/-- The priority that is handed on to the first of the tasks `t :: l`, and `hipriTaskID`. -/
def LockPart.handOn (p : LockPart) (i t : Nat) (l : List Nat) : Nat × Nat :=
  if p.hipriTaskID i = p.mutexTaskID i then firstUrgent p.prio (p.prio t, p.hipriTaskID i) (t :: l)
  else (p.prio (p.mutexTaskID i), p.hipriTaskID i)

/-- **CoLeaveMutexSection** of the owner `cur`, when the tasks `l` wait. -/
def LockPart.left (p : LockPart) (i cur : Nat) (l : List Nat) : LockPart :=
  match l with
  | [] => { p with
      mutexID := update p.mutexID cur INVALID_ID
      mutexOccupied := update p.mutexOccupied i false
      mutexTaskID := update p.mutexTaskID i INVALID_ID }
  | t :: l => { p with
      mutexID := update p.mutexID cur INVALID_ID
      hipriTaskID := update p.hipriTaskID i (p.handOn i t l).2
      prio := update (update p.prio cur (p.originalPrio i)) t (p.handOn i t l).1
      originalPrio := update p.originalPrio i (p.prio t)
      mutexTaskID := update p.mutexTaskID i t }

/-- **CoEnterMutexSection**: the caller waits if the mutex is occupied. -/
def Data.entered (d : Data) (i cur : Nat) : Data :=
  let d1 := { d with aside := { d.aside with mutexID := update d.aside.mutexID cur i } }
  if d.aside.mutexOccupied i then
    (if d.aside.prio cur < d.aside.prio (d.aside.mutexTaskID i) then d1.promoted i
      (d.aside.mutexTaskID i) cur
      else d1).block cur
  else { d with aside := d.aside.setLocks (d.aside.lockPart.entered i cur) }

/-- **CoLeaveMutexSection**: the first task of `l` is made ready. -/
def Data.left (d : Data) (i cur : Nat) (l : List Nat) : Data :=
  { d with
    aside := d.aside.setLocks (d.aside.lockPart.left i cur l)
    waits := fun u => l.head? ≠ some u ∧ d.waits u }

theorem entered_aside (d : Data) (i cur : Nat) :
    (d.entered i cur).aside = d.aside.setLocks (d.aside.lockPart.entered i cur) := by
  unfold Data.entered
  by_cases ho : d.aside.mutexOccupied i = true
  · rw [if_pos ho]
    by_cases hlt : d.aside.prio cur < d.aside.prio (d.aside.mutexTaskID i)
    · rw [if_pos hlt, entered_promoted d.aside.lockPart i cur ho hlt]
      rfl
    · rw [if_neg hlt, entered_waits d.aside.lockPart i cur ho hlt]
      rfl
  · rw [if_neg ho]

/-- The waiting lists after an entry. -/
def Ghost.enterMutex (g : Ghost) (s : Kernel) (i cur : Nat) : Ghost :=
  if s.mutexOccupied i then g.joinMutex i cur else g

/-- The waiting lists after a leave. -/
def Ghost.leaveMutex (g : Ghost) (i : Nat) : Ghost :=
  match g.tcb.lst (.mtx i) with
  | [] => g
  | t :: l => g.popMutex i t l

/-! ## CoEnterMutexSection -/

section Enter

variable {cfg : Env} {s : Kernel} {g g' : Ghost} {cur i : Nat}

theorem Calm.joinMutex (h : Calm g g') (i t : Nat) : Calm (g.joinMutex i t) (g'.joinMutex i t) := by
  refine ⟨fun u => ?_, fun m => ?_, fun u m => ?_⟩
  · by_cases hu : u = t
    · rw [hu]
      exact ⟨(fun e => nomatch (Family.put_loc_self g'.tcb _).symm.trans e),
        fun e => nomatch (Family.put_loc_self g.tcb _).symm.trans e⟩
    · change (g'.tcb.put _ _ _).loc u = _ ↔ (g.tcb.put _ _ _).loc u = _
      rw [Family.put_loc_ne _ _ hu, Family.put_loc_ne _ _ hu]
      exact h.free u
  · change (g'.tcb.put _ _ _).lst (.mtx m) = (g.tcb.put _ _ _).lst (.mtx m)
    by_cases hm : m = i
    · rw [hm, Family.put_lst_self, Family.put_lst_self, h.lst i]
    · rw [Family.put_lst_ne _ _ fun e => hm (Kind.mtx.inj e),
        Family.put_lst_ne _ _ fun e => hm (Kind.mtx.inj e)]
      exact h.lst m
  · change (g'.tcb.put _ _ _).loc u = _ ↔ (g.tcb.put _ _ _).loc u = _
    by_cases hu : u = t
    · rw [hu, Family.put_loc_self, Family.put_loc_self]
    · rw [Family.put_loc_ne _ _ hu, Family.put_loc_ne _ _ hu]
      exact h.mtx u m

/-- The caller gets a free mutex, or waits for its owner. -/
theorem Stable.takeMutex (h : Stable cfg s g cur) (hord : cfg.orderListScheduleEn = true)
    (hc : cur ≠ 0)
    (hp : s.prio cur < 256)
    (hown : s.mutexOccupied i = true →
      Live cfg g (s.mutexTaskID i) ∧ s.mutexTaskID i ≠ cur ∧ s.mutexTaskID i ≠ 0) :
    ∃ s1 g1, takeMutex cfg { osSchedLock s with mutexID := update s.mutexID cur i } i cur =
        some s1 ∧
      Body cfg s g1 cur ((s.data g).entered i cur) s1 g1 ∧ Calm (g.enterMutex s i cur) g1 := by
  let s0 : Kernel := { s with mutexID := update s.mutexID cur i }
  have h0 : Stable cfg s0 g cur := h.setMutexID i
  have hrun : s.state cur = .RUNNING := h.picked.running
  have hcode : CoOS.takeMutex cfg (osSchedLock s0) i cur =
      if s.mutexOccupied i then
        (if s.prio cur < s.prio (s.mutexTaskID i) then
            CoOS.promoteOwner cfg (osSchedLock s0) i (s.mutexTaskID i) cur
          else some (osSchedLock s0)).bind fun s => CoOS.blockOnMutex cfg s i cur
      else some (occupyMutex (osSchedLock s0) i cur) := rfl
  change ∃ s1 g1, CoOS.takeMutex cfg (osSchedLock s0) i cur = some s1 ∧ _
  rw [hcode]
  unfold Data.entered Ghost.enterMutex
  by_cases ho : s.mutexOccupied i = true
  · obtain ⟨hlive, hne, hn0⟩ := hown ho
    rw [if_pos ho, if_pos (show (s.data g).aside.mutexOccupied i = true from ho), if_pos ho]
    -- in both cases the caller goes to the end of the waiting list
    have hblock : ∀ {s1 : Kernel} {g1 : Ghost} {d : Data}, Body cfg s g cur d s1 g1 →
      s1.state cur = .RUNNING →
        s1.mutexID cur = i → ∃ s2 g2, blockOnMutex cfg s1 i cur = some s2 ∧
          Body cfg s g2 cur (d.block cur) s2 g2 ∧ Calm (g.joinMutex i cur) g2 := by
      intro s1 g1 d hb hs hm
      obtain ⟨s2, e1, e2, e3, e4, e5⟩ := hb.pend.blockOnMutex hc hs hm
      refine ⟨s2, _, e1, ⟨e2, e4.trans hb.lock, Calm.refl _, e3.trans hb.data.aside, hb.data.evt,
        fun u => ?_,
        fun u => ?_⟩, hb.calm.joinMutex i cur⟩
      · rw [e5, waits_block u, hb.data.waits u]
        rfl
      · change (g1.tcb.put _ _ _).loc u = _ ↔ _
        by_cases hu : u = cur
        · have hoff := (hb.pend.coh.loc_of_running (hb.pend.live hs) hs).1
          rw [hu, Family.put_loc_self]
          refine ⟨(fun e => nomatch e), fun e => ?_⟩
          have := (hb.data.timed cur).mpr e
          rw [hoff] at this
          exact nomatch this
        · rw [Family.put_loc_ne _ _ hu]
          exact hb.data.timed u
    by_cases hlt : s.prio cur < s.prio (s.mutexTaskID i)
    · obtain ⟨s1, g1, e1, e2, e3⟩ := h0.promoteOwner hord hlive hne hn0 hp i
      obtain ⟨s2, g2, f1, f2, f3⟩ := @hblock s1 g1 _ ⟨e2.pend, e2.lock, e2.calm, e2.data⟩
        (e3.trans hrun) ((congrFun (congrArg Aside.mutexID e2.data.aside) cur).trans
          (Function.update_self ..))
      refine ⟨s2, g2, ?_, ?_, f3⟩
      · rw [if_pos hlt]
        exact (congrArg (Option.bind · _) e1).trans f1
      · dsimp only
        rw [if_pos (show (s.data g).aside.prio cur < (s.data g).aside.prio
          ((s.data g).aside.mutexTaskID i) from hlt)]
        exact f2
    · obtain ⟨s2, g2, f1, f2, f3⟩ := @hblock (osSchedLock s0) g (s0.data g)
        ⟨h0.enter, rfl, Calm.refl _, holds_data _ _⟩ hrun (Function.update_self ..)
      refine ⟨s2, g2, ?_, ?_, f3⟩
      · rw [if_neg hlt]
        exact f1
      · dsimp only
        rw [if_neg (show ¬ (s.data g).aside.prio cur < (s.data g).aside.prio
          ((s.data g).aside.mutexTaskID i) from hlt)]
        exact f2
  · rw [if_neg ho, if_neg (show ¬ (s.data g).aside.mutexOccupied i = true from ho), if_neg ho]
    refine ⟨_, g, rfl, ⟨h0.enter.congr rfl rfl rfl id, rfl, Calm.refl _, ?_, rfl, fun _ => Iff.rfl,
      fun _ => Iff.rfl⟩, Calm.refl _⟩
    change _ = s.aside.setLocks (s.aside.lockPart.entered i cur)
    rw [entered_free s.aside.lockPart i cur ho]
    rfl

/-- **CoEnterMutexSection** -/
theorem coEnterMutexSection_ends (h : Stable cfg s g cur) (hord : cfg.orderListScheduleEn = true)
    (hc : cur ≠ 0)
    (hp : s.prio cur < 256)
    (hown : s.mutexOccupied i = true →
      Live cfg g (s.mutexTaskID i) ∧ s.mutexTaskID i ≠ cur ∧ s.mutexTaskID i ≠ 0) :
    Ends cfg s cur (coEnterMutexSection cfg s i) fun st d g1 =>
      (st ≠ .E_OK ∧ d = s.data g ∧ g1 = g) ∨
        (st = .E_OK ∧ i < s.MutexFreeID ∧ d = (s.data g).entered i cur ∧
          Calm (g.enterMutex s i cur) g1) := by
  rw [coEnterMutexSection_parts, if_neg (Nat.not_lt_of_le (Nat.le_of_eq h.coh.nest)),
    if_neg (not_not.mpr h.lock), h.running]
  by_cases hi : s.MutexFreeID ≤ i
  · rw [if_pos hi]
    exact Or.inl ⟨s, g, _, rfl, h, Or.inl ⟨(fun e => nomatch e), rfl, rfl⟩⟩
  · rw [if_neg hi]
    obtain ⟨s1, g1, e1, e2, e3⟩ := h.takeMutex hord hc hp hown
    refine Or.inr ⟨s1, g1, .E_OK, _, ?_, e2, Or.inr ⟨rfl, Nat.lt_of_not_le hi, rfl, e3⟩⟩
    exact congrArg (Option.bind · _) e1

end Enter

/-! ## CoLeaveMutexSection -/

section Leave

variable {cfg : Env} {s : Kernel} {g : Ghost} {cur t i p : Nat} {l : List Nat}

/-- If the first ready task is not more urgent than `p`, then none is. -/
theorem Coh.first_ready (h : Coh cfg s g) (hp : ¬ prioOf cfg s s.TCBRdy < p) :
    ∀ u ∈ g.tcb.lst .rdy, p ≤ s.prio u := by
  intro u hu
  have hhead : s.TCBRdy = (g.tcb.lst .rdy).head? := head_rdy h.rep
  have hsort := h.rep.sorted
  cases hl : g.tcb.lst .rdy with
  | nil =>
    rw [hl] at hu
    exact absurd hu List.not_mem_nil
  | cons x k =>
    rw [hl] at hhead hu hsort
    rw [show s.TCBRdy = some x from hhead] at hp
    have hx : p ≤ s.prio x := Nat.le_of_not_lt hp
    rcases List.mem_cons.mp hu with rfl | hu
    · exact hx
    · exact Nat.le_trans hx ((List.pairwise_cons.mp hsort).1 u hu)

/-- `CoSetPriority` of the running task by itself, once it owns no mutex. -/
theorem Pending.setOwn (h : Pending cfg s g cur) (hord : cfg.orderListScheduleEn = true)
    (hc : cur ≠ 0)
    (hr : s.state cur = .RUNNING) (hm : s.mutexID cur = INVALID_ID) (hp : p ≤ cfg.lowestPrio) :
    ∃ b st, coSetPriority cfg s cur p =
        some ({ s with prio := update s.prio cur p, TaskSchedReq := b }, st) ∧
      Pending cfg { s with prio := update s.prio cur p, TaskSchedReq := b } g cur := by
  have hlive := h.live hr
  have hd : s.state cur ≠ .DORMANT := by
    rw [hr]
    decide
  by_cases hpe : s.prio cur = p
  · have e : update s.prio cur p = s.prio := Function.update_eq_self_iff.mpr hpe.symm
    refine ⟨s.TaskSchedReq, .E_OK, ?_, ?_⟩
    · rw [e]
      exact (if_neg hc).trans ((if_neg (Nat.not_le_of_lt hlive.1)).trans ((if_neg hd).trans
        ((if_neg (Nat.not_lt_of_le hp)).trans (if_pos hpe))))
    · rw [e]
      exact h
  have hp256 : p < 256 := Nat.lt_of_le_of_lt hp (Nat.lt_of_le_of_lt cfg.lowestPrio_le (by decide))
  have hloc : g.tcb.loc cur ≠ some .rdy := by
    rw [(h.coh.loc_of_running hlive hr).1]
    exact fun e => nomatch e
  let s1 : Kernel := { s with prio := update s.prio cur p }
  have hs1 : update s.prio cur p cur = p := Function.update_self ..
  have hcode : coSetPriority cfg s cur p =
      if prioOf cfg s1 s1.TCBRdy < s1.prio cur then
        (osSchedUnlock cfg { osSchedLock s1 with TaskSchedReq := true }).bind fun s =>
          some (s, .E_OK)
      else some (s1, .E_OK) := by
    rw [coSetPriority_eq hlive hd hc hp hpe hm, changeTaskPri_ordered hord, Option.bind_some]
    dsimp only
    rw [hr]
  by_cases hlt : prioOf cfg s1 s1.TCBRdy < s1.prio cur
  · refine ⟨true, .E_OK, ?_, ?_⟩
    · rw [hcode, if_pos hlt, osSchedUnlock_nested cfg (Nat.ne_of_gt (Nat.succ_lt_succ h.lock))]
      rfl
    · have hq : Pending cfg { s with TaskSchedReq := true } g cur :=
        ⟨h.coh.congr rfl, h.lt, h.running, h.next, h.lock, Or.inl rfl, h.ticks, h.idle⟩
      exact hq.reprio hord hlive hloc hp256 fun _ => Or.inl rfl
  · refine ⟨s.TaskSchedReq, .E_OK, ?_, ?_⟩
    · rw [hcode, if_neg hlt]
    · refine h.reprio hord hlive hloc hp256 fun _ => Or.inr fun u hu => ?_
      have hne : u ≠ cur := fun e => hloc (e ▸ (h.coh.rep.tcb.mem .rdy u).mp hu)
      have hle := (h.coh.reprio hord hlive hloc hp256).first_ready hlt u hu
      change update s.prio cur p cur ≤ update s.prio cur p u at hle
      rwa [hs1, Function.update_of_ne hne] at hle

theorem handOnPrio_eq (hS : IsSList (some t) s.TCBnext (t :: l))
    (hlen : (t :: l).length ≤ cfg.tasks) (i : Nat) :
    handOnPrio cfg s i (s.mutexTaskID i) t = some (s.aside.lockPart.handOn i t l) := by
  unfold handOnPrio LockPart.handOn
  by_cases ho : s.hipriTaskID i = s.mutexTaskID i
  · rw [if_pos ho,
      if_pos (show s.aside.lockPart.hipriTaskID i = s.aside.lockPart.mutexTaskID i from ho)]
    exact hipriWaiter_eq hS hlen (s.prio t, s.hipriTaskID i)
  · rw [if_neg ho,
      if_neg (show ¬ s.aside.lockPart.hipriTaskID i = s.aside.lockPart.mutexTaskID i from ho)]
    rfl

/-- The priority that is handed on is that of a task. -/
theorem handOn_le {a : LockPart} (h : ∀ u, a.prio u ≤ p) : (a.handOn i t l).1 ≤ p := by
  unfold LockPart.handOn
  split
  · exact Nat.le_trans (firstUrgent_le ..) (h t)
  · exact h _

/-- The first waiting task gets the mutex, with the priority `p`. -/
theorem Pending.handMutex (h : Pending cfg s g cur) (hord : cfg.orderListScheduleEn = true)
    (hl : g.tcb.lst (.mtx i) = t :: l) (htc : t ≠ cur) (hp : p < 256) :
    ∃ s1 g1, handMutex cfg s i p = some s1 ∧ Pending cfg s1 g1 cur ∧ Calm (g.popMutex i t l) g1 ∧
      s1.OSSchedLock = s.OSSchedLock ∧ g1.evt = g.evt ∧ s1.state = update s.state t .READY ∧
      (∀ u, g1.tcb.loc u = some .dly ↔ g.tcb.loc u = some .dly) ∧
      s1.aside = { s.aside with
        originalPrio := update s.originalPrio i (s.prio t)
        mutexTaskID := update s.mutexTaskID i t
        prio := update s.prio t p } := by
  have hS : IsSList (s.waittingList i) s.TCBnext (g.tcb.lst (.mtx i)) :=
    h.coh.rep.tcb.single (.mtx i)
  have hhead : s.waittingList i = some t := by
    have := hS.head
    rw [hl] at this
    exact this
  have hloc : g.tcb.loc t = some (.mtx i) :=
    (h.coh.rep.tcb.mem (.mtx i) t).mp (hl ▸ List.mem_cons_self)
  have hlive : Live cfg g t := ⟨h.coh.rep.lt t _ hloc, by rw [hloc]; exact fun e => nomatch e⟩
  have hpop := h.popMutex hl
  have ho : (g.popMutex i t l).tcb.loc t = none := Family.take_loc_self ..
  have hlive1 : Live cfg (g.popMutex i t l) t := ⟨hlive.1, by rw [ho]; exact fun e => nomatch e⟩
  have hno : (g.popMutex i t l).tcb.loc t ≠ some .rdy := by
    rw [ho]
    exact fun e => nomatch e
  let s0 : Kernel := s.setWaiting i ⟨s.TCBnext t, update s.TCBnext t none, update s.TCBprev t none⟩
  let s1 : Kernel := { s0 with
    prio := update s.prio t p
    originalPrio := update s.originalPrio i (s.prio t)
    mutexTaskID := update s.mutexTaskID i t }
  have h1 : Pending cfg s1 (g.popMutex i t l) cur :=
    (hpop.reprio hord hlive1 hno hp fun e => absurd e htc).congr rfl rfl rfl id
  have he : (g.popMutex i t l).evt.loc t = none := ((h.coh.task t hlive).mtx i hloc).2.2
  obtain ⟨L, T, ct, req, e1, e2⟩ := h1.insert hlive1 ho he htc
  refine ⟨_, _, ?_, e2, calm_mkReady ho, rfl, rfl, rfl, fun u => ?_, ?_⟩
  · unfold CoOS.handMutex
    rw [hhead, Option.bind_some, ← e1]
    dsimp only
    rw [changeTaskPri_ordered hord, ite_self]
    rfl
  · rw [(rdyFrame_mkReady ho).loc u .dly (by decide)]
    change (g.tcb.take (.mtx i) t l).loc u = _ ↔ _
    by_cases hu : u = t
    · rw [hu, Family.take_loc_self, hloc]
      exact ⟨(fun e => nomatch e), fun e => nomatch e⟩
    · rw [Family.take_loc_ne _ _ hu]
  · rw [readied_aside]
    rfl

theorem left_cons (a : LockPart) (i cur t : Nat) (l : List Nat) : a.left i cur (t :: l) = { a with
    mutexID := update a.mutexID cur INVALID_ID
    hipriTaskID := update a.hipriTaskID i (a.handOn i t l).2
    prio := update (update a.prio cur (a.originalPrio i)) t (a.handOn i t l).1
    originalPrio := update a.originalPrio i (a.prio t)
    mutexTaskID := update a.mutexTaskID i t } := rfl

/-- The owner leaves, and `t` is the first that waits. -/
theorem Stable.leaveWaited (h : Stable cfg s g cur) (hord : cfg.orderListScheduleEn = true)
    (hc : cur ≠ 0)
    (hown : s.mutexTaskID i = cur) (hp : ∀ u, s.prio u ≤ cfg.lowestPrio)
    (ho : s.originalPrio i ≤ cfg.lowestPrio) (hl : g.tcb.lst (.mtx i) = t :: l) :
    ∃ s1 g1, leaveWaited cfg (leaving s i) i t = some s1 ∧
      Body cfg s g1 cur ((s.data g).left i cur (t :: l)) s1 g1 ∧ Calm (g.popMutex i t l) g1 := by
  have hrun : s.state cur = .RUNNING := h.picked.running
  have hS : IsSList (s.waittingList i) s.TCBnext (g.tcb.lst (.mtx i)) :=
    h.coh.rep.tcb.single (.mtx i)
  have hhead : s.waittingList i = some t := by
    have := hS.head
    rw [hl] at this
    exact this
  have hlen := h.coh.rep.tcb_length (.mtx i)
  rw [hhead, hl] at hS
  rw [hl] at hlen
  have htc : t ≠ cur := by
    rintro rfl
    have hloc := (h.coh.loc_of_running h.picked.live hrun).1
    have := (h.coh.rep.tcb.mem (.mtx i) t).mp (hl ▸ List.mem_cons_self)
    rw [hloc] at this
    exact nomatch this
  obtain ⟨x, hx⟩ : ∃ x, s.aside.lockPart.handOn i t l = x := ⟨_, rfl⟩
  have hx256 : x.1 < 256 := by
    rw [← hx]
    exact Nat.lt_of_le_of_lt (handOn_le hp) (Nat.lt_of_le_of_lt cfg.lowestPrio_le (by decide))
  -- the owner forgets the mutex, and the mutex its owner
  let s1 : Kernel := { osSchedLock { s with mutexID := update s.mutexID cur INVALID_ID } with
    hipriTaskID := update s.hipriTaskID i x.2
    mutexTaskID := update s.mutexTaskID i INVALID_ID }
  have h1 : Pending cfg s1 g cur := (h.setMutexID INVALID_ID).enter.congr rfl rfl rfl id
  obtain ⟨b, st, e1, e2⟩ := h1.setOwn hord hc hrun (Function.update_self ..) ho
  let s2 : Kernel := { s1 with prio := update s1.prio cur (s.originalPrio i), TaskSchedReq := b }
  obtain ⟨s3, g3, f1, f2, f3, f4, f5, f6, f7, f8⟩ :=
    @Pending.handMutex cfg s2 g cur t i x.1 l e2 hord hl htc hx256
  have hpt : update s.prio cur (s.originalPrio i) t = s.prio t := Function.update_of_ne htc ..
  refine ⟨s3, g3, ?_, ⟨f2, f4, Calm.refl _, ?_, f5, fun u => ?_, f7⟩, f3⟩
  · have hleft : leaving s i =
      osSchedLock { s with mutexID := update s.mutexID cur INVALID_ID } := by
      unfold leaving
      rw [hown]
      rfl
    unfold CoOS.leaveWaited
    rw [hleft]
    refine (congrArg (Option.bind · _) (@handOnPrio_eq cfg
      (osSchedLock { s with mutexID := update s.mutexID cur INVALID_ID }) t l hS hlen i)).trans ?_
    have hx' : (osSchedLock
      { s with mutexID := update s.mutexID cur INVALID_ID }).aside.lockPart.handOn i t l = x := hx
    rw [hx', Option.bind_some,
      show (osSchedLock { s with mutexID := update s.mutexID cur INVALID_ID }).mutexTaskID i =
        cur from hown]
    refine (congrArg (Option.bind · fun y => CoOS.handMutex cfg y.1 i x.1) e1).trans ?_
    change CoOS.handMutex cfg s2 i x.1 = some s3
    exact f1
  · rw [f8, show s2.prio t = s.prio t from hpt,
      show update s2.mutexTaskID i t = update s.mutexTaskID i t from
      Function.update_idem ..]
    change _ = s.aside.setLocks (s.aside.lockPart.left i cur (t :: l))
    rw [left_cons, hx]
    rfl
  · rw [f6]
    change update s.state t .READY u = .WAITING ↔ some t ≠ some u ∧ s.state u = .WAITING
    rw [waits_wake (by decide) u]
    exact and_congr ⟨fun hu e => hu (Option.some.inj e).symm,
      fun hu e => hu (congrArg some e.symm)⟩ Iff.rfl

/-- **CoLeaveMutexSection** of the owner -/
theorem coLeaveMutexSection_ends (h : Stable cfg s g cur) (hord : cfg.orderListScheduleEn = true)
    (hc : cur ≠ 0)
    (hown : s.mutexTaskID i = cur) (hi : i < s.MutexFreeID) (hp : ∀ u, s.prio u ≤ cfg.lowestPrio)
    (ho : s.originalPrio i ≤ cfg.lowestPrio) :
    Ends cfg s cur (coLeaveMutexSection cfg s i) fun st d g1 =>
      st = .E_OK ∧ d = (s.data g).left i cur (g.tcb.lst (.mtx i)) ∧ Calm (g.leaveMutex i) g1 := by
  have hS : IsSList (s.waittingList i) s.TCBnext (g.tcb.lst (.mtx i)) :=
    h.coh.rep.tcb.single (.mtx i)
  rw [coLeaveMutexSection_parts, if_neg (Nat.not_lt_of_le (Nat.le_of_eq h.coh.nest)),
    if_neg (Nat.not_le_of_lt hi), hS.head]
  unfold Ghost.leaveMutex
  cases hl : g.tcb.lst (.mtx i) with
  | nil =>
    refine Or.inr ⟨freeMutex (leaving s i) i, g, .E_OK, _, rfl, ?_, rfl, rfl, Calm.refl _⟩
    refine ⟨(h.setMutexID INVALID_ID).enter.congr ?_ rfl rfl id, rfl, Calm.refl _, ?_, rfl,
      fun u => ?_, fun u => Iff.rfl⟩
    · unfold freeMutex leaving
      rw [hown]
      rfl
    · unfold freeMutex leaving
      rw [hown]
      rfl
    · change s.state u = .WAITING ↔ none ≠ some u ∧ s.state u = .WAITING
      exact ⟨fun hw => ⟨(fun e => nomatch e), hw⟩, And.right⟩
  | cons t l =>
    obtain ⟨s1, g1, e1, e2, e3⟩ := h.leaveWaited hord hc hown hp ho hl
    refine Or.inr ⟨s1, g1, .E_OK, _, ?_, e2, rfl, rfl, e3⟩
    exact congrArg (Option.bind · _) e1

end Leave

end CoOS
