/-
  The calls of task.c and time.c, and the tick, keep `Robin`. `CoSetPriority` of the running task
  to the priority of the head of the ready list is the one call that does not.
-/
import CoOS.Run.Slice

namespace CoOS

open Function (update)
open DList KeyOrder

/-! ## Calls -/

section Calls

variable {cfg : Env} {s k : Kernel} {g : Ghost} {r t : Nat} {q : Prop}

/-- The slice end is ahead when any ready task is an equal of the running one. -/
theorem Robin.equals (hR : Robin s) (h : Stable cfg s g r) {u : Nat} (hu : u ∈ g.tcb.lst .rdy)
    (he : s.prio u = s.prio r) : s.OSTickCnt < s.OSCheckTime := by
  have hhead : s.TCBRdy = (g.tcb.lst .rdy).head? := head_rdy h.coh.rep
  obtain ⟨x, l, hl⟩ := List.exists_cons_of_ne_nil (List.ne_nil_of_mem hu)
  have hx : x ∈ g.tcb.lst .rdy := by
    rw [hl]
    exact List.mem_cons_self
  have hxr : x ≠ r := by
    rintro rfl
    have h1 := (h.coh.rep.tcb.mem .rdy x).mp hx
    rw [(h.coh.loc_of_running h.picked.live h.picked.running).1] at h1
    exact nomatch h1
  have hle : s.prio x ≤ s.prio u := by
    rw [hl] at hu
    rcases List.mem_cons.mp hu with rfl | hu
    · exact Nat.le_refl _
    · exact head_first h.coh.rep hl u hu
  have hge : s.prio r ≤ s.prio x := h.picked.first x hx
  rw [hl] at hhead
  exact hR.armed r x h.picked.next (h.coh.stk r h.picked.live) hhead hxr (by omega)

/-- Inside a section of a call that has taken tasks out of the ready list, if it touched it. -/
structure RdyKept (s : Kernel) (g : Ghost) (k : Kernel) : Prop where
  frame : k.frame = (osSchedLock s).frame
  next : k.TCBNext = s.TCBNext
  check : k.OSCheckTime = s.OSCheckTime
  mutexID : k.mutexID = s.mutexID
  rdy : ∀ u, k.TCBRdy = some u → u ∈ g.tcb.lst .rdy

theorem Stable.kept (h : Stable cfg s g r) : RdyKept s g (osSchedLock s) :=
  ⟨rfl, rfl, rfl, rfl, fun _ hu => List.mem_of_head? ((head_rdy h.coh.rep).symm.trans hu)⟩

theorem RdyKept.slot {k' : Kernel} (h : RdyKept s g k) (e : k'.slot = k.slot) : RdyKept s g k' := by
  refine ⟨(congrArg Slot.frame e).trans h.frame, (congrArg Slot.TCBNext e).trans h.next,
    (congrArg Slot.OSCheckTime e).trans h.check, (congrArg Slot.mutexID e).trans h.mutexID, ?_⟩
  rw [show k'.TCBRdy = k.TCBRdy from congrArg Slot.TCBRdy e]
  exact h.rdy

/-- The priority of tasks that are neither running nor first may be another one by now. -/
theorem RdyKept.facing (hk : RdyKept s g k) (h : Stable cfg s g r) (hi : s.IsrReq = false)
    (hR : Robin s)
    {p : Nat → Nat} (hr : p r = s.prio r) (hp : ∀ u, k.TCBRdy = some u → p u = s.prio u) :
    Facing { k with prio := p } r q := by
  have hf := hk.frame
  have h1 : k.hasStk = s.hasStk := congrArg Frame.hasStk hf
  have h2 : k.timeSlice = s.timeSlice := congrArg Frame.timeSlice hf
  refine ⟨(congrArg Frame.TCBRunning hf).trans h.running, hk.next.trans h.picked.next,
    (congrArg Frame.OSSchedLock hf).trans (congrArg Nat.succ h.lock),
    (congrArg Frame.OSIntNesting hf).trans h.coh.nest, (congrArg Frame.IsrReq hf).trans hi, ?_, ?_,
    fun u hu _ he => Or.inl ?_⟩
  · change k.hasStk r = true
    rw [h1]
    exact h.coh.stk r h.picked.live
  · change ∀ t, k.hasStk t = true → 0 < k.timeSlice t
    rw [h1, h2]
    exact hR.slices
  · change k.OSTickCnt < k.OSCheckTime
    rw [hk.check, show k.OSTickCnt = s.OSTickCnt from congrArg Frame.OSTickCnt hf]
    refine hR.equals h (hk.rdy u hu) ?_
    rw [← hp u hu, ← hr]
    exact he

theorem RdyKept.facing_same (hk : RdyKept s g k) (h : Stable cfg s g r) (hi : s.IsrReq = false)
    (hR : Robin s) : Facing k r q := by
  have hp : k.prio = s.prio := congrArg Frame.prio hk.frame
  exact hk.facing h hi hR (congrFun hp r) fun u _ => congrFun hp u

/-- A ready task is taken out of the ready list. -/
theorem Stable.removed (h : Stable cfg s g r) (hloc : g.tcb.loc t = some .rdy) (h0 : t ≠ 0) :
    ∃ T, removeFromTCBRdyList cfg (osSchedLock s) t =
        some ((osSchedLock s).unreadied ((osSchedLock s).rdyLinks.unlink t) T) ∧
      RdyKept s g ((osSchedLock s).unreadied ((osSchedLock s).rdyLinks.unlink t) T) ∧
      ((osSchedLock s).rdyLinks.unlink t).head ≠ some t := by
  obtain ⟨T, e1, e2⟩ := h.enter.remove hloc h0
  have hhead : ((osSchedLock s).rdyLinks.unlink t).head = ((g.tcb.lst .rdy).erase t).head? :=
    (head_rdy e2.coh.rep).trans (congrArg List.head? (Family.take_lst_self ..))
  refine ⟨T, e1, ⟨rfl, rfl, rfl, rfl, fun u hu => ?_⟩, fun e => ?_⟩
  · exact List.mem_of_mem_erase (List.mem_of_head? (hhead.symm.trans hu))
  · have hnd : (g.tcb.lst .rdy).Nodup := (h.coh.rep.tcb.single .rdy).nodup
    exact hnd.not_mem_erase (List.mem_of_head? (hhead.symm.trans e))

theorem unlocked_pair {α : Type} {a : α} {P : Kernel → Prop} (h : Ensures (osSchedUnlock cfg k) P) :
    Ensures ((osSchedUnlock cfg k).bind fun s => some (s, a)) fun x => P x.1 :=
  Ensures.bind h fun _ hs => .some hs

theorem coSuspendTask_robin (h : Stable cfg s g r) (hi : s.IsrReq = false) (hR : Robin s)
    (hrob : cfg.robinEn = true) (hlive : Live cfg g t) :
    Ensures (coSuspendTask cfg s t) fun x => Robin x.1 := by
  unfold coSuspendTask
  refine .ite (fun _ => .some hR) fun h0 => .ite (fun _ => .some hR) fun _ => ?_
  refine .ite (fun _ => .some hR) fun hd => .ite (fun _ => .some hR) fun _ => ?_
  refine .ite (fun _ => .some hR) fun hw => .ite (fun hne => ?_) fun _ => ?_
  · have hst : s.state t = .READY := by
      cases hst : s.state t with
      | READY => rfl
      | RUNNING =>
        obtain rfl := h.eq_of_running hlive hst
        exact absurd h.running.symm hne
      | WAITING => exact absurd hst hw
      | DORMANT => exact absurd hst hd
    obtain ⟨T, e1, hk, -⟩ := h.removed ((h.coh.ready_iff hlive).mpr hst) h0
    rw [e1]
    have hf : Facing _ r False := hk.facing_same h hi hR
    have hf2 : Facing { (osSchedLock s).unreadied ((osSchedLock s).rdyLinks.unlink t) T with
      state := update s.state t .WAITING } r False := hf.congr rfl
    exact unlocked_pair (hf2.unlock hrob)
  · have hf : Facing (osSchedLock s) r False := h.kept.facing_same h hi hR
    have hf2 : Facing { osSchedLock s with
      TaskSchedReq := true, state := update s.state t .WAITING } r False := hf.request.congr rfl
    exact unlocked_pair (hf2.unlock hrob)

theorem coAwakeTask_robin (h : Stable cfg s g r) (hi : s.IsrReq = false) (hR : Robin s)
    (hrob : cfg.robinEn = true) (t : Nat) : Ensures (coAwakeTask cfg s t) fun x => Robin x.1 := by
  unfold coAwakeTask
  refine .ite (fun _ => .some hR) fun _ => .ite (fun _ => .some hR) fun _ => ?_
  refine .ite (fun _ => .some hR) fun _ => .ite (fun _ => .some hR) fun _ => ?_
  refine .ite (fun _ => .some hR) fun _ => .ite (fun _ => .some hR) fun _ => ?_
  refine .ite (fun _ => .some hR) fun _ => .ite (fun _ => .some hR) fun _ => ?_
  have hf : Facing (osSchedLock s) r False := h.kept.facing_same h hi hR
  exact Ensures.bind (hf.insert hrob t) fun s1 h1 => unlocked_pair (h1.1.unlock hrob)

theorem coTickDelay_robin (h : Stable cfg s g r) (hi : s.IsrReq = false) (hR : Robin s)
    (hrob : cfg.robinEn = true) (n : Nat) : Ensures (coTickDelay cfg s n) fun x => Robin x.1 := by
  unfold coTickDelay
  refine .ite (fun _ => .some hR) fun _ => .ite (fun _ => .some hR) fun _ => ?_
  refine .ite (fun _ => .some hR) fun _ => .ite (fun _ => .some hR) fun _ => ?_
  split
  · exact .none
  · have hf : Facing (osSchedLock s) r False := h.kept.facing_same h hi hR
    have hins : Ensures (insertDelayList cfg (osSchedLock s) ‹Nat› n) fun k =>
      Facing k r False := by
      unfold insertDelayList
      refine .ite (fun _ => .some hf) fun _ => ?_
      refine Ensures.skip fun D => ?_
      exact .some (hf.request.congr rfl)
    exact Ensures.bind hins fun s1 h1 => unlocked_pair (h1.unlock hrob)

theorem coDelTask_robin (h : Stable cfg s g r) (hi : s.IsrReq = false) (hR : Robin s)
    (hrob : cfg.robinEn = true) (hlive : Live cfg g t) (hm : s.mutexID t = INVALID_ID) :
    Ensures (coDelTask cfg s t) fun x => Robin x.1 := by
  have hd := h.coh.not_dormant hlive
  by_cases h0 : t = 0
  · have : coDelTask cfg s t = some (s, .E_PROTECTED_TASK) := by
      unfold coDelTask
      rw [if_neg (Nat.not_le_of_lt hlive.1), if_neg hd, if_pos h0]
    rw [this]
    exact .some hR
  rw [coDelTask_eq hlive hd h0 h.lock hm]
  refine Ensures.bind (P := RdyKept s g) ?_ fun s1 hk => ?_
  · split
    · next hst =>
      obtain ⟨T, e1, hk, -⟩ := h.removed ((h.coh.ready_iff hlive).mpr hst) h0
      rw [e1]
      exact .some hk
    · exact (leaveWaiting_slot (s := osSchedLock s) hm).imp fun k e => h.kept.slot e
    · exact .some h.kept
  dsimp only
  have hf : Facing s1 r False := hk.facing_same h hi hR
  have h2 : Facing { s1 with state := update s1.state t .DORMANT, TaskSchedReq := true } r False :=
    hf.request.congr rfl
  have htab : Ensures (if cfg.orderListScheduleEn then
      some { s1 with state := update s1.state t .DORMANT, TaskSchedReq := true }
      else deleteTaskPri
        { s1 with state := update s1.state t .DORMANT, TaskSchedReq := true } (s1.prio t))
      fun k => Facing k r False :=
    .ite (fun _ => .some h2) fun _ => (deleteTaskPri_slot _ _).imp fun k e => h2.congr e
  refine Ensures.bind htab fun s3 h3 => ?_
  have h4 : Facing (s3.freed t) r False := h3.congr rfl
  exact unlocked_pair (h4.unlock hrob)

/-- `CoSetPriority` of a ready task, in the ordered build. -/
theorem reorderReady_robin (h : Stable cfg s g r) (hi : s.IsrReq = false) (hR : Robin s)
    (hrob : cfg.robinEn = true) (hord : cfg.orderListScheduleEn = true) (hlive : Live cfg g t)
    (hst : s.state t = .READY) (h0 : t ≠ 0) (p : Nat) :
    Ensures (reorderReady cfg (osSchedLock { s with prio := update s.prio t p }) t)
      fun k => Facing k r False := by
  have htr : r ≠ t := by
    rintro rfl
    rw [h.picked.running] at hst
    exact nomatch hst
  obtain ⟨T, -, hk, hne⟩ := h.removed ((h.coh.ready_iff hlive).mpr hst) h0
  let s1 : Kernel := (osSchedLock s).setRdyLinks ((osSchedLock s).rdyLinks.unlink t)
  have hk1 : RdyKept s g s1 := hk.slot rfl
  have hf : Facing { s1 with prio := update s.prio t p } r False := by
    refine hk1.facing h hi hR (Function.update_of_ne htr ..) fun u hu => ?_
    refine Function.update_of_ne ?_ ..
    rintro rfl
    exact hne hu
  have hrem : removeFromTCBRdyList cfg (osSchedLock { s with prio := update s.prio t p }) t =
      some { s1 with prio := update s.prio t p } := if_pos hord
  unfold reorderReady
  rw [hrem, Option.bind_eq_bind, Option.bind_some]
  exact (hf.insert hrob t).imp fun _ e => e.1

/-- `CoSetPriority` of a task that waits. -/
theorem reorderWaiting_robin (hf : Facing (osSchedLock s) r False) (hrob : cfg.robinEn = true)
    (hR : Robin s) (t : Nat) : Ensures (reorderWaiting cfg s t) Robin := by
  unfold reorderWaiting
  refine .ite (fun _ => ?_) fun _ => .some hR
  unfold eventTaskToWait
  have h1 : Facing { osSchedLock (removeEventWaittingList s t) with
      eventID := update (removeEventWaittingList s t).eventID t (s.eventID t) } r False :=
        hf.congr rfl
  refine Ensures.bind (linkWaiting_slot _ _ _) fun s2 e2 => ?_
  have h2 : Facing s2 r False := h1.congr e2
  have h3 : Facing { s2 with state := update s2.state t .WAITING, TaskSchedReq := true } r False :=
    h2.request.congr rfl
  exact h3.unlock hrob

theorem coSetPriority_robin (h : Stable cfg s g r) (hi : s.IsrReq = false) (hR : Robin s)
    (hrob : cfg.robinEn = true) (hlive : Live cfg g t) (hm : s.mutexID t = INVALID_ID) {p : Nat}
    (hb : cfg.orderListScheduleEn = true ∨ s.state t ≠ .READY)
    (hrun : t = r → ∀ a, s.TCBRdy = some a → s.prio a = p → s.OSTickCnt < s.OSCheckTime) :
    Ensures (coSetPriority cfg s t p) fun x => Robin x.1 := by
  have hd := h.coh.not_dormant hlive
  have hchecks : (t = 0 ∨ cfg.lowestPrio < p ∨ s.prio t = p) →
      Ensures (coSetPriority cfg s t p) fun x => Robin x.1 := by
    intro hc
    unfold coSetPriority coSetPriorityN
    refine .ite (fun _ => .some hR) fun h0 => .ite (fun _ => .some hR) fun _ => ?_
    refine .ite (fun _ => .some hR) fun _ => .ite (fun _ => .some hR) fun hl => ?_
    refine .ite (fun _ => .some hR) fun hp => ?_
    exact absurd (hc.resolve_left h0) (not_or.mpr ⟨hl, hp⟩)
  by_cases hc : t = 0 ∨ cfg.lowestPrio < p ∨ s.prio t = p
  · exact hchecks hc
  obtain ⟨h0, hlp, hpe⟩ : t ≠ 0 ∧ ¬ cfg.lowestPrio < p ∧ s.prio t ≠ p :=
    ⟨fun e => hc (Or.inl e), fun e => hc (Or.inr (Or.inl e)), fun e => hc (Or.inr (Or.inr e))⟩
  have hp : p < 256 := by
    have := cfg.lowestPrio_le
    omega
  rw [coSetPriority_eq hlive hd h0 (Nat.le_of_not_lt hlp) hpe hm]
  have hmem := fun a (ha : s.TCBRdy = some a) =>
    (h.coh.rep.tcb.mem .rdy a).mp (h.kept.rdy a ha)
  cases hst : s.state t with
  | READY =>
    have hord := hb.resolve_right fun e => e hst
    rw [show changeTaskPri cfg s (s.prio t) p = some s from if_pos hord, Option.bind_some]
    dsimp only
    rw [hst]
    dsimp only
    exact Ensures.bind (reorderReady_robin h hi hR hrob hord hlive hst h0 p) fun s1 h1 =>
      unlocked_pair (h1.unlock hrob)
  | RUNNING =>
    obtain rfl := h.eq_of_running hlive hst
    have hloc : g.tcb.loc t ≠ some .rdy := by
      rw [(h.coh.loc_of_running hlive hst).1]
      decide
    have hhd : ∀ a, s.TCBRdy = some a → a ≠ t := fun a ha e => hloc (e ▸ hmem a ha)
    obtain ⟨T, e1, -⟩ := h.coh.setPrio hlive hloc hp
    rw [e1, Option.bind_some]
    dsimp only
    rw [show (s.setPriTable T).state t = .RUNNING from hst]
    refine .ite (fun hlt => ?_) fun _ => .some ?_
    · -- the head is more urgent now, so it takes over
      let s2 : Kernel := { osSchedLock (s.reprio T t p) with TaskSchedReq := true }
      have hf : Facing s2 t False := by
        refine ⟨h.running, h.picked.next, congrArg Nat.succ h.lock, h.coh.nest, hi,
          h.coh.stk t h.picked.live, hR.slices, fun a ha _ he => ?_⟩
        change update s.prio t p a = update s.prio t p t at he
        change prioOf cfg (s.reprio T t p) s.TCBRdy < update s.prio t p t at hlt
        rw [show s.TCBRdy = some a from ha] at hlt
        change update s.prio t p a < update s.prio t p t at hlt
        omega
      exact unlocked_pair (hf.unlock hrob)
    · refine ⟨hR.slices, fun n a hn _ ha _ he => ?_⟩
      obtain rfl : t = n := Option.some.inj (h.picked.next.symm.trans hn)
      change update s.prio t p a = update s.prio t p t at he
      rw [Function.update_self, Function.update_of_ne (hhd a ha)] at he
      exact hrun rfl a ha he
  | WAITING =>
    have htr : r ≠ t := by
      rintro rfl
      rw [h.picked.running] at hst
      exact absurd hst (by decide)
    have hloc : g.tcb.loc t ≠ some .rdy := fun e => by
      rw [(h.coh.ready_iff hlive).mp e] at hst
      exact absurd hst (by decide)
    have hhd : ∀ a, s.TCBRdy = some a → a ≠ t := fun a ha e => hloc (e ▸ hmem a ha)
    obtain ⟨T, e1, -⟩ := h.coh.setPrio hlive hloc hp
    rw [e1, Option.bind_some]
    dsimp only
    rw [show (s.setPriTable T).state t = .WAITING from hst]
    dsimp only
    have hR2 : Robin (s.reprio T t p) := by
      refine ⟨hR.slices, fun n a hn hs ha hne he => hR.armed n a hn hs ha hne ?_⟩
      obtain rfl : r = n := Option.some.inj (h.picked.next.symm.trans hn)
      change update s.prio t p a = update s.prio t p r at he
      rwa [Function.update_of_ne (hhd a ha), Function.update_of_ne htr] at he
    have hf : Facing { osSchedLock s with prio := update s.prio t p } r False :=
      h.kept.facing h hi hR (Function.update_of_ne htr ..) fun u hu =>
        Function.update_of_ne (hhd u hu) ..
    have hf2 : Facing (osSchedLock (s.reprio T t p)) r False := hf.congr rfl
    have hend : Ensures (if (s.reprio T t p).eventID t ≠ INVALID_ID then
        reorderWaiting cfg (s.reprio T t p) t else some (s.reprio T t p)) Robin :=
      .ite (fun _ => reorderWaiting_robin hf2 hrob hR2 t) fun _ => .some hR2
    exact Ensures.bind hend fun s3 h3 => .some h3
  | DORMANT => exact absurd hst hd

theorem newSlice_pos (hsl : 0 < cfg.defaultSlice) (parameter : Nat) :
    0 < newSlice cfg parameter := by
  unfold newSlice
  split
  · exact hsl
  · omega

/-- A new TCB. -/
theorem slices_update {stk : Nat → Bool} {slice : Nat → Nat} {n : Nat} (hn : 0 < n)
    (h : ∀ u, stk u = true → 0 < slice u) (u : Nat) (hu : update stk t true u = true) :
    0 < update slice t n u := by
  by_cases hut : u = t
  · rw [hut, Function.update_self]
    exact hn
  · rw [Function.update_of_ne hut] at hu ⊢
    exact h u hu

theorem createTask_robin (h : Stable cfg s g r) (hr : r ≠ 0) (hi : s.IsrReq = false) (hR : Robin s)
    (hrob : cfg.robinEn = true) (hsl : 0 < cfg.defaultSlice) (task stk parameter : Nat) :
    Ensures (createTask cfg s task stk parameter) fun x => Robin x.1 := by
  rw [createTask_eq h hr hi]
  refine .ite (fun _ => .some hR) fun _ => ?_
  split
  · exact .some hR
  · next t hfree =>
    have hhead : s.FreeTCB = (g.tcb.lst .free).head? := (h.coh.rep.tcb.single .free).head
    have hloc : g.tcb.loc t = some .free :=
      (h.coh.rep.tcb.mem .free t).mp (List.mem_of_head? (hhead.symm.trans hfree))
    have htr : r ≠ t := by
      rintro rfl
      exact h.picked.live.2 hloc
    have hhd : ∀ a, s.TCBRdy = some a → a ≠ t := by
      rintro a ha rfl
      have := (h.coh.rep.tcb.mem .rdy a).mp (h.kept.rdy a ha)
      rw [hloc] at this
      exact nomatch this
    let s1 : Kernel := s.assigned t (parameter &&& 0xff) (newSlice cfg parameter)
    have hslices := slices_update (t := t) (newSlice_pos hsl parameter) hR.slices
    have hR1 : Robin s1 := by
      refine ⟨hslices, fun n a hn _ ha hne he => ?_⟩
      obtain rfl : r = n := Option.some.inj (h.picked.next.symm.trans hn)
      change update s.prio t (parameter &&& 0xff) a = update s.prio t (parameter &&& 0xff) r at he
      rw [Function.update_of_ne (hhd a ha), Function.update_of_ne htr] at he
      exact hR.armed r a h.picked.next (h.coh.stk r h.picked.live) ha hne he
    have hf1 : Facing (osSchedLock s1) r False :=
      ⟨h.running, h.picked.next, congrArg Nat.succ h.lock, h.coh.nest, hi,
        (Function.update_of_ne htr ..).trans (h.coh.stk r h.picked.live), hslices,
        fun a ha hne he => Or.inl (hR1.armed r a h.picked.next
          ((Function.update_of_ne htr ..).trans (h.coh.stk r h.picked.live)) ha hne he)⟩
    have htab : Ensures (if cfg.orderListScheduleEn then some s1
        else activeTaskPri s1 (parameter &&& 0xff)) fun k => k.slot = s1.slot :=
      .ite (fun _ => .some rfl) fun _ => activeTaskPri_slot _ _
    refine Ensures.bind htab fun s2 e2 => ?_
    have hR2 : Robin s2 := hR1.congr e2
    have e3 : (osSchedLock s2).slot = (osSchedLock s1).slot := slot_lock e2
    have hf2 : Facing (osSchedLock s2) r False := hf1.congr e3
    unfold startTask
    refine .ite (fun _ => ?_) fun _ => .some (hR2.congr rfl)
    exact Ensures.bind (hf2.insert hrob t) fun s3 h3 => unlocked_pair (h3.1.unlock hrob)

/-- **SysTick_Handler**: a slice that ends with this tick is seen by its `Schedule`. -/
theorem sysTick_robin (h : Stable cfg s g r) (hi : s.IsrReq = false) (hR : Robin s)
    (hrob : cfg.robinEn = true) : Ensures (sysTick_Handler cfg s) Robin := by
  let s1 : Kernel := { osSchedLock s with OSTickCnt := s.OSTickCnt + 1 }
  have hf : Facing s1 r True := by
    refine ⟨h.running, h.picked.next, congrArg Nat.succ h.lock, h.coh.nest, hi,
      h.coh.stk r h.picked.live, hR.slices, fun a ha hne he => ?_⟩
    have := hR.armed r a h.picked.next (h.coh.stk r h.picked.live) ha hne he
    change s.OSTickCnt + 1 < s.OSCheckTime ∨ (s.OSTickCnt + 1 = s.OSCheckTime ∧ _)
    exact (Nat.lt_or_eq_of_le this).imp id fun e => ⟨e, Or.inr trivial⟩
  have hdly : Ensures (sysTickDelay cfg s1) fun k => Facing k r True ∧ k.frame = s1.frame := by
    unfold sysTickDelay
    split
    · exact .some ⟨hf, rfl⟩
    · next hd _ =>
      refine .ite (fun _ => .some ⟨hf.congr rfl, rfl⟩) fun _ => ?_
      unfold isr_TimeDispose
      have hf2 : Facing { s1 with delayTick := update s1.delayTick hd 0 } r True := hf.congr rfl
      refine .ite (fun hl => ?_) fun _ => ?_
      · have := hf2.lock
        omega
      · have hfr := timeDispose_frame cfg cfg.tasks (v := s1.frame)
          (s := { s1 with delayTick := update s1.delayTick hd 0 }) rfl
        exact fun k e => ⟨hf2.timeDispose hrob _ k e, hfr k e⟩
  unfold sysTick_Handler
  refine Ensures.bind hdly fun s2 h2 => ?_
  have htmr : sysTickTmr cfg s2 = some s2 := by
    unfold sysTickTmr
    rw [show s2.tmr = s.tmr from congrArg Frame.tmr h2.2, h.coh.tmr]
  rw [htmr, Option.bind_eq_bind, Option.bind_some]
  exact h2.1.request.unlock hrob

theorem takeSwitch_robin (hR : Robin s) : Robin (takeSwitch s) := by
  unfold takeSwitch
  split
  · exact hR
  · exact ⟨hR.slices, hR.armed⟩

end Calls

end CoOS
