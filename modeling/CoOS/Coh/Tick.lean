/-
  `TimeDispose` and `SysTick_Handler` on coherent states.

  A tick lowers every remaining delay by one; the tasks that reach zero leave the event they
  wait for and enter the ready list one after the other, in the order of the delay list
  (`Woken`). What is left of the delay list has at least one tick to go, so the loop of
  `TimeDispose` runs once for each of them (`timeDispose_spec`).
-/
import CoOS.Coh.Sched

namespace CoOS

open Function (update)
open DList KeyOrder

/-! ## Waking a list of tasks -/

/-- The task stops to wait for an event, if it does. -/
def Ghost.leave (g : Ghost) (t : Nat) : Ghost :=
  match g.evt.loc t with
  | none => g
  | some e => g.leaveEvent e t

/-- `RemoveLinkNode` in the columns of the flags. -/
def Aside.removeLink (a : Aside) (t : Nat) : Aside :=
  let a := match a.nextNode t, a.prevNode t with
    | none, none => { a with headNode := none, tailNode := none }
    | none, some p => { a with tailNode := some p, nextNode := update a.nextNode p none }
    | some n, none => { a with headNode := some n, prevNode := update a.prevNode n none }
    | some n, some p => { a with
        prevNode := update a.prevNode n (some p), nextNode := update a.nextNode p (some n) }
  { a with pnode := update a.pnode t .null }

/-- `if(ptcb->pnode != Co_NULL) RemoveLinkNode(ptcb->pnode)` in the columns of the flags. -/
def Aside.dropFlag (a : Aside) (t : Nat) : Aside :=
  match a.pnode t with
  | .node n => a.removeLink n
  | _ => a

theorem removeLinkNode_aside (s : Kernel) (t : Nat) :
    (removeLinkNode s t).aside = s.aside.removeLink t := by
  have hn : s.aside.nextNode t = s.nextNode t := rfl
  have hp : s.aside.prevNode t = s.prevNode t := rfl
  unfold removeLinkNode Aside.removeLink
  rw [hn, hp]
  cases s.nextNode t with
  | none =>
    cases s.prevNode t with
    | none => rfl
    | some p => rfl
  | some n =>
    cases s.prevNode t with
    | none => rfl
    | some p => rfl

theorem dropFlagNode_aside (s : Kernel) (t : Nat) :
    (dropFlagNode s t).aside = s.aside.dropFlag t := by
  have hp : s.aside.pnode t = s.pnode t := rfl
  unfold dropFlagNode Aside.dropFlag
  rw [hp]
  cases s.pnode t with
  | null => rfl
  | node n => exact removeLinkNode_aside s n
  | ones => rfl

@[simp] theorem Aside.removeLink_prio (a : Aside) (t : Nat) : (a.removeLink t).prio = a.prio := by
  unfold Aside.removeLink
  split
  · rfl
  · rfl
  · rfl
  · rfl

@[simp] theorem Aside.dropFlag_prio (a : Aside) (t : Nat) : (a.dropFlag t).prio = a.prio := by
  unfold Aside.dropFlag
  split
  · exact a.removeLink_prio _
  · rfl

/-- A task that is not first after its insertion has a task before it that is no less urgent. -/
theorem insert_first {t : Nat} {prio : Nat → Nat} {p : Nat} {l : List Nat} (hs : SortedKey prio l)
    (hl : ∀ u ∈ l, p ≤ prio u) (hne : (insertKey prio t l).head? ≠ some t) :
    ∀ u ∈ insertKey prio t l, p ≤ prio u := by
  intro u hu
  rcases mem_insertKey.mp hu with rfl | hu'
  · have hsort := hs.insertKey u
    cases hc : insertKey prio u l with
    | nil =>
      rw [hc] at hu
      exact absurd hu List.not_mem_nil
    | cons x k =>
      rw [hc] at hsort hne hu
      have hxu : x ≠ u := fun e => hne (by rw [e]; rfl)
      have hxl : x ∈ l := by
        have hx : x ∈ insertKey prio u l := by
          rw [hc]
          exact List.mem_cons_self
        exact (mem_insertKey.mp hx).resolve_left hxu
      have huk : u ∈ k := (List.mem_cons.mp hu).resolve_left fun e => hxu e.symm
      exact Nat.le_trans (hl x hxl) ((List.pairwise_cons.mp hsort).1 u huk)
  · exact hl u hu'

/-- The tasks of `T` were made ready one after the other. -/
structure Woken (T : List Nat) (s : Kernel) (g : Ghost) (s' : Kernel) (g' : Ghost) : Prop where
  rdy : g'.tcb.lst .rdy = T.foldl (fun l t => insertKey s.prio t l) (g.tcb.lst .rdy)
  loc : ∀ a, g'.tcb.loc a = if a ∈ T then some .rdy else g.tcb.loc a
  evt : ∀ a, g'.evt.loc a = if a ∈ T then none else g.evt.loc a
  evl : ∀ e, g'.evt.lst e = (g.evt.lst e).filter (· ∉ T)
  lst : ∀ k, k ≠ .rdy → k ≠ .dly → g'.tcb.lst k = g.tcb.lst k
  state : ∀ a, s'.state a = if a ∈ T then .READY else s.state a
  aside : s'.aside = T.foldl Aside.dropFlag s.aside
  cpu : s'.cpu = s.cpu
  first : s'.TaskSchedReq = true ∨ s'.TaskSchedReq = s.TaskSchedReq ∧
    ∀ p, (∀ u ∈ g.tcb.lst .rdy, p ≤ s.prio u) → ∀ u ∈ g'.tcb.lst .rdy, p ≤ s.prio u

theorem Woken.nil (s : Kernel) (g : Ghost) : Woken [] s g s g :=
  ⟨rfl, fun _ => rfl, fun _ => rfl, fun _ => by simp, fun _ _ _ => rfl, fun _ => rfl, rfl, rfl,
    Or.inr ⟨rfl, fun _ h => h⟩⟩

theorem Woken.cons {t : Nat} {T : List Nat} {s s1 s2 : Kernel} {g g1 g2 : Ghost}
    (h1 : Woken [t] s g s1 g1) (h2 : Woken T s1 g1 s2 g2) : Woken (t :: T) s g s2 g2 := by
  have hp : s1.prio = s.prio :=
    (congrArg Aside.prio h1.aside).trans (Aside.dropFlag_prio s.aside t)
  have hmem : ∀ {β : Type} (a : Nat) (x y : β),
      (if a ∈ T then x else if a ∈ [t] then x else y) = if a ∈ t :: T then x else y := by
    intro β a x y
    by_cases hT : a ∈ T
    · simp [hT]
    · simp [hT]
  refine ⟨?_, ?_, ?_, ?_, ?_, ?_, ?_, h2.cpu.trans h1.cpu, ?_⟩
  · rw [h2.rdy, h1.rdy, hp]
    rfl
  · intro a
    rw [h2.loc a, h1.loc a, hmem]
  · intro a
    rw [h2.evt a, h1.evt a, hmem]
  · intro e
    rw [h2.evl e, h1.evl e, List.filter_filter]
    apply List.filter_congr
    intro a _
    simp [Bool.and_comm]
  · intro k hk hk'
    rw [h2.lst k hk hk', h1.lst k hk hk']
  · intro a
    rw [h2.state a, h1.state a, hmem]
  · rw [h2.aside, h1.aside]
    rfl
  · rcases h2.first with e2 | ⟨e2, f2⟩
    · exact Or.inl e2
    · rw [e2]
      rw [hp] at f2
      exact h1.first.imp id fun ⟨e1, f1⟩ => ⟨e1, fun p h => f2 p (f1 p h)⟩

section Dispose

variable {cfg : Env} {s : Kernel} {g : Ghost} {t : Nat}

theorem fixHead_eq (s : Kernel) :
    (match s.DlyList with
      | none => s
      | some h => { s with TCBprev := update s.TCBprev h none }) = fixHead s := by
  split
  · next e =>
    have hc : clearPrev s.DlyList s.TCBprev = s.TCBprev := by
      rw [e]
      rfl
    show s = { s with TCBprev := clearPrev s.DlyList s.TCBprev }
    rw [hc]
  · next h e =>
    have hc : clearPrev s.DlyList s.TCBprev = update s.TCBprev h none := by
      rw [e]
      rfl
    show _ = { s with TCBprev := clearPrev s.DlyList s.TCBprev }
    rw [hc]

/-- The flag list is apart from the other lists. -/
theorem removeLinkNode_keeps (s : Kernel) (t : Nat) :
    (removeLinkNode s t).view = s.view ∧ (removeLinkNode s t).cpu = s.cpu ∧
      (removeLinkNode s t).TaskSchedReq = s.TaskSchedReq := by
  unfold removeLinkNode
  split
  · exact ⟨rfl, rfl, rfl⟩
  · exact ⟨rfl, rfl, rfl⟩
  · exact ⟨rfl, rfl, rfl⟩
  · exact ⟨rfl, rfl, rfl⟩

theorem removeLinkNode_late (s : Kernel) (t : Nat) : (removeLinkNode s t).Late ↔ s.Late := by
  unfold removeLinkNode
  split
  · exact Iff.rfl
  · exact Iff.rfl
  · exact Iff.rfl
  · exact Iff.rfl

theorem dropFlagNode_keeps (s : Kernel) (t : Nat) :
    (dropFlagNode s t).view = s.view ∧ (dropFlagNode s t).cpu = s.cpu ∧
      (dropFlagNode s t).TaskSchedReq = s.TaskSchedReq := by
  unfold dropFlagNode
  split
  · exact removeLinkNode_keeps s _
  · exact ⟨rfl, rfl, rfl⟩

theorem dropFlagNode_late (s : Kernel) (t : Nat) : (dropFlagNode s t).Late ↔ s.Late := by
  unfold dropFlagNode
  split
  · exact removeLinkNode_late s _
  · exact Iff.rfl

/-- The first part of a round: the task leaves the event it waits for. -/
theorem Coh.leave (h : Coh cfg s g) (hlive : Live cfg g t) :
    Coh cfg (if s.eventID t ≠ INVALID_ID then removeEventWaittingList s t else s) (g.leave t) := by
  have hiff := h.eventID_iff hlive
  cases he : g.evt.loc t with
  | none =>
    have hid : ¬ s.eventID t ≠ INVALID_ID := by
      rw [hiff, he]
      exact fun e => nomatch e.choose_spec
    rw [if_neg hid]
    unfold Ghost.leave
    rw [he]
    exact h
  | some e =>
    rw [if_pos (hiff.mpr ⟨e, he⟩)]
    unfold Ghost.leave
    rw [he]
    exact h.leaveEvent he

theorem Ghost.leave_evt (g : Ghost) (t a : Nat) :
    (g.leave t).evt.loc a = if a = t then none else g.evt.loc a := by
  unfold Ghost.leave
  by_cases hat : a = t
  · rw [hat, if_pos rfl]
    split
    · next he => exact he
    · simp [Ghost.leaveEvent]
  · rw [if_neg hat]
    split
    · rfl
    · simp [Ghost.leaveEvent, hat]

theorem Ghost.leave_lst (g : Ghost) (t e : Nat) (hm : t ∈ g.evt.lst e ↔ g.evt.loc t = some e)
    (hnd : (g.evt.lst e).Nodup) :
    (g.leave t).evt.lst e = (g.evt.lst e).filter (· ∉ [t]) := by
  have hf : (g.evt.lst e).erase t = (g.evt.lst e).filter (· ∉ [t]) := by
    rw [hnd.erase_eq_filter]
    apply List.filter_congr
    intro a _
    simp [bne, BEq.beq]
  have hoff : g.evt.loc t ≠ some e → (g.evt.lst e).filter (· ∉ [t]) = g.evt.lst e := by
    intro hne
    rw [← hf, List.erase_of_not_mem (fun h => hne (hm.mp h))]
  unfold Ghost.leave
  split
  · next he =>
    rw [hoff]
    rw [he]
    exact fun e => nomatch e
  · next e' he =>
    by_cases hee : e = e'
    · rw [← hee, ← hf]
      exact Family.take_lst_self ..
    · rw [hoff]
      · exact Family.take_lst_ne _ _ hee
      · rw [he]
        exact fun h => hee (Option.some.inj h).symm

theorem Ghost.leave_tcb (g : Ghost)
    (t : Nat) : (g.leave t).tcb = g.tcb ∧ (g.leave t).dly = g.dly := by
  unfold Ghost.leave
  split
  · exact ⟨rfl, rfl⟩
  · exact ⟨rfl, rfl⟩

/-- The columns that leaving an event does not write. -/
theorem leave_keeps (s : Kernel) (t : Nat) :
    let s' := if s.eventID t ≠ INVALID_ID then removeEventWaittingList s t else s
    s'.state = s.state ∧ s'.delayTick = s.delayTick ∧ s'.DlyList = s.DlyList ∧
      s'.aside = s.aside ∧ s'.cpu = s.cpu := by
  intro s'
  unfold s'
  split
  · exact ⟨rfl, rfl, rfl, rfl, rfl⟩
  · exact ⟨rfl, rfl, rfl, rfl, rfl⟩

theorem expire_keeps (s : Kernel) (t : Nat) (L : Links Nat) (T : PriTable) (ct : Nat) (req : Bool) :
    (fixHead ((dropHead s t).readied t L T ct req)).aside = s.aside ∧
      (fixHead ((dropHead s t).readied t L T ct req)).cpu = s.cpu := by
  have hf : ∀ s, (fixHead s).aside = s.aside ∧ (fixHead s).cpu = s.cpu := fun _ => ⟨rfl, rfl⟩
  have hd : ∀ s, (dropHead s t).aside = s.aside ∧ (dropHead s t).cpu = s.cpu := fun _ => ⟨rfl, rfl⟩
  rw [(hf _).1, (hf _).2, readied_aside, readied_cpu]
  exact hd s

/-- One round of `TimeDispose`. -/
theorem timeDispose_round (h : Coh cfg s g) {l : List (Nat × Nat)} (hd : g.dly = (t, 0) :: l) :
    ∃ s' g', (∀ fuel, timeDispose cfg (fuel + 1) s = timeDispose cfg fuel s') ∧ Coh cfg s' g' ∧
      g'.dly = l ∧ Woken [t] s g s' g' := by
  have hi := h.rep.isDelta
  rw [hd] at hi
  have hhead : s.DlyList = some t := hi.links.head
  have hcnt : s.delayTick t = 0 := hi.cnts.2.1
  have hloc : g.tcb.loc t = some .dly := h.rep.mem_dly.mp (by rw [hd]; simp)
  have hlive : Live cfg g t := ⟨h.rep.lt t .dly hloc, by rw [hloc]; exact fun e => nomatch e⟩
  let s1 : Kernel := if s.eventID t ≠ INVALID_ID then removeEventWaittingList s t else s
  have h1 : Coh cfg s1 (g.leave t) := h.leave hlive
  obtain ⟨htcb, hdly⟩ := g.leave_tcb t
  obtain ⟨k1, k2, k3, k4, k5⟩ := leave_keeps s t
  obtain ⟨d1, d3, d4⟩ := dropFlagNode_keeps s1 t
  have d2 : (dropFlagNode s1 t).aside = s.aside.dropFlag t :=
    (dropFlagNode_aside s1 t).trans (congrArg (fun a => a.dropFlag t) k4)
  let s2 : Kernel := dropFlagNode s1 t
  have h1' : Coh cfg s2 (g.leave t) := h1.congr d1
  have hp : s2.prio = s.prio :=
    (congrArg Aside.prio d2).trans (Aside.dropFlag_prio s.aside t)
  have hst : s2.state = s.state := (congrArg KView.state d1).trans k1
  have he1 : (g.leave t).evt.loc t = none := by
    rw [g.leave_evt, if_pos rfl]
  obtain ⟨L, T, ct, h2, h3⟩ := @Coh.expire cfg s2 (g.leave t) t h1' l (by rw [hdly, hd]) he1
  refine ⟨_, _, ?_, h3 (s2.TaskSchedReq ||
    decide ((insertKey s2.prio t ((g.leave t).tcb.lst .rdy)).head? = some t)), ?_, ?_⟩
  · intro fuel
    conv_lhs => unfold timeDispose
    rw [hhead]
    dsimp only
    rw [if_neg (by rw [hcnt]; simp)]
    change (insertToTCBRdyList cfg (dropHead s2 t) t).bind _ = _
    rw [h2, Option.bind_some]
    exact congrArg (timeDispose cfg fuel) (fixHead_eq _)
  · have hnd : (((t, 0) :: l).map Prod.fst).Nodup := hi.links.nodup
    have hw : without g.dly t = l := by
      rw [hd]
      exact @without_split t [] l 0 (by simpa using hnd)
    simp only [Ghost.mkReady, Ghost.undelay, hdly, hw]
  · have hlst : (g.leave t).tcb.lst .rdy = g.tcb.lst .rdy := by rw [htcb]
    obtain ⟨f1, f2⟩ := expire_keeps s2 t L T ct (s2.TaskSchedReq ||
      decide ((insertKey s2.prio t ((g.leave t).tcb.lst .rdy)).head? = some t))
    have hreq : s2.TaskSchedReq = s.TaskSchedReq := by
      refine d4.trans ?_
      unfold s1
      split
      · rfl
      · rfl
    refine ⟨?_, ?_, ?_, ?_, ?_, ?_, f1.trans d2, f2.trans (d3.trans k5), ?_⟩
    · simp only [Ghost.mkReady, Family.put_lst_self, Ghost.undelay, List.foldl_cons, List.foldl_nil]
      rw [Family.take_lst_ne _ _ (by decide), hlst, hp]
    · intro a
      by_cases hat : a = t
      · simp [Ghost.mkReady, hat]
      · simp [Ghost.mkReady, Ghost.undelay, hat, htcb]
    · intro a
      have := g.leave_evt t a
      simpa [Ghost.mkReady, Ghost.undelay] using this
    · intro e
      exact g.leave_lst t e (h.rep.evt.mem e t) (h.rep.evt.double e rfl).nodup
    · intro k hk hk'
      simp only [Ghost.mkReady, Ghost.undelay]
      rw [Family.put_lst_ne _ _ hk, Family.take_lst_ne _ _ hk', htcb]
    · intro a
      change update s2.state t .READY a = _
      rw [hst]
      by_cases hat : a = t
      · simp [hat]
      · simp [hat]
    · change (s2.TaskSchedReq || decide (_ = some t)) = true ∨
        (s2.TaskSchedReq || decide (_ = some t)) = _ ∧ _
      rw [hreq]
      by_cases hf : (insertKey s2.prio t ((g.leave t).tcb.lst .rdy)).head? = some t
      · rw [decide_eq_true hf, Bool.or_true]
        exact Or.inl rfl
      · rw [decide_eq_false hf, Bool.or_false]
        refine Or.inr ⟨rfl, fun p h1 => ?_⟩
        simp only [Ghost.mkReady, Family.put_lst_self, Ghost.undelay]
        rw [Family.take_lst_ne _ _ (by decide), hlst, hp]
        rw [hlst, hp] at hf
        exact insert_first h.rep.sorted h1 hf

/-- **TimeDispose** releases the tasks whose time is up, in the order of the delay list. -/
theorem timeDispose_spec (fuel : Nat) (Z : List (Nat × Nat)) {R : List (Nat × Nat)}
    (hz : ∀ x ∈ Z, x.2 = 0) (hR : ∀ x ∈ R, 1 ≤ x.2) (hf : Z.length ≤ fuel) (h : Coh cfg s g)
    (hd : g.dly = Z ++ R) :
    ∃ s' g', timeDispose cfg fuel s = some s' ∧ Coh cfg s' g' ∧ g'.dly = R ∧
      Woken (Z.map Prod.fst) s g s' g' := by
  induction Z generalizing fuel s g with
  | nil =>
    -- the loop stops: the list is empty or its head has ticks left
    refine ⟨s, g, ?_, h, hd, Woken.nil s g⟩
    have hi := h.rep.isDelta
    rw [hd] at hi
    unfold timeDispose
    cases R with
    | nil =>
      have hhead : s.DlyList = none := hi.links.head
      rw [hhead]
    | cons x R =>
      have hhead : s.DlyList = some x.1 := hi.links.head
      have hcnt : s.delayTick x.1 = x.2 - 0 := hi.cnts.2.1
      have := hR x List.mem_cons_self
      rw [hhead]
      dsimp only
      rw [if_pos (by rw [hcnt]; omega)]
  | cons x Z ih =>
    rw [List.length_cons] at hf
    obtain ⟨n, rfl⟩ := Nat.exists_eq_succ_of_ne_zero (show fuel ≠ 0 by omega)
    have hx : x = (x.1, 0) := by
      rw [← hz x List.mem_cons_self]
    rw [hx, List.cons_append] at hd
    obtain ⟨s1, g1, e1, e2, e3, e4⟩ := timeDispose_round h hd
    obtain ⟨s2, g2, f1, f2, f3, f4⟩ := ih n (fun y hy => hz y (List.mem_cons_of_mem _ hy))
      (by omega) e2 e3
    exact ⟨s2, g2, (e1 n).trans f1, f2, f3, e4.cons f4⟩

end Dispose

/-! ## The tick -/

/-- One tick less. -/
def dec (x : Nat × Nat) : Nat × Nat := (x.1, x.2 - 1)

/-- The tasks that the next tick releases, in order. -/
def due (l : List (Nat × Nat)) : List Nat := (l.filter fun x => decide (x.2 ≤ 1)).map Prod.fst

/-- What the next tick leaves in the delay list. -/
def later (l : List (Nat × Nat)) : List (Nat × Nat) := (l.filter fun x => decide (1 < x.2)).map dec

section Tick

variable {cfg : Env} {s : Kernel} {g : Ghost}

theorem due_append_later {l : List (Nat × Nat)} (h : SortedKey Prod.snd l) :
    l.map dec = (l.filter fun x => decide (x.2 ≤ 1)).map dec ++ later l := by
  unfold later
  rw [← List.map_append, ← (takeWhile_eq_filter h 1).1, ← (takeWhile_eq_filter h 1).2,
    List.takeWhile_append_dropWhile]

theorem later_pos {l : List (Nat × Nat)} : ∀ x ∈ later l, 1 ≤ x.2 := by
  intro y hy
  obtain ⟨z, hz, rfl⟩ := List.mem_map.mp hy
  have := (List.mem_filter.mp hz).2
  simp only [decide_eq_true_eq] at this
  simp only [dec]
  omega

theorem sysTickDelay_none (hd : s.DlyList = none) : sysTickDelay cfg s = some s := by
  unfold sysTickDelay
  split
  · rfl
  · next e =>
    rw [hd] at e
    exact nomatch e

theorem sysTickDelay_some {t : Nat} (hd : s.DlyList = some t) :
    sysTickDelay cfg s =
      if 1 < s.delayTick t then
        some { s with delayTick := update s.delayTick t (s.delayTick t - 1) }
      else isr_TimeDispose cfg { s with delayTick := update s.delayTick t 0 } := by
  unfold sysTickDelay
  split
  · next e =>
    rw [hd] at e
    exact nomatch e
  · next e =>
    rw [hd] at e
    cases e
    rfl

/-- The delay part of **SysTick_Handler**. -/
theorem sysTickDelay_spec (h : Coh cfg s g) (hlock : s.OSSchedLock ≤ 1)
    (hticks : ∀ x ∈ g.dly, 1 ≤ x.2) :
    ∃ s' g', sysTickDelay cfg s = some s' ∧ Coh cfg s' g' ∧ g'.dly = later g.dly ∧
      Woken (due g.dly) s g s' g' := by
  have hi := h.rep.isDelta
  have hsort : SortedKey Prod.snd g.dly := h.rep.deltas.sorted
  have hnone : s.DlyList = (g.dly.map Prod.fst).head? := hi.links.head
  cases hd : g.dly with
  | nil =>
    rw [hd] at hnone
    exact ⟨s, g, sysTickDelay_none hnone, h, hd, Woken.nil s g⟩
  | cons x l =>
    rw [hd] at hi hticks hsort hnone
    have hx := hticks x List.mem_cons_self
    have hcnt : s.delayTick x.1 = x.2 := hi.cnts.2.1
    have h1 := h.tickDown hd hx
    rw [hcnt] at h1
    have hsplit := due_append_later hsort
    rw [sysTickDelay_some hnone, hcnt]
    by_cases hgt : 1 < x.2
    · -- nobody is due: the head, and so everybody, has more than one tick left
      rw [if_pos hgt]
      have hle : ∀ y ∈ x :: l, x.2 ≤ y.2 := by
        intro y hy
        rcases List.mem_cons.mp hy with rfl | hy
        · exact Nat.le_refl _
        · exact (List.pairwise_cons.mp hsort).1 y hy
      have hnil : (x :: l).filter (fun x => decide (x.2 ≤ 1)) = [] := by
        apply List.filter_eq_nil_iff.mpr
        intro y hy
        have := hle y hy
        simp only [decide_eq_true_eq]
        omega
      refine ⟨_, g.tickDown, rfl, h1, ?_, ?_⟩
      · rw [hnil, List.map_nil, List.nil_append] at hsplit
        rw [← hsplit, ← hd]
        rfl
      · unfold due
        rw [hnil]
        exact ⟨rfl, fun _ => rfl, fun _ => rfl, fun _ => by simp [Ghost.tickDown], fun _ _ _ => rfl,
          fun _ => rfl, rfl, rfl, Or.inr ⟨rfl, fun _ h => h⟩⟩
    · rw [if_neg hgt]
      have hx1 : x.2 - 1 = 0 := by omega
      rw [hx1] at h1
      unfold isr_TimeDispose
      rw [if_neg (show ¬ 1 < s.OSSchedLock by omega)]
      have hz : ∀ y ∈ ((x :: l).filter fun x => decide (x.2 ≤ 1)).map dec, y.2 = 0 := by
        intro y hy
        obtain ⟨z, hz, rfl⟩ := List.mem_map.mp hy
        have := (List.mem_filter.mp hz).2
        simp only [decide_eq_true_eq] at this
        simp only [dec]
        omega
      have hlen : (((x :: l).filter fun x => decide (x.2 ≤ 1)).map dec).length ≤ cfg.tasks := by
        rw [List.length_map]
        refine Nat.le_trans (List.length_filter_le _ _) ?_
        rw [← hd]
        exact h.rep.dly_length
      have hdly : g.tickDown.dly = ((x :: l).filter fun x => decide (x.2 ≤ 1)).map dec ++
          later (x :: l) := by
        rw [← hsplit, ← hd]
        rfl
      obtain ⟨s', g', e1, e2, e3, e4⟩ := timeDispose_spec cfg.tasks _ hz later_pos hlen h1 hdly
      have hdue : (((x :: l).filter fun x => decide (x.2 ≤ 1)).map dec).map Prod.fst =
          due (x :: l) := by
        rw [List.map_map]
        rfl
      rw [hdue] at e4
      exact ⟨s', g', e1, e2, e3, e4.rdy, e4.loc, e4.evt, e4.evl, e4.lst, e4.state, e4.aside,
        e4.cpu, e4.first⟩

end Tick

end CoOS
