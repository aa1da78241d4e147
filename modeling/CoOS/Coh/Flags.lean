/-
  Flags on coherent states.

  `FlagList a F` says that the flag nodes form the list `F`, with the tail where `tailNode`
  points and `pnode` set exactly for its tasks. The loop of `CoSetFlag` releases the tasks of
  the list whose node is satisfied, all of them or the first (`released`); that of `CoDelFlag`
  releases tasks and shrinks the sets of others (`delFlagLoop_spec`).
-/
import CoOS.Lib.Mask
import CoOS.Coh.Events

namespace CoOS

open Function (update)
open DList KeyOrder

/-! ## One flag -/

theorem getLsbD_flagBit {id i : Nat} (h : i < 32) : (flagBit id).getLsbD i = decide (i = id) := by
  unfold flagBit
  rw [BitVec.getLsbD_shiftLeft, BitVec.getLsbD_one, Bool.eq_iff_iff]
  simp only [h, decide_true, Bool.true_and, Bool.and_eq_true, Bool.not_eq_true',
    decide_eq_false_iff_not, decide_eq_true_eq]
  omega

theorem and_flagBit {x : BitVec 32} {id : Nat} : x &&& flagBit id = 0 ↔ x.getLsbD id = false := by
  refine ⟨fun h => ?_, fun h => BitVec.eq_of_getLsbD_eq fun i hi => ?_⟩
  · by_cases hid : id < 32
    · have hb : (x.getLsbD id && (flagBit id).getLsbD id) = false := by
        rw [← BitVec.getLsbD_and, h]
        exact BitVec.getLsbD_zero
      rw [getLsbD_flagBit hid, decide_eq_true rfl, Bool.and_true] at hb
      exact hb
    · exact BitVec.getLsbD_of_ge x id (Nat.le_of_not_lt hid)
  · rw [BitVec.getLsbD_and, getLsbD_flagBit hi]
    by_cases he : i = id
    · rw [he, h, Bool.false_and]
      exact BitVec.getLsbD_zero.symm
    · rw [decide_eq_false he, Bool.and_false]
      exact BitVec.getLsbD_zero.symm

/-- A flag that is active is among the active ones. -/
theorem within_flagBit {x : BitVec 32} {id : Nat} (h : x &&& flagBit id ≠ 0) :
    Mask.Within (flagBit id) x := by
  refine Mask.within_iff.mpr fun i hi => ?_
  have hlt : i < 32 := BitVec.lt_of_getLsbD hi
  rw [getLsbD_flagBit hlt] at hi
  rw [of_decide_eq_true hi]
  exact (Bool.not_eq_false _).mp fun e => h (and_flagBit.mpr e)

/-! ## The list of flag nodes -/

def Aside.flagLinks (a : Aside) : Links Nat := ⟨a.headNode, a.nextNode, a.prevNode⟩

structure FlagList (a : Aside) (F : List Nat) : Prop where
  links : IsDList a.flagLinks F
  tail : a.tailNode = F.getLast?
  node : ∀ t ∈ F, a.pnode t = .node t
  off : ∀ t, t ∉ F → ∀ n, a.pnode t ≠ .node n

/-- `FlagBlock`. -/
def Aside.flagBlock (a : Aside) (t : Nat) (flags : BitVec 32) (waitType : Nat) : Aside :=
  let a := { a with
    pnode := update a.pnode t (.node t)
    waitFlags := update a.waitFlags t flags
    waitType := update a.waitType t waitType }
  match a.tailNode with
  | none => { a with
      nextNode := update a.nextNode t none
      prevNode := update a.prevNode t none
      headNode := some t
      tailNode := some t }
  | some p => { a with
      nextNode := update (update a.nextNode p (some t)) t none
      prevNode := update a.prevNode t (some p)
      tailNode := some t }

/-- `RemoveFromLink` in the columns of the flags. -/
def Aside.spring (a : Aside) (t : Nat) : Aside :=
  let a := a.removeLink t
  { a with pnode := update a.pnode t .ones }

/-- The masks of the flags, and what the nodes wait for. -/
structure Masks where
  flagRdy : BitVec 32
  resetOpt : BitVec 32
  flagActive : BitVec 32
  waitFlags : Nat → BitVec 32
  waitType : Nat → Nat

def Aside.masks (a : Aside) : Masks :=
  ⟨a.flagRdy, a.resetOpt, a.flagActive, a.waitFlags, a.waitType⟩

/-- Is a node that waits for `flags` satisfied by the flags `rdy`? -/
def Masks.sat (m : Masks) (rdy : BitVec 32) (t : Nat) : Bool :=
  if m.waitType t = OPT_WAIT_ALL then m.waitFlags t &&& rdy == m.waitFlags t
  else m.waitFlags t &&& rdy != 0

section List

variable {a a' : Aside} {F l1 l2 : List Nat} {t : Nat}

theorem FlagList.congr (h : FlagList a F) (h1 : a'.flagLinks = a.flagLinks)
    (h2 : a'.tailNode = a.tailNode) (h3 : a'.pnode = a.pnode) : FlagList a' F := by
  refine ⟨?_, h2.trans h.tail, ?_, ?_⟩
  · rw [h1]
    exact h.links
  · rw [h3]
    exact h.node
  · rw [h3]
    exact h.off

theorem FlagList.nodup (h : FlagList a F) : F.Nodup := h.links.nodup

/-- `RemoveLinkNode` writes the links of the other nodes as `unlink` does. -/
theorem removeLink_links (h : IsDList a.flagLinks (l1 ++ t :: l2)) :
    (a.removeLink t).headNode = (a.flagLinks.unlink t).head ∧
      (a.removeLink t).tailNode = (if l2 = [] then l1.getLast? else a.tailNode) ∧
      (a.removeLink t).nextNode t = l2.head? ∧
      ∀ u, u ≠ t → (a.removeLink t).nextNode u = (a.flagLinks.unlink t).next u ∧
        (a.removeLink t).prevNode u = (a.flagLinks.unlink t).prev u := by
  have hn : a.nextNode t = l2.head? := h.next_split
  have hp : a.prevNode t = l1.getLast? := h.prev_split
  have ht1 := nodup_split_left h.nodup
  have hpt : ∀ p, l1.getLast? = some p → t ≠ p := fun p e he =>
    ht1 (he ▸ List.mem_of_mem_getLast? e)
  unfold Links.unlink Aside.removeLink
  rw [show a.flagLinks.next t = a.nextNode t from rfl,
    show a.flagLinks.prev t = a.prevNode t from rfl, hn, hp]
  cases l2 with
  | nil =>
    cases hl1 : l1.getLast? with
    | none => exact ⟨rfl, rfl, hn, fun u hu => ⟨rfl, rfl⟩⟩
    | some p => exact ⟨rfl, rfl, (Function.update_of_ne (hpt p hl1) ..).trans hn, fun u hu =>
        ⟨rfl, (Function.update_of_ne hu ..).symm⟩⟩
  | cons n k =>
    cases hl1 : l1.getLast? with
    | none => exact ⟨rfl, rfl, hn, fun u hu => ⟨(Function.update_of_ne hu ..).symm, rfl⟩⟩
    | some p => exact ⟨rfl, rfl, (Function.update_of_ne (hpt p hl1) ..).trans hn, fun u hu =>
        ⟨(Function.update_of_ne hu ..).symm, (Function.update_of_ne hu ..).symm⟩⟩

theorem removeLink_pnode : (a.removeLink t).pnode = update a.pnode t .null := by
  unfold Aside.removeLink
  split
  · rfl
  · rfl
  · rfl
  · rfl

theorem removeLink_masks : (a.removeLink t).masks = a.masks := by
  unfold Aside.removeLink
  split
  · rfl
  · rfl
  · rfl
  · rfl

/-- The node of `t` leaves the list. -/
theorem FlagList.removeLink (h : FlagList a (l1 ++ t :: l2)) :
    FlagList (a.removeLink t) (l1 ++ l2) := by
  obtain ⟨e1, e2, -, e4⟩ := removeLink_links h.links
  have ht : t ∉ l1 ++ l2 := by
    rw [List.mem_append, not_or]
    exact ⟨nodup_split_left h.nodup, nodup_split_right h.nodup⟩
  have hne : ∀ u ∈ l1 ++ l2, u ≠ t := fun u hu e => ht (e ▸ hu)
  refine ⟨?_, ?_, ?_, ?_⟩
  · exact (isDList_unlink h.links).congr e1 (fun u hu => (e4 u (hne u hu)).1)
      (fun u hu => (e4 u (hne u hu)).2)
  · rw [e2, h.tail]
    split
    · next hnil => rw [hnil, List.append_nil]
    · next hnil =>
      rw [List.getLast?_append_of_ne_nil _ (by simp), List.getLast?_append_of_ne_nil _ hnil,
        List.getLast?_cons_of_ne_nil hnil]
  · intro u hu
    rw [removeLink_pnode, Function.update_of_ne (hne u hu)]
    apply h.node
    rw [List.mem_append] at hu ⊢
    exact hu.imp id (List.mem_cons_of_mem t)
  · intro u hu n
    rw [removeLink_pnode]
    by_cases hut : u = t
    · rw [hut, Function.update_self]
      exact fun e => nomatch e
    · rw [Function.update_of_ne hut]
      apply h.off
      rw [List.mem_append, List.mem_cons, not_or, not_or]
      rw [List.mem_append, not_or] at hu
      exact ⟨hu.1, hut, hu.2⟩

theorem FlagList.setPnode (h : FlagList a F) (ht : t ∉ F) {p : PNode} (hp : ∀ n, p ≠ .node n) :
    FlagList { a with pnode := update a.pnode t p } F := by
  refine ⟨h.links, h.tail, ?_, ?_⟩
  · intro u hu
    have hut : u ≠ t := fun e => ht (e ▸ hu)
    exact (Function.update_of_ne hut ..).trans (h.node u hu)
  · intro u hu n
    change update a.pnode t p u ≠ _
    by_cases hut : u = t
    · rw [hut, Function.update_self]
      exact hp n
    · rw [Function.update_of_ne hut]
      exact h.off u hu n

theorem FlagList.spring (h : FlagList a (l1 ++ t :: l2)) : FlagList (a.spring t) (l1 ++ l2) := by
  refine h.removeLink.setPnode ?_ fun n e => nomatch e
  rw [List.mem_append, not_or]
  exact ⟨nodup_split_left h.nodup, nodup_split_right h.nodup⟩

theorem spring_masks : (a.spring t).masks = a.masks := removeLink_masks

theorem FlagList.dropFlag (h : FlagList a F) (t : Nat) : FlagList (a.dropFlag t) (F.erase t) := by
  unfold Aside.dropFlag
  by_cases ht : t ∈ F
  · rw [h.node t ht]
    obtain ⟨l1, l2, rfl⟩ := List.append_of_mem ht
    rw [erase_split h.nodup]
    exact h.removeLink
  · rw [List.erase_of_not_mem ht]
    split
    · next n hn => exact absurd hn (h.off t ht n)
    · exact h

theorem dropFlag_masks : (a.dropFlag t).masks = a.masks := by
  unfold Aside.dropFlag
  split
  · exact removeLink_masks
  · rfl

/-- `FlagBlock` puts a node at the end. -/
theorem FlagList.flagBlock (h : FlagList a F) (ht : t ∉ F) (flags : BitVec 32) (ty : Nat) :
    FlagList (a.flagBlock t flags ty) (F ++ [t]) := by
  have hnode : ∀ u ∈ F ++ [t], update a.pnode t (.node t) u = .node u := by
    intro u hu
    by_cases hut : u = t
    · rw [hut, Function.update_self]
    · rw [Function.update_of_ne hut]
      exact h.node u ((List.mem_append.mp hu).resolve_right fun e => hut (List.mem_singleton.mp e))
  have hoff : ∀ u, u ∉ F ++ [t] → ∀ n, update a.pnode t (.node t) u ≠ .node n := by
    intro u hu n
    rw [List.mem_append, not_or, List.mem_singleton] at hu
    rw [Function.update_of_ne hu.2]
    exact h.off u hu.1 n
  have htail : (F ++ [t]).getLast? = some t := by simp
  unfold Aside.flagBlock
  dsimp only
  cases hl : F.getLast? with
  | none =>
    have hnil : F = [] := List.getLast?_eq_none_iff.mp hl
    rw [h.tail, hl]
    refine ⟨?_, htail.symm, hnode, hoff⟩
    rw [hnil]
    refine ⟨rfl, List.nodup_singleton t, ?_, ?_⟩
    · intro u hu
      rw [List.mem_singleton.mp hu]
      simp [Aside.flagLinks, nextIn]
    · intro u hu
      rw [List.mem_singleton.mp hu]
      simp [Aside.flagLinks, prevIn, nextIn]
  | some p =>
    rw [h.tail, hl]
    refine ⟨?_, htail.symm, hnode, hoff⟩
    obtain ⟨l, rfl⟩ : ∃ l, F = l ++ [p] := List.getLast?_eq_some_iff.mp hl
    have htp : t ≠ p := fun e => ht (by rw [e]; simp)
    have hne : ∀ u ∈ l ++ [p], u ≠ t := fun u hu e => ht (e ▸ hu)
    have h0 : IsDList ⟨a.headNode, update a.nextNode t none, a.prevNode⟩ (l ++ [p]) :=
      h.links.congr rfl (fun u hu => Function.update_of_ne (hne u hu) ..) fun _ _ => rfl
    have h1 := isDList_append h0 ht (Function.update_self ..)
    unfold Links.append at h1
    dsimp only at h1
    rw [Function.update_comm htp] at h1
    rw [List.append_assoc]
    exact h1

end List

/-! ## Releasing -/

/-- The tasks of the flag list wait, and for nothing but flags and a timeout. -/
structure FlagOk (cfg : Env) (s : Kernel) (g : Ghost) (F : List Nat) : Prop where
  list : FlagList s.aside F
  wait : ∀ t ∈ F, Live cfg g t ∧ s.state t = .WAITING ∧ g.evt.loc t = none ∧
    ∀ m, g.tcb.loc t ≠ some (.mtx m)

/-- The tasks that `CoSetFlag` releases among the nodes `l`: every satisfied one, or only the
    first when the flag resets itself. -/
def released (sat : Nat → Bool) (auto : Bool) (l : List Nat) : List Nat :=
  if auto then (l.filter sat).take 1 else l.filter sat

/-- What the release of the tasks of `T` from the flag list does. -/
def Data.springs (d : Data) (T : List Nat) : Data :=
  { d with aside := T.foldl Aside.spring d.aside, waits := fun u => u ∉ T ∧ d.waits u,
           timed := fun u => u ∉ T ∧ d.timed u }

section Flags

variable {cfg : Env} {s : Kernel} {g : Ghost} {cur t : Nat} {F l1 l2 : List Nat}

theorem FlagOk.congr {s' : Kernel} {g' : Ghost} {F' : List Nat} (h : FlagOk cfg s g F)
    (hl : FlagList s'.aside F') (hsub : ∀ t ∈ F', t ∈ F) (hc : Calm g g')
    (hw : ∀ t ∈ F', s'.state t = .WAITING) (he : ∀ t ∈ F', g'.evt.loc t = g.evt.loc t) :
    FlagOk cfg s' g' F' := by
  refine ⟨hl, fun t ht => ?_⟩
  obtain ⟨h1, -, h3, h4⟩ := h.wait t (hsub t ht)
  refine ⟨(hc.live t).mpr h1, hw t ht, ?_, fun m e => h4 m ((hc.mtx t m).mp e)⟩
  rw [he t ht]
  exact h3

theorem FlagOk.plain (h : FlagOk cfg s g F) (hc : Coh cfg s g) (ht : t ∈ F) :
    g.tcb.loc t = none ∨ g.tcb.loc t = some .dly := by
  obtain ⟨h1, h2, -, h4⟩ := h.wait t ht
  cases hloc : g.tcb.loc t with
  | none => exact Or.inl rfl
  | some k =>
    cases k with
    | rdy =>
      have e := ((hc.task t h1).rdy hloc).1
      rw [h2] at e
      exact nomatch e
    | dly => exact Or.inr rfl
    | free => exact absurd hloc h1.2
    | mtx m => exact absurd hloc (h4 m)

theorem FlagOk.length (h : FlagOk cfg s g F) : F.length ≤ cfg.tasks :=
  length_le_of_lt h.list.nodup fun t ht => (h.wait t ht).1.1

theorem satisfied_iff (s : Kernel) (rdy : BitVec 32) (t : Nat) :
    satisfied s rdy t ↔ s.aside.masks.sat rdy t = true := by
  unfold satisfied Masks.sat
  change (if s.waitType t = OPT_WAIT_ALL then _ else _) ↔
    (if s.waitType t = OPT_WAIT_ALL then _ else _) = true
  split
  · exact beq_iff_eq.symm
  · exact bne_iff_ne.symm

theorem removeLinkNode_clock (s : Kernel) (t : Nat) : (removeLinkNode s t).OSTickCnt =
    s.OSTickCnt := by
  unfold removeLinkNode
  split
  · rfl
  · rfl
  · rfl
  · rfl

/-- **RemoveFromLink** -/
theorem removeFromLink_spec (h : Pending cfg s g cur) (hf : FlagOk cfg s g (l1 ++ t :: l2)) :
    ∃ s' g', removeFromLink cfg s t = some s' ∧ Pending cfg s' g' cur ∧ s'.cpu = s.cpu ∧
      Calm g g' ∧ Holds s' g' ((s.data g).springs [t]) ∧ FlagOk cfg s' g' (l1 ++ l2) ∧
      s'.nextNode t = l2.head? ∧ Eased s g s' g' := by
  have ht : t ∈ l1 ++ t :: l2 := by simp
  obtain ⟨hlive, hw, hev, -⟩ := hf.wait t ht
  obtain ⟨v1, v2, v3⟩ := removeLinkNode_keeps s t
  have ha := removeLinkNode_aside s t
  have h1 : Pending cfg (removeLinkNode s t) g cur := h.congr v1 v2 v3 (removeLinkNode_late s t).mpr
  have hst : (removeLinkNode s t).state = s.state := congrArg KView.state v1
  let s2 := if (removeLinkNode s t).delayTick t ≠ INVALID_VALUE then
    removeDelayList (removeLinkNode s t) t else removeLinkNode s t
  obtain ⟨k1, k2, -⟩ := undelay_keeps (removeLinkNode s t) t
  have hkeep : s2.TaskSchedReq = (removeLinkNode s t).TaskSchedReq ∧
      s2.OSTickCnt = (removeLinkNode s t).OSTickCnt ∧ ((removeLinkNode s t).Late → s2.Late) := by
    unfold s2
    split
    · exact ⟨rfl, rfl, id⟩
    · exact ⟨rfl, rfl, id⟩
  obtain ⟨s', g', f1, f2, f3, f4, f5, f6, f7, f8, f9⟩ :=
    @Pending.resume cfg (removeLinkNode s t) g cur
    t h1 hlive (by rw [hst]; exact hw) (hf.plain h.coh ht) hev
    { s2 with pnode := update s2.pnode t .ones } rfl k2 hkeep.1 hkeep.2.2
  have hasp : s'.aside = s.aside.spring t := by
    rw [f4]
    have e : s2.aside = s.aside.removeLink t := k1.trans ha
    change { s2.aside with pnode := update s2.aside.pnode t .ones } = _
    rw [e]
    rfl
  have hwt : ∀ u, s'.state u = .WAITING ↔ u ≠ t ∧ s.state u = .WAITING := by
    intro u
    rw [f7 u, hst]
  have hne : ∀ u ∈ l1 ++ l2, u ≠ t := by
    intro u hu e
    rw [e, List.mem_append] at hu
    exact hu.elim (nodup_split_left hf.list.nodup) (nodup_split_right hf.list.nodup)
  have hsub : ∀ u ∈ l1 ++ l2, u ∈ l1 ++ t :: l2 := by
    intro u hu
    rw [List.mem_append] at hu ⊢
    exact hu.imp id (List.mem_cons_of_mem t)
  refine ⟨s', g', f1, f2, f3.trans (k2.trans v2), f6, ⟨hasp, f5, fun u => ?_, fun u => ?_⟩, ?_,
    ?_, f9.dly, f9.clock.trans (hkeep.2.1.trans (removeLinkNode_clock s t))⟩
  · rw [hwt u]
    change _ ↔ u ∉ [t] ∧ s.state u = .WAITING
    rw [List.mem_singleton]
  · rw [f8 u]
    change _ ↔ u ∉ [t] ∧ g.tcb.loc u = some .dly
    rw [List.mem_singleton]
  · refine hf.congr ?_ hsub f6 (fun u hu => (hwt u).mpr ⟨hne u hu, (hf.wait u (hsub u hu)).2.1⟩) ?_
    · rw [hasp]
      exact hf.list.spring
    · intro u _
      rw [f5]
  · have e := congrArg (fun a => a.nextNode t) hasp
    exact e.trans (removeLink_links hf.list.links).2.2.1

theorem released_cons (sat : Nat → Bool) (auto : Bool) (t : Nat) (l : List Nat) :
    released sat auto (t :: l) =
      if sat t then (if auto then [t] else t :: released sat auto l) else released sat auto l := by
  unfold released
  cases hs : sat t with
  | true =>
    cases auto with
    | true => simp [hs]
    | false => simp [hs]
  | false =>
    cases auto with
    | true => simp [hs]
    | false => simp [hs]

theorem mem_released {sat : Nat → Bool} {auto : Bool} {l : List Nat}
    (ht : t ∈ released sat auto l) : t ∈ l ∧ sat t = true := by
  unfold released at ht
  split at ht
  · exact List.mem_filter.mp (List.mem_of_mem_take ht)
  · exact List.mem_filter.mp ht

theorem filter_not_mem {T : List Nat} (h : ∀ u ∈ F, u ∉ T) : F.filter (· ∉ T) = F := by
  apply List.filter_eq_self.mpr
  intro u hu
  exact decide_eq_true (h u hu)

/-- A released task in the middle of the list. -/
theorem filter_released_cons (hnd : (l1 ++ t :: l2).Nodup) (T : List Nat) :
    (l1 ++ t :: l2).filter (· ∉ t :: T) = (l1 ++ l2).filter (· ∉ T) := by
  have hne : ∀ u ∈ l1 ++ l2, u ≠ t := by
    intro u hu e
    rw [e, List.mem_append] at hu
    exact hu.elim (nodup_split_left hnd) (nodup_split_right hnd)
  have hcongr : (l1 ++ l2).filter (· ∉ t :: T) = (l1 ++ l2).filter (· ∉ T) := by
    apply List.filter_congr
    intro u hu
    simp [hne u hu]
  rw [← hcongr, List.filter_append, List.filter_append, List.filter_cons_of_neg (by simp)]

theorem Data.springs_cons (d : Data) (t : Nat) (T : List Nat) :
    (d.springs [t]).springs T = d.springs (t :: T) := by
  unfold Data.springs
  simp only [List.foldl_cons, List.foldl_nil, List.mem_cons, List.not_mem_nil, or_false, not_or,
    Data.mk.injEq, true_and]
  constructor
  · funext u
    simp only [eq_iff_iff]
    tauto
  · funext u
    simp only [eq_iff_iff]
    tauto

/-- The loop of **CoSetFlag** -/
theorem setFlagLoop_spec (id fuel : Nat) (h : Pending cfg s g cur)
    (hf : FlagOk cfg s g (l1 ++ l2)) (hlen : l2.length ≤ fuel) :
    ∃ s' g', setFlagLoop cfg id fuel s l2.head? = some s' ∧ Pending cfg s' g' cur ∧
      s'.cpu = s.cpu ∧ Calm g g' ∧
      Holds s' g' ((s.data g).springs
        (released (s.aside.masks.sat s.flagRdy) (s.resetOpt &&& flagBit id != 0) l2)) ∧
      FlagOk cfg s' g' ((l1 ++ l2).filter
        (· ∉ released (s.aside.masks.sat s.flagRdy) (s.resetOpt &&& flagBit id != 0) l2)) ∧
      Eased s g s' g' := by
  induction l2 generalizing s g l1 fuel with
  | nil =>
    refine ⟨s, g, ?_, h, rfl, Calm.refl _, ?_, ?_, .refl s g⟩
    · cases fuel <;> rfl
    · unfold released
      simpa [Data.springs] using holds_data s g
    · unfold released
      simpa using hf
  | cons t l ih =>
    rw [List.length_cons] at hlen
    obtain ⟨n, rfl⟩ := Nat.exists_eq_succ_of_ne_zero (show fuel ≠ 0 by omega)
    have hnext : s.nextNode t = l.head? := hf.list.links.next_split
    have hnd := hf.list.nodup
    rw [List.head?_cons, Nat.succ_eq_add_one, setFlagLoop]
    by_cases hs : satisfied s s.flagRdy t
    · -- the node is satisfied: its task is released
      have hs' := (satisfied_iff s s.flagRdy t).mp hs
      obtain ⟨s1, g1, e1, e2, e3, e4, e5, e6, e7, e8⟩ := removeFromLink_spec h hf
      have hm : s1.aside.masks = s.aside.masks := (congrArg Aside.masks e5.aside).trans spring_masks
      have hro : s1.resetOpt = s.resetOpt := congrArg Masks.resetOpt hm
      have hrd : s1.flagRdy = s.flagRdy := congrArg Masks.flagRdy hm
      rw [if_pos hs, e1, released_cons, if_pos hs', Option.bind_eq_bind, Option.bind_some, hro]
      by_cases ha : s.resetOpt &&& flagBit id ≠ 0
      · rw [if_pos ha, if_pos (bne_iff_ne.mpr ha)]
        refine ⟨s1, g1, rfl, e2, e3, e4, e5, ?_, e8⟩
        rw [filter_released_cons hnd, filter_not_mem fun _ _ => List.not_mem_nil]
        exact e6
      · have ha' : ¬ (s.resetOpt &&& flagBit id != 0) = true := fun e => ha (bne_iff_ne.mp e)
        rw [if_neg ha, if_neg ha', e7]
        obtain ⟨s2, g2, f1, f2, f3, f4, f5, f6, f7⟩ := @ih s1 g1 l1 n e2 e6 (by omega)
        rw [hm, hrd, hro] at f5 f6
        refine ⟨s2, g2, f1, f2, f3.trans e3, e4.trans f4, ?_, ?_, e8.trans f7⟩
        · rw [← Data.springs_cons, ← e5.eq]
          exact f5
        · rw [filter_released_cons hnd]
          exact f6
    · -- the loop goes on behind the node
      have hs' : ¬ s.aside.masks.sat s.flagRdy t = true := fun e =>
        hs ((satisfied_iff s s.flagRdy t).mpr e)
      rw [if_neg hs, released_cons, if_neg hs', hnext]
      have hf' : FlagOk cfg s g ((l1 ++ [t]) ++ l) := by
        rw [List.append_assoc]
        exact hf
      obtain ⟨s2, g2, f1, f2, f3, f4, f5, f6, f7⟩ := @ih s g (l1 ++ [t]) n h hf' (by omega)
      rw [List.append_assoc] at f6
      exact ⟨s2, g2, f1, f2, f3, f4, f5, f6, f7⟩

end Flags

end CoOS
