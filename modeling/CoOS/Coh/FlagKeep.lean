/-
  The flag list through the calls: which of them change it, and what becomes of it. Everything
  here is about `Data`; `FlagOk.next` carries it over to kernel states.
-/
import CoOS.Coh.FlagCalls

namespace CoOS

open Function (update)
open DList KeyOrder

/-- The event lists in order: who is in them, and that these tasks wait. -/
structure EvtOk (d : Data) : Prop where
  mem : ∀ e t, t ∈ d.evt.lst e ↔ d.evt.loc t = some e
  nodup : ∀ e, (d.evt.lst e).Nodup
  wait : ∀ e t, d.evt.loc t = some e → d.waits t

/-- The flag list in order: its tasks wait, and for no event. -/
structure FlagD (d : Data) (F : List Nat) : Prop where
  list : FlagList d.aside F
  wait : ∀ t ∈ F, d.waits t ∧ d.evt.loc t = none

/-- The part of `Aside` that belongs to the flags. -/
structure FlagPart where
  masks : Masks
  links : Links Nat
  tail : Option Nat
  pnode : Nat → PNode

def Aside.flagPart (a : Aside) : FlagPart := ⟨a.masks, a.flagLinks, a.tailNode, a.pnode⟩

section Part

variable (a : Aside) (e t v : Nat)

@[simp] theorem handOver_flagPart : (a.handOver e t).flagPart = a.flagPart := by
  unfold Aside.handOver
  split
  · rfl
  · split
    · rfl
    · rfl
  · rfl
  · rfl

@[simp] theorem store_flagPart : (a.store e v).flagPart = a.flagPart := by
  unfold Aside.store
  split
  · rfl
  · rfl
  · rfl
  · rfl

@[simp] theorem take_flagPart : (a.take e).1.flagPart = a.flagPart := by
  unfold Aside.take
  split
  · rfl
  · rfl
  · rfl
  · rfl

end Part

section Keep

variable {cfg : Env} {d d' : Data} {F F' : List Nat} {t : Nat}

theorem FlagList.part {a a' : Aside} (h : FlagList a F) (hp : a'.flagPart = a.flagPart) :
    FlagList a' F :=
  h.congr (congrArg FlagPart.links hp) (congrArg FlagPart.tail hp) (congrArg FlagPart.pnode hp)

/-- Calls that have nothing to do with flags. -/
theorem FlagD.keep (h : FlagD d F) (hp : d'.aside.flagPart = d.aside.flagPart)
    (hw : ∀ t ∈ F, d.waits t → d'.waits t)
    (he : ∀ t ∈ F, d.evt.loc t = none → d'.evt.loc t = none) : FlagD d' F := by
  refine ⟨h.list.part hp, fun t ht => ?_⟩
  obtain ⟨h1, h2⟩ := h.wait t ht
  exact ⟨hw t ht h1, he t ht h2⟩

theorem FlagD.release (h : FlagD d F) (hev : EvtOk d) (e : Nat) : FlagD (d.release e) F := by
  unfold Data.release
  cases hl : d.evt.lst e with
  | nil => exact h
  | cons t l =>
    have hloc : d.evt.loc t = some e := (hev.mem e t).mp (by rw [hl]; exact List.mem_cons_self)
    have hne : ∀ u ∈ F, u ≠ t := by
      intro u hu hut
      have := (h.wait u hu).2
      rw [hut, hloc] at this
      exact nomatch this
    refine h.keep (handOver_flagPart ..) (fun u hu hw => ⟨hne u hu, hw⟩) (fun u hu hn => ?_)
    exact (Family.take_loc_ne _ _ (hne u hu)).trans hn

theorem FlagD.post (h : FlagD d F) (hev : EvtOk d) (k : EventType) (e v : Nat) :
    FlagD (d.post cfg k e v).1 F := by
  unfold Data.post
  split
  · exact h
  · split
    · exact h
    · have h1 : FlagD { d with aside :=
          (d.aside.store e v).note e v .posted } F :=
        h.keep (store_flagPart d.aside e v) (fun _ _ hw => hw) (fun _ _ hn => hn)
      exact h1.release ⟨hev.mem, hev.nodup, hev.wait⟩ e

theorem FlagD.accept (h : FlagD d F) (k : EventType) (e : Nat) : FlagD (d.accept cfg k e).1 F := by
  unfold Data.accept
  split
  · exact h
  · split
    · exact h.keep (take_flagPart ..) (fun _ _ hw => hw) (fun _ _ hn => hn)
    · exact h

theorem FlagD.pend (h : FlagD d F) (k : EventType) (e : Nat) : FlagD (d.pend cfg k e).1 F := by
  unfold Data.pend
  split
  · exact h
  · split
    · exact h.keep (take_flagPart ..) (fun _ _ hw => hw) (fun _ _ hn => hn)
    · exact h

/-- A task that does not wait is not in the list. -/
theorem FlagD.not_mem (h : FlagD d F) (ht : ¬ d.waits t) : t ∉ F := fun hm => ht (h.wait t hm).1

theorem FlagD.wait_event (h : FlagD d F) (ht : ¬ d.waits t) (e n : Nat) :
    FlagD (d.wait e t n) F := by
  refine h.keep rfl (fun u _ hw => Or.inr hw) (fun u hu hn => ?_)
  have hut : u ≠ t := fun e => h.not_mem ht (e ▸ hu)
  exact (Family.put_loc_ne _ _ hut).trans hn

theorem FlagD.block (h : FlagD d F) (t : Nat) : FlagD (d.block t) F :=
  h.keep rfl (fun _ _ hw => Or.inr hw) (fun _ _ hn => hn)

theorem FlagD.delay (h : FlagD d F) (t : Nat) : FlagD (d.delay t) F :=
  h.keep rfl (fun _ _ hw => Or.inr hw) (fun _ _ hn => hn)

/-- `CoAwakeTask` leaves the tasks of the list alone. -/
theorem FlagD.wake (h : FlagD d F) (ht : d.aside.pnode t = .null) : FlagD (d.wake t) F := by
  refine h.keep rfl (fun u hu hw => ⟨fun hut => ?_, hw⟩) (fun _ _ hn => hn)
  have := h.list.node u hu
  rw [hut, ht] at this
  exact nomatch this

/-- The delay of a task outside the list is ended. -/
theorem FlagD.undelay (h : FlagD d F) (ht : d.aside.pnode t = .null) : FlagD (d.undelay t) F :=
  ⟨(h.wake ht).list, (h.wake ht).wait⟩

theorem FlagD.setRdy (h : FlagD d F) (r : BitVec 32) : FlagD (d.setRdy r) F :=
  ⟨h.list.congr rfl rfl rfl, h.wait⟩

theorem FlagD.consume (h : FlagD d F) (f : BitVec 32) : FlagD (d.consume f) F := h.setRdy _

theorem FlagD.shrink (h : FlagD d F) (id : Nat) (S : List Nat) : FlagD (d.shrink id S) F :=
  ⟨h.list.congr rfl rfl rfl, h.wait⟩

theorem FlagD.dropMasks (h : FlagD d F) (id : Nat) : FlagD (d.dropMasks id) F :=
  ⟨h.list.congr rfl rfl rfl, h.wait⟩

theorem FlagD.addFlag (h : FlagD d F) (i auto init : Nat) : FlagD (d.addFlag i auto init) F :=
  ⟨h.list.congr rfl rfl rfl, h.wait⟩

theorem FlagD.setPnode (h : FlagD d F) (ht : t ∉ F) : FlagD (d.setPnode t .null) F :=
  ⟨h.list.setPnode ht (fun _ e => nomatch e), h.wait⟩

theorem FlagD.flagWait (h : FlagD d F) (ht : ¬ d.waits t) (he : d.evt.loc t = none)
    (flags : BitVec 32) (ty n : Nat) : FlagD (d.flagWait t flags ty n) (F ++ [t]) := by
  refine ⟨h.list.flagBlock (h.not_mem ht) flags ty, fun u hu => ?_⟩
  rcases List.mem_append.mp hu with hu | hu
  · exact ⟨Or.inr (h.wait u hu).1, (h.wait u hu).2⟩
  · rw [List.mem_singleton.mp hu]
    exact ⟨Or.inl rfl, he⟩

theorem FlagList.springs (T : List Nat) : ∀ {a : Aside} {F : List Nat}, FlagList a F →
    T.Nodup → (∀ t ∈ T, t ∈ F) → FlagList (T.foldl Aside.spring a) (F.filter (· ∉ T)) := by
  induction T with
  | nil =>
    intro a F h _ _
    rw [filter_not_mem fun _ _ => List.not_mem_nil]
    exact h
  | cons t T ih =>
    intro a F h hnd hsub
    obtain ⟨ht, hT⟩ := List.nodup_cons.mp hnd
    obtain ⟨l1, l2, rfl⟩ := List.append_of_mem (hsub t List.mem_cons_self)
    rw [filter_released_cons h.nodup]
    refine ih h.spring hT fun u hu => ?_
    have hut : u ≠ t := fun e => ht (e ▸ hu)
    have := hsub u (List.mem_cons_of_mem t hu)
    simp only [List.mem_append, List.mem_cons, hut, false_or] at this ⊢
    exact this

theorem FlagD.springs {T : List Nat} (h : FlagD d F) (hnd : T.Nodup) (hsub : ∀ t ∈ T, t ∈ F) :
    FlagD (d.springs T) (F.filter (· ∉ T)) := by
  refine ⟨h.list.springs T hnd hsub, fun t ht => ?_⟩
  obtain ⟨h1, h2⟩ := List.mem_filter.mp ht
  exact ⟨⟨of_decide_eq_true h2, (h.wait t h1).1⟩, (h.wait t h1).2⟩

theorem FlagList.dropFlags (T : List Nat) : ∀ {a : Aside} {F : List Nat}, FlagList a F →
    FlagList (T.foldl Aside.dropFlag a) (F.filter (· ∉ T)) := by
  induction T with
  | nil =>
    intro a F h
    rw [filter_not_mem fun _ _ => List.not_mem_nil]
    exact h
  | cons t T ih =>
    intro a F h
    have he : F.filter (· ∉ t :: T) = (F.erase t).filter (· ∉ T) := by
      rw [h.nodup.erase_eq_filter, List.filter_filter]
      apply List.filter_congr
      intro u _
      simp [not_or, Bool.and_comm, bne, beq_eq_decide]
    rw [he]
    exact ih (h.dropFlag t)

theorem FlagD.expire (h : FlagD d F) (T : List Nat) : FlagD (d.expire T) (F.filter (· ∉ T)) := by
  refine ⟨h.list.dropFlags T, fun t ht => ?_⟩
  obtain ⟨h1, h2⟩ := List.mem_filter.mp ht
  have hT : t ∉ T := of_decide_eq_true h2
  refine ⟨⟨hT, (h.wait t h1).1⟩, ?_⟩
  exact (if_neg hT).trans (h.wait t h1).2

theorem released_sub {sat : Nat → Bool} {auto : Bool} {l : List Nat} :
    (∀ t ∈ released sat auto l, t ∈ l) ∧ (l.Nodup → (released sat auto l).Nodup) := by
  refine ⟨fun t ht => (mem_released ht).1, fun hnd => ?_⟩
  unfold released
  split
  · exact (hnd.filter _).take
  · exact hnd.filter _

theorem FlagD.setFlag (h : FlagD d F) (hlen : F.length ≤ cfg.tasks) (id : Nat) :
    ∃ F', FlagD (d.setFlag cfg id).1 F' ∧ ∀ t ∈ F', t ∈ F := by
  unfold Data.setFlag
  split
  · exact ⟨F, h, fun _ ht => ht⟩
  · split
    · exact ⟨F, h, fun _ ht => ht⟩
    · have hw : d.wakes cfg id = released (d.aside.masks.sat (d.aside.flagRdy ||| flagBit id))
          (d.aside.resetOpt &&& flagBit id != 0) F := by
        unfold Data.wakes
        rw [h.list.tasks hlen]
      refine ⟨F.filter (· ∉ d.wakes cfg id), ?_, fun t ht => List.mem_of_mem_filter ht⟩
      rw [hw]
      exact (h.setRdy _).springs (released_sub.2 h.list.nodup) released_sub.1

theorem FlagD.delFlag (h : FlagD d F) (hlen : F.length ≤ cfg.tasks) (id opt : Nat) :
    ∃ F', FlagD (d.delFlag cfg id opt).1 F' ∧ ∀ t ∈ F', t ∈ F := by
  unfold Data.delFlag
  rw [h.list.tasks hlen]
  split
  · exact ⟨F, h, fun _ ht => ht⟩
  · split
    · split
      · exact ⟨F, h, fun _ ht => ht⟩
      · exact ⟨F, h.dropMasks id, fun _ ht => ht⟩
    · split
      · refine ⟨_, (FlagD.springs (h.shrink id _) (h.list.nodup.filter _)
          fun t ht => List.mem_of_mem_filter ht).dropMasks id, fun t ht =>
            List.mem_of_mem_filter ht⟩
      · exact ⟨F, h.dropMasks id, fun _ ht => ht⟩

end Keep

/-! ## On kernel states -/

section States

variable {cfg : Env} {s s' : Kernel} {g g' : Ghost} {cur : Nat} {d : Data} {F F' : List Nat}

theorem Coh.evtOk (h : Coh cfg s g) : EvtOk (s.data g) := by
  refine ⟨fun e t => h.rep.evt.mem e t, fun e => (h.rep.evt.double e rfl).nodup, fun e t he => ?_⟩
  exact (h.waits (h.evt_live he) he).1

theorem FlagOk.data (h : FlagOk cfg s g F) : FlagD (s.data g) F :=
  ⟨h.list, fun t ht => ⟨(h.wait t ht).2.1, (h.wait t ht).2.2.1⟩⟩

/-- The flag list after a call that leaves `d`. -/
theorem FlagOk.next (h : FlagOk cfg s g F) (hc : Calm g g') (hd : Holds s' g' d) (hD : FlagD d F')
    (hsub : ∀ t ∈ F', t ∈ F ∨ (Live cfg g t ∧ g.tcb.loc t = none)) : FlagOk cfg s' g' F' := by
  refine ⟨by rw [hd.aside]; exact hD.list, fun t ht => ?_⟩
  obtain ⟨h1, h2⟩ := hD.wait t ht
  have hp : Live cfg g t ∧ ∀ m, g.tcb.loc t ≠ some (.mtx m) := by
    rcases hsub t ht with hm | ⟨hl, hn⟩
    · exact ⟨(h.wait t hm).1, (h.wait t hm).2.2.2⟩
    · refine ⟨hl, fun m e => ?_⟩
      rw [hn] at e
      exact nomatch e
  refine ⟨(hc.live t).mpr hp.1, (hd.waits t).mpr h1, ?_, fun m e => hp.2 m ((hc.mtx t m).mp e)⟩
  rw [hd.evt]
  exact h2

end States

end CoOS
