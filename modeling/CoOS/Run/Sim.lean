/-
  The code does what `Run.Abs` says: one step of the system is an effect and then the requests
  that the step drains (`Inv.sim`), and the lists of the kernel stay coherent on the way
  (`Inv`).
-/
import CoOS.Run.Effects

namespace CoOS

open Function (update)
open DList

/-! ## Flags -/

section Flags

variable {cfg : Env} {a : Abs} {r : Nat} {x : Out} {d : Data} {F : List Nat}

theorem setPrio_loc (d : Data) (t p u : Nat) : (d.setPrio t p).evt.loc u = d.evt.loc u := by
  unfold Data.setPrio
  dsimp only
  split
  · next e he =>
    split
    · by_cases hu : u = t
      · rw [hu, he]
        exact Family.put_loc_self ..
      · exact (Family.put_loc_ne _ _ hu).trans (Family.take_loc_ne _ _ hu)
    · rfl
  · rfl

theorem FlagD.create (h : FlagD d F) {i : Nat} (hi : i ∉ F) (p : Nat) (w : Bool) :
    FlagD (d.create i p w) F := by
  refine ⟨(h.setPnode hi).list.congr rfl rfl rfl, fun t ht => ?_⟩
  have hti : t ≠ i := fun e => hi (e ▸ ht)
  exact ⟨Or.inr ⟨hti, (h.wait t ht).1⟩, (h.wait t ht).2⟩

theorem FlagD.setPrio (h : FlagD d F) (t p : Nat) : FlagD (d.setPrio t p) F := by
  refine h.keep (by rw [setPrio_aside]; rfl) (fun u _ hw => ?_) (fun u _ hn => ?_)
  · unfold Data.setPrio
    dsimp only
    split
    · split
      · exact hw
      · exact hw
    · exact hw
  · rw [setPrio_loc]
    exact hn

theorem FlagD.pendReturn (h : FlagD d F) (t n : Nat) : FlagD (d.pendReturn t n).1 F := by
  unfold Data.pendReturn
  split
  · exact h
  · exact h.keep rfl (fun _ _ hw => hw) (fun _ _ hn => hn)

/-- The running task. -/
structure Caller (cfg : Env) (a : Abs) (r : Nat) : Prop where
  lt : r < cfg.tasks
  alive : a.alive r
  waits : ¬ a.d.waits r
  timed : ¬ a.d.timed r
  evt : a.d.evt.loc r = none

/-- The flag list `F` of tasks that exist. -/
structure Listed (d : Data) (alive : Nat → Prop) (F : List Nat) : Prop where
  flag : FlagD d F
  alive : ∀ t ∈ F, alive t

theorem Listed.expire {alive : Nat → Prop} (h : Listed d alive F) (T : List Nat) :
    Listed (d.expire T) (fun u => u ∉ T ∧ alive u) (F.filter (· ∉ T)) := by
  refine ⟨h.flag.expire T, fun t ht => ?_⟩
  obtain ⟨h1, h2⟩ := List.mem_filter.mp ht
  exact ⟨of_decide_eq_true h2, h.alive t h1⟩

theorem Abs.Deletes.listed {t : Nat} (hx : a.Deletes t x) (h : Listed a.d a.alive F) :
    ∃ F', Listed x.d x.alive F' ∧ ∀ u ∈ F', u ∈ F ∨ u = r := by
  obtain ⟨st, -, rfl⟩ | rfl := hx
  · exact ⟨F, h, fun _ hu => Or.inl hu⟩
  · refine ⟨F.filter (· ∉ [t]), ⟨h.flag.expire [t], fun u hu => ?_⟩,
      fun u hu => Or.inl (List.mem_of_mem_filter hu)⟩
    have := (h.expire [t]).alive u hu
    rw [List.mem_singleton] at this
    exact this

/-- The flag list after a call; only the caller may have joined it. -/
theorem Call.Does.listed {c : Call} (hx : c.Does cfg a r x) (h : Listed a.d a.alive F)
    (hev : EvtOk a.d) (hlen : F.length ≤ cfg.tasks) (hr : Caller cfg a r) :
    ∃ F', Listed x.d x.alive F' ∧ ∀ t ∈ F', t ∈ F ∨ t = r := by
  have hsub : ∀ {d : Data} {F' : List Nat}, FlagD d F' → (∀ t ∈ F', t ∈ F) →
      ∃ F', Listed d a.alive F' ∧ ∀ t ∈ F', t ∈ F ∨ t = r :=
    fun {d F'} hd hs => ⟨F', ⟨hd, fun t ht => h.alive t (hs t ht)⟩, fun t ht => Or.inl (hs t ht)⟩
  have hkeep : ∀ {d : Data}, FlagD d F → ∃ F', Listed d a.alive F' ∧ ∀ t ∈ F', t ∈ F ∨ t = r :=
    fun hd => hsub hd fun _ ht => ht
  have hjoin : ∀ (flags : BitVec 32) (ty n : Nat),
      ∃ F', Listed (a.d.flagWait r flags ty n) a.alive F' ∧ ∀ t ∈ F', t ∈ F ∨ t = r := by
    intro flags ty n
    refine ⟨F ++ [r], ⟨h.flag.flagWait hr.waits hr.evt flags ty n, fun t ht => ?_⟩, fun t ht => ?_⟩
    · rcases List.mem_append.mp ht with ht | ht
      · exact h.alive t ht
      · rw [List.mem_singleton.mp ht]
        exact hr.alive
    · exact (List.mem_append.mp ht).imp_right List.mem_singleton.mp
  cases c with
  | createTask task stk parameter =>
    obtain rfl | ⟨i, p, w, -, hi, rfl⟩ := hx
    · exact hkeep h.flag
    · exact ⟨F, ⟨h.flag.create (fun e => hi (h.alive i e)) p w, fun t ht => Or.inr (h.alive t ht)⟩,
        fun t ht => Or.inl ht⟩
  | delTask t => exact Abs.Deletes.listed hx h
  | exitTask => exact Abs.Deletes.listed hx h
  | suspendTask t =>
    obtain ⟨st, rfl | rfl⟩ := hx
    · exact hkeep h.flag
    · exact hkeep (h.flag.block t)
  | awakeTask t =>
    obtain ⟨st, rfl | ⟨rfl, hp, -⟩⟩ := hx
    · exact hkeep h.flag
    · exact hkeep (h.flag.wake hp)
  | setPriority t p =>
    obtain ⟨st, ⟨rfl, -⟩ | ⟨rfl, -⟩⟩ := hx
    · exact hkeep h.flag
    · exact hkeep (h.flag.setPrio t p)
  | tickDelay n =>
    obtain ⟨st, rfl | rfl⟩ := hx
    · exact hkeep h.flag
    · exact hkeep (h.flag.delay r)
  | resetDelay t n =>
    obtain ⟨st, rfl | ⟨rfl, -, -, -, hp⟩⟩ := hx
    · exact hkeep h.flag
    · exact hkeep (h.flag.undelay hp)
  | accept k id =>
    obtain rfl := hx
    exact hkeep (h.flag.accept k id)
  | pend k id n =>
    have hp := @FlagD.pend cfg a.d F h.flag k id
    obtain rfl := hx
    split
    · next e => exact hkeep (by rw [e] at hp; exact hp)
    · next e => exact hkeep (by rw [e] at hp; exact hp)
  | post k id v =>
    obtain rfl := hx
    exact hkeep (h.flag.post hev k id _)
  | createFlag auto init =>
    obtain rfl := hx
    refine hkeep ?_
    change FlagD (a.d.createFlag auto init).1 F
    unfold Data.createFlag
    split
    · exact h.flag.addFlag _ auto init
    · exact h.flag
  | delFlag id opt =>
    obtain rfl := hx
    obtain ⟨F', h1, h2⟩ := h.flag.delFlag hlen id opt
    exact hsub h1 h2
  | setFlag id =>
    obtain rfl := hx
    obtain ⟨F', h1, h2⟩ := h.flag.setFlag hlen id
    exact hsub h1 h2
  | clearFlag id =>
    obtain rfl := hx
    refine hkeep ?_
    change FlagD (a.d.clearFlag id).1 F
    unfold Data.clearFlag
    split
    · exact h.flag
    · exact h.flag.setRdy _
  | acceptFlag id =>
    obtain rfl := hx
    refine hkeep ?_
    change FlagD (a.d.acceptFlag id).1 F
    unfold Data.acceptFlag
    split
    · exact h.flag
    · split
      · exact h.flag.consume _
      · exact h.flag
  | acceptFlags flags ty =>
    obtain rfl := hx
    refine hkeep ?_
    change FlagD (a.d.acceptFlags flags ty).1 F
    unfold Data.acceptFlags
    split
    · exact h.flag
    · split
      · exact h.flag.consume _
      · exact h.flag
  | waitFlag id n =>
    obtain rfl := hx
    unfold Data.waitFlag
    split
    · next e =>
      split at e
      · cases e
        exact hkeep h.flag
      · split at e
        · cases e
          exact hkeep (h.flag.consume _)
        · cases e
    · next e =>
      split at e
      · cases e
      · split at e
        · cases e
        · cases e
          exact hjoin ..
  | waitFlags flags ty n =>
    obtain rfl := hx
    unfold Data.waitFlags
    split
    · next e =>
      split at e
      · cases e
        exact hkeep h.flag
      · split at e
        · cases e
          exact hkeep (h.flag.consume _)
        · cases e
    · next e =>
      split at e
      · cases e
      · split at e
        · cases e
        · cases e
          exact hjoin ..
  | enterMutex m => exact hx.elim
  | leaveMutex m => exact hx.elim

theorem Cont.Does.listed {c : Cont} (hx : c.Does a r x) (h : Listed a.d a.alive F)
    (hr : Caller cfg a r) : ∃ F', Listed x.d x.alive F' ∧ ∀ t ∈ F', t ∈ F ∨ t = r := by
  have hkeep : ∀ {d : Data}, FlagD d F → ∃ F', Listed d a.alive F' ∧ ∀ t ∈ F', t ∈ F ∨ t = r :=
    fun hd => ⟨F, ⟨hd, h.alive⟩, fun _ ht => Or.inl ht⟩
  have hoff : r ∉ F := h.flag.not_mem hr.waits
  cases c with
  | none => exact hx.elim
  | block k id n =>
    obtain rfl := hx
    exact hkeep (h.flag.wait_event hr.waits id n)
  | wait k id n =>
    obtain rfl := hx
    exact hkeep (h.flag.pendReturn r n)
  | waitFlag id n =>
    obtain rfl := hx
    refine hkeep ?_
    change FlagD (a.d.waitFlagReturn r id n).1 F
    unfold Data.waitFlagReturn
    split
    · exact h.flag
    · exact (h.flag.setPnode hoff).consume _
  | waitFlags flags ty n =>
    obtain rfl := hx
    refine hkeep ?_
    change FlagD (a.d.waitFlagsReturn r flags n).1 F
    unfold Data.waitFlagsReturn
    split
    · exact h.flag
    · exact (h.flag.setPnode hoff).consume _
  | enterMutex m => exact hx.elim

end Flags

/-! ## Sections -/

section Sections

variable {cfg : Env} {s : Kernel} {g : Ghost} {r t : Nat} {F : List Nat}

theorem alive_iff (h : Rep cfg s g) (t : Nat) : s.alive cfg t ↔ Live cfg g t := by
  have hw : s.freeTasks cfg = g.tcb.lst .free :=
    (h.tcb.single .free).walk_eq (h.tcb_length .free)
  unfold Kernel.alive Live
  rw [hw, h.tcb.mem .free t]

theorem Stable.congr {s' : Kernel} (h : Stable cfg s g r) (hv : s'.view = s.view)
    (hc : s'.cpu = s.cpu)
    (hq : s'.TaskSchedReq = s.TaskSchedReq) : Stable cfg s' g r := by
  have hp : s'.prio = s.prio := congrArg KView.prio hv
  refine h.move (h.coh.congr hv) hc (congrArg KView.state hv) hq rfl rfl ?_
  rw [hp]
  exact h.picked.first

theorem Ends.map {β γ : Type} {res : Option (Kernel × β)} {Q : β → Data → Ghost → Prop}
    {Q' : γ → Data → Ghost → Prop} (h : Ends cfg s r res Q) (f : β → γ)
    (hq : ∀ b d g, Q b d g → Q' (f b) d g) :
    Ends cfg s r (res.map fun x => (x.1, f x.2)) Q' := by
  rcases h with ⟨s', g', b, e, h1, h2⟩ | ⟨s1, g1, b, d, e, h1, h2⟩
  · refine Or.inl ⟨s', g', f b, ?_, h1, hq _ _ _ h2⟩
    rw [e]
    rfl
  · refine Or.inr ⟨s1, g1, f b, d, ?_, h1, hq _ _ _ h2⟩
    rw [e, Option.map_map]
    rfl

theorem Ends.mono {β : Type} {res : Option (Kernel × β)} {Q Q' : β → Data → Ghost → Prop}
    (h : Ends cfg s r res Q) (hq : ∀ b d g, Q b d g → Q' b d g) : Ends cfg s r res Q' := by
  rcases h with ⟨s', g', b, e, h1, h2⟩ | ⟨s1, g1, b, d, e, h1, h2⟩
  · exact Or.inl ⟨s', g', b, e, h1, hq _ _ _ h2⟩
  · exact Or.inr ⟨s1, g1, b, d, e, h1, hq _ _ _ h2⟩

theorem Calm.live_eq {g g' : Ghost} (h : Calm g g') : Live cfg g' = Live cfg g :=
  funext fun t => propext (h.live t)

theorem Created.live_eq {g g' : Ghost} (h : Created cfg g g' t) :
    Live cfg g' = fun u => u = t ∨ Live cfg g u := by
  funext u
  refine propext ⟨fun hu => ?_, fun hu => ?_⟩
  · by_cases hut : u = t
    · exact Or.inl hut
    · refine Or.inr ⟨hu.1, ?_⟩
      rw [← h.loc u hut]
      exact hu.2
  · by_cases hut : u = t
    · rw [hut]
      exact h.live
    · have hl := hu.resolve_left hut
      refine ⟨hl.1, ?_⟩
      rw [h.loc u hut]
      exact hl.2

theorem Deleted.live_eq {g g' : Ghost} (h : Deleted cfg g g' t) :
    Live cfg g' = fun u => u ≠ t ∧ Live cfg g u := by
  funext u
  refine propext ⟨fun hu => ?_, fun hu => ⟨hu.2.1, ?_⟩⟩
  · have hut : u ≠ t := by
      rintro rfl
      exact hu.2 h.free
    refine ⟨hut, hu.1, ?_⟩
    rw [← h.loc u hut]
    exact hu.2
  · rw [h.loc u hu.1]
    exact hu.2.2

/-- Nobody holds a mutex or waits for one. -/
structure NoMutex (cfg : Env) (s : Kernel) (g : Ghost) : Prop where
  id : ∀ t, Live cfg g t → s.mutexID t = INVALID_ID
  loc : ∀ t m, g.tcb.loc t ≠ some (.mtx m)

theorem Calm.noMutex {g g' : Ghost} (h : Calm g g') (hm : ∀ t m, g.tcb.loc t ≠ some (.mtx m)) :
    ∀ t m, g'.tcb.loc t ≠ some (.mtx m) := fun t m e => hm t m ((h.mtx t m).mp e)

/-- Nobody moved into or out of a mutex list. -/
structure Unmoved (g g' : Ghost) : Prop where
  lst : ∀ m, g'.tcb.lst (.mtx m) = g.tcb.lst (.mtx m)
  mtx : ∀ t m, g'.tcb.loc t = some (.mtx m) ↔ g.tcb.loc t = some (.mtx m)

theorem Unmoved.refl (g : Ghost) : Unmoved g g := ⟨fun _ => rfl, fun _ _ => Iff.rfl⟩

theorem Calm.unmoved {g g' : Ghost} (h : Calm g g') : Unmoved g g' := ⟨h.lst, h.mtx⟩

/-- A task that was in no mutex list has changed. -/
theorem unmoved_of_loc {g g' : Ghost} {t : Nat}
    (hlst : ∀ m, g'.tcb.lst (.mtx m) = g.tcb.lst (.mtx m))
    (hloc : ∀ u, u ≠ t → g'.tcb.loc u = g.tcb.loc u) (h : ∀ m, g.tcb.loc t ≠ some (.mtx m))
    (h' : ∀ m, g'.tcb.loc t ≠ some (.mtx m)) : Unmoved g g' := by
  refine ⟨hlst, fun u m => ?_⟩
  by_cases hu : u = t
  · rw [hu]
    exact ⟨fun e => absurd e (h' m), fun e => absurd e (h m)⟩
  · rw [hloc u hu]

theorem Created.unmoved {g g' : Ghost} (h : Created cfg g g' t) : Unmoved g g' := by
  refine unmoved_of_loc h.lst h.loc (fun m => ?_) h.off
  rw [h.was]
  exact fun e => nomatch e

theorem Deleted.unmoved {g g' : Ghost} (h : Deleted cfg g g' t)
    (ht : ∀ m, g.tcb.loc t ≠ some (.mtx m)) :
    Unmoved g g' := by
  refine unmoved_of_loc h.lst h.loc ht fun m => ?_
  rw [h.free]
  exact fun e => nomatch e

/-- A call with the answer `f b`, that has left `d`. -/
theorem Section.answers {c : Call} {a : Abs} {β : Type} {res : Option (Kernel × β)}
    {Q : β → Data → Prop} (h : Section cfg s g r res Q) (hs : Stable cfg s g r)
    (f : β → Cont × Option Ret)
    (hres : c.exec cfg s = res.map fun x => (x.1, f x.2))
    (hq : ∀ b d, Q b d → c.Does cfg a r ⟨d, Live cfg g, (f b).1, (f b).2⟩) :
    Ends cfg s r (c.exec cfg s) fun b d g1 =>
      c.Does cfg a r ⟨d, Live cfg g1, b.1, b.2⟩ ∧ Unmoved g g1 := by
  rw [hres]
  refine (h.ends hs).map f fun b d g1 hb => ⟨?_, hb.2.unmoved⟩
  rw [hb.2.live_eq]
  exact hq b d hb.1

theorem coClearFlag_data (s : Kernel) (g : Ghost) (id : Nat) :
    ((coClearFlag s id).1.data g, (coClearFlag s id).2) = (s.data g).clearFlag id := by
  unfold coClearFlag Data.clearFlag
  by_cases hb : badFlag s id
  · rw [if_pos hb, if_pos (show (s.data g).aside.badFlag id from hb)]
  · rw [if_neg hb, if_neg (show ¬ (s.data g).aside.badFlag id from hb)]
    rfl

theorem pendReturn_data (s : Kernel) (g : Ghost) (t n : Nat) :
    ((pendReturn s t n).1.data g, (pendReturn s t n).2) = (s.data g).pendReturn t n := by
  unfold pendReturn Data.pendReturn
  by_cases hb : n ≠ 0 ∧ s.pmail t = 0
  · rw [if_pos hb, if_pos (show n ≠ 0 ∧ (s.data g).aside.pmail t = 0 from hb)]
  · rw [if_neg hb, if_neg (show ¬ (n ≠ 0 ∧ (s.data g).aside.pmail t = 0) from hb)]
    rfl

theorem coDelTask_answers (h : Stable cfg s g r) (hr : r ≠ 0) (hf : FlagOk cfg s g F)
    (hlive : Live cfg g t) (hid : s.mutexID t = INVALID_ID)
    (hloc : ∀ m, g.tcb.loc t ≠ some (.mtx m))
    (hw : ¬ s.Wild t) (cont : Nat → Cont) (log : List Entry) :
    Ends cfg s r ((coDelTask cfg s t).map fun x => returned x.1 (0, x.2)) fun b d g1 =>
      Abs.Deletes ⟨s.data g, Live cfg g, cont, log⟩ t ⟨d, Live cfg g1, b.1, b.2⟩ ∧
      Unmoved g g1 := by
  refine (coDelTask_ends h hr hf hlive hid hloc hw).map
    (fun st => (Cont.none, some (0, st))) fun st d g1 hq => ?_
  rcases hq with ⟨rfl, rfl, hst⟩ | ⟨rfl, hd, rfl⟩
  · exact ⟨Or.inl ⟨st, hst, rfl⟩, Unmoved.refl _⟩
  · refine ⟨Or.inr ?_, hd.unmoved hloc⟩
    rw [hd.live_eq]

/-- The task that a call deletes or gives another priority. -/
def Call.subject (r : Nat) : Call → Option Nat
  | .delTask t | .setPriority t _ => some t
  | .exitTask => some r
  | _ => none

/-- The call follows the mark of a released waiter as a pointer. -/
def Call.Wild (k : Kernel) : Call → Prop
  | .delTask t => k.Wild t
  | _ => False

/-- The first section of each call but those of the mutexes. Tasks may own mutexes and wait for
    them, but not the task that is deleted or given another priority. -/
theorem Call.exec_unmoved (h : Stable cfg s g r) (hr : r ≠ 0) (hf : FlagOk cfg s g F)
    {rs : List SQC}
    {c : Call} (hfine : c.Fine cfg s rs) (hi : rs = [] → s.IsrReq = false)
    (hmtx : ∀ t m, g.tcb.loc t = some (.mtx m) → m ≠ INVALID_ID)
    (hout : ∀ t, c.subject r = some t → s.mutexID t = INVALID_ID) (hw : ¬ c.Wild s)
    (cont : Nat → Cont)
    (log : List Entry) : Ends cfg s r (c.exec cfg s) fun b d g1 =>
      c.Does cfg ⟨s.data g, Live cfg g, cont, log⟩ r ⟨d, Live cfg g1, b.1, b.2⟩ ∧ Unmoved g g1 := by
  have hoff : ∀ {t : Nat}, Live cfg g t → s.mutexID t = INVALID_ID → ∀ m,
    g.tcb.loc t ≠ some (.mtx m) :=
    fun hl hn m e => hmtx _ m e (((h.coh.task _ hl).mtx m e).2.1.symm.trans hn)
  have hlive : ∀ {t : Nat}, s.alive cfg t → Live cfg g t := fun ha => (alive_iff h.coh.rep _).mp ha
  cases c with
  | createTask task stk parameter =>
    refine (createTask_ends h hr (hi hfine) task stk parameter).map
      (fun i => (Cont.none, some (i, StatusType.E_OK))) fun i d g1 hq => ?_
    rcases hq with ⟨rfl, rfl, rfl⟩ | ⟨p, w, -, hc, rfl⟩
    · exact ⟨Or.inl rfl, Unmoved.refl _⟩
    · refine ⟨Or.inr ⟨i, p, w, hc.live.1, fun e => e.2 hc.was, ?_⟩, hc.unmoved⟩
      rw [hc.live_eq]
  | delTask t =>
    have hn := hout t rfl
    exact coDelTask_answers h hr hf (hlive hfine) hn (hoff (hlive hfine) hn) hw cont log
  | exitTask =>
    have hn := hout r rfl
    have hrun : ¬ s.Wild r := fun e => by
      rw [Kernel.Wild, h.picked.running] at e
      exact nomatch e.2.1
    have := coDelTask_answers h hr hf h.picked.live hn (hoff h.picked.live hn) hrun cont log
    rwa [← coExitTask_eq h] at this
  | suspendTask t =>
    refine (coSuspendTask_section h hr (hlive hfine)).answers h
      (fun st => (Cont.none, some (0, st))) rfl fun st d hd => ⟨st, ?_⟩
    rcases hd with rfl | rfl
    · exact Or.inl rfl
    · exact Or.inr rfl
  | awakeTask t =>
    refine (coAwakeTask_section h (hlive hfine) fun m e => hmtx t m e).answers h
      (fun st => (Cont.none, some (0, st))) rfl fun st d hd => ⟨st, ?_⟩
    rcases hd with rfl | ⟨rfl, h1, h2, h3⟩
    · exact Or.inl rfl
    · refine Or.inr ⟨rfl, h1, h2, fun e => ?_⟩
      rw [show g.tcb.loc t = some .dly from e] at h3
      exact absurd h3 (by simp)
  | setPriority t p =>
    refine (coSetPriority_ends h hr (hlive hfine.1) (hout t rfl) hfine.2 p).map
      (fun st => (Cont.none, some (0, st))) fun st d g1 hq => ?_
    obtain ⟨hc, hq⟩ := hq
    refine ⟨⟨st, ?_⟩, hc.unmoved⟩
    rw [hc.live_eq]
    rcases hq with ⟨rfl, hn⟩ | ⟨h1, h2, h3, rfl⟩
    · exact Or.inl ⟨rfl, hn⟩
    · exact Or.inr ⟨rfl, h1, h2, h3⟩
  | tickDelay n =>
    refine (coTickDelay_section h hr hfine).answers h
      (fun st => (Cont.none, some (0, st))) rfl fun st d hd => ⟨st, ?_⟩
    rcases hd with rfl | rfl
    · exact Or.inl rfl
    · exact Or.inr rfl
  | resetDelay t n =>
    have hl := hlive hfine.1
    have he : n = 0 → g.evt.loc t = none := fun hn => by
      have := mt (h.coh.eventID_iff hl).mpr (not_not.mpr (hfine.2.2 hn).1)
      exact Option.eq_none_iff_forall_ne_some.mpr fun e h' => this ⟨e, h'⟩
    refine (coResetTaskDelayTick_section h hl hfine.2.1 he).answers h
      (fun st => (Cont.none, some (0, st))) rfl fun st d hd => ⟨st, ?_⟩
    rcases hd with rfl | ⟨rfl, h1, h2⟩
    · exact Or.inl rfl
    · exact Or.inr ⟨rfl, h1, h2, he h1, (hfine.2.2 h1).2⟩
  | accept k id =>
    refine (acceptEvent_restful h.enter hfine id).section.answers h
      (fun b => (Cont.none, some b)) rfl fun b d hd => ?_
    change _ = Abs.now _ _ _
    rw [← hd]
    rfl
  | pend k id n =>
    refine (pendEvent_restful h hfine.1 id).section.answers h (fun b =>
      b.elim (.block k id n, none) fun ret => (Cont.none, some ret)) ?_ fun b d hd => ?_
    · refine congrArg (Option.map · _) (funext fun x => ?_)
      rcases x with ⟨k, _ | ret⟩ <;> rfl
    · change _ = _
      rw [← hd]
      cases b with
      | none => rfl
      | some ret => rfl
  | post k id v =>
    have e : postEvent cfg s k id v = postEvent cfg s k id (k.mail v) := by
      cases k <;> rfl
    have hsec : Section cfg s g r (postEvent cfg s k id (k.mail v)) fun st d =>
        (d, st) = (s.data g).post cfg k id (k.mail v) :=
      (postEvent_restful h.enter hfine id fun hk => by rw [hk]; rfl).section
    refine hsec.answers h
      (fun st => (Cont.none, some (0, st))) (congrArg (Option.map _) e) fun st d hd => ?_
    change _ = Abs.now _ _ _
    rw [← hd]
    rfl
  | createFlag auto init =>
    refine (coCreateFlag_section h.enter auto init).answers h
      (fun i => (Cont.none, some (i, StatusType.E_OK))) rfl fun i d hd => ?_
    change _ = Abs.now _ _ _
    rw [← hd]
    rfl
  | delFlag id opt =>
    refine (coDelFlag_section h.enter hf id opt).answers h
      (fun st => (Cont.none, some (0, st))) rfl fun st d hd => ?_
    change _ = Abs.now _ _ _
    rw [← hd]
    rfl
  | setFlag id =>
    refine (coSetFlag_restful h.enter hf id).section.answers h
      (fun st => (Cont.none, some (0, st))) rfl fun st d hd => ?_
    change _ = Abs.now _ _ _
    rw [← hd]
    rfl
  | clearFlag id =>
    have hs : Stable cfg (coClearFlag s id).1 g r := by
      unfold coClearFlag
      split
      · exact h
      · exact h.congr rfl rfl rfl
    refine Or.inl ⟨_, g, _, rfl, hs, ?_, Unmoved.refl _⟩
    change _ = Abs.now _ _ _
    rw [← coClearFlag_data s g id]
    rfl
  | acceptFlag id =>
    refine (coAcceptSingleFlag_section h.enter id).answers h
      (fun st => (Cont.none, some (0, st))) rfl fun st d hd => ?_
    change _ = Abs.now _ _ _
    rw [← hd]
    rfl
  | acceptFlags flags ty =>
    refine (coAcceptMultipleFlags_section h.enter flags ty).answers h
      (fun b => (Cont.none, some (b.1.toNat, b.2))) rfl fun b d hd => ?_
    change _ = Abs.now _ _ _
    rw [← hd]
    rfl
  | waitFlag id n =>
    refine (coWaitForSingleFlag_section h hr id hfine).answers h (fun b =>
      b.elim (.waitFlag id n, none) fun st => (Cont.none, some (0, st))) ?_ fun b d hd => ?_
    · refine congrArg (Option.map · _) (funext fun x => ?_)
      rcases x with ⟨k, _ | ret⟩ <;> rfl
    · change _ = _
      rw [← hd]
      cases b with
      | none => rfl
      | some ret => rfl
  | waitFlags flags ty n =>
    refine (coWaitForMultipleFlags_section h hr flags ty hfine).answers h (fun b =>
      b.elim (.waitFlags flags ty n, none) fun ret =>
        (Cont.none, some (ret.1.toNat, ret.2))) ?_ fun b d hd => ?_
    · refine congrArg (Option.map · _) (funext fun x => ?_)
      rcases x with ⟨k, _ | ret⟩ <;> rfl
    · change _ = _
      rw [← hd]
      cases b with
      | none => rfl
      | some ret => rfl
  | enterMutex m => exact hfine.elim
  | leaveMutex m => exact hfine.elim

/-- The first section of each call, when there is no mutex. -/
theorem Call.exec_ends (h : Stable cfg s g r) (hr : r ≠ 0) (hf : FlagOk cfg s g F)
    (hm : NoMutex cfg s g) {rs : List SQC} {c : Call} (hfine : c.Fine cfg s rs)
    (hi : rs = [] → s.IsrReq = false) (hw : ¬ c.Wild s) (cont : Nat → Cont) (log : List Entry) :
    Ends cfg s r (c.exec cfg s) fun b d g1 =>
      c.Does cfg ⟨s.data g, Live cfg g, cont, log⟩ r ⟨d, Live cfg g1, b.1, b.2⟩ ∧
        ∀ t m, g1.tcb.loc t ≠ some (.mtx m) := by
  have hlive : ∀ {t : Nat}, s.alive cfg t → Live cfg g t := fun ha => (alive_iff h.coh.rep _).mp ha
  refine (Call.exec_unmoved h hr hf hfine hi (fun t m e => absurd e (hm.loc t m))
    (fun t ht => hm.id t ?_) hw
    cont log).mono fun b d g1 hq => ⟨hq.1, fun t m e => hm.loc t m ((hq.2.mtx t m).mp e)⟩
  cases c with
  | delTask u =>
    obtain rfl := Option.some.inj ht
    exact hlive hfine
  | setPriority u p =>
    obtain rfl := Option.some.inj ht
    exact hlive hfine.1
  | exitTask =>
    obtain rfl := Option.some.inj ht
    exact h.picked.live
  | _ => exact nomatch ht

/-- The events and timeouts that a task in the middle of a pend has passed. -/
def Cont.Fine (cfg : Env) (s : Kernel) : Cont → Prop
  | .block _ id n => id < cfg.maxEvent ∧
    (s.eventSortType id = sortFifo ∨ s.eventSortType id = sortPrio) ∧ n < 2 ^ 31
  | .enterMutex _ => False
  | _ => True

/-- The later sections, but for that of `CoEnterMutexSection`. -/
theorem Cont.exec_unmoved (h : Stable cfg s g r) (hr : r ≠ 0) {c : Cont} (hne : c ≠ .none)
    (hfine : c.Fine cfg s) (cont : Nat → Cont) (log : List Entry) :
    Ends cfg s r (c.exec cfg s r) fun b d g1 =>
      c.Does ⟨s.data g, Live cfg g, cont, log⟩ r ⟨d, Live cfg g1, b.1, b.2⟩ ∧ Unmoved g g1 := by
  cases c with
  | none => exact absurd rfl hne
  | block k id n =>
    obtain ⟨s1, g1, e1, e2, -⟩ := pendWait_section h hr hfine.2.2 hfine.1 hfine.2.1
    refine Or.inr ⟨s1, g1, (.wait k id n, Option.none), _, ?_,
      ⟨e2.pend, e2.lock, Calm.refl _, e2.data⟩, ?_, e2.calm.unmoved⟩
    · exact congrArg (Option.map _) e1
    · change _ = Abs.later _ _ _
      rw [e2.calm.live_eq]
      rfl
  | wait k id n =>
    have hs : Stable cfg (pendReturn s r n).1 g r := by
      unfold pendReturn
      split
      · exact h
      · exact h.congr rfl rfl rfl
    refine Or.inl ⟨_, g, _, rfl, hs, ?_, Unmoved.refl _⟩
    change _ = Abs.now _ _ _
    rw [← pendReturn_data s g r n]
    rfl
  | waitFlag id n =>
    refine ((waitSingleReturn_section h id n).ends h).map (fun st => (Cont.none, some (0, st)))
      fun st d g1 hb => ⟨?_, hb.2.unmoved⟩
    change _ = Abs.now _ _ _
    rw [← hb.1, hb.2.live_eq]
    rfl
  | waitFlags flags ty n =>
    refine ((waitMultipleReturn_section h flags n).ends h).map
      (fun b => (Cont.none, some (b.1.toNat, b.2))) fun st d g1 hb => ⟨?_, hb.2.unmoved⟩
    change _ = Abs.now _ _ _
    rw [← hb.1, hb.2.live_eq]
    rfl
  | enterMutex m => exact hfine.elim

theorem Cont.exec_ends (h : Stable cfg s g r) (hr : r ≠ 0) (hm : NoMutex cfg s g) {c : Cont}
    (hne : c ≠ .none) (hfine : c.Fine cfg s) (cont : Nat → Cont) (log : List Entry) :
    Ends cfg s r (c.exec cfg s r) fun b d g1 =>
      c.Does ⟨s.data g, Live cfg g, cont, log⟩ r ⟨d, Live cfg g1, b.1, b.2⟩ ∧
        ∀ t m, g1.tcb.loc t ≠ some (.mtx m) :=
  (Cont.exec_unmoved h hr hne hfine cont log).mono fun _ _ _ hq =>
    ⟨hq.1, fun t m e => hm.loc t m ((hq.2.mtx t m).mp e)⟩

end Sections

/-! ## The end of a step -/

section Finish

variable {cfg : Env} {s : Kernel} {g : Ghost} {r : Nat} {d : Data} {F : List Nat}

theorem Listed.flagOk (h : Listed d (Live cfg g) F) (hd : Holds s g d)
    (hm : ∀ t ∈ F, ∀ m, g.tcb.loc t ≠ some (.mtx m)) : FlagOk cfg s g F := by
  refine ⟨by rw [hd.aside]; exact h.flag.list, fun t ht => ?_⟩
  obtain ⟨h1, h2⟩ := h.flag.wait t ht
  refine ⟨h.alive t ht, (hd.waits t).mpr h1, ?_, hm t ht⟩
  rw [hd.evt]
  exact h2

theorem RingOk.congr {s' : Kernel} (h : RingOk cfg s)
    (e : s'.aside.fixed.ring = s.aside.fixed.ring) : RingOk cfg s' := by
  have e1 : s'.IsrReq = s.IsrReq := congrArg Prod.fst e
  have e2 : s'.TimeReq = s.TimeReq := congrArg (fun x => x.2.1) e
  have e3 : s'.TimerReq = s.TimerReq := congrArg (fun x => x.2.2.1) e
  have e4 : s'.ServiceReq = s.ServiceReq := congrArg (fun x => x.2.2.2) e
  refine ⟨?_, ?_, ?_, e2.trans h.time, e3.trans h.timer⟩
  · rw [e4]
    exact h.cnt
  · rw [e4]
    exact h.head
  · rw [e1, e4]
    exact h.req

theorem Holds.self {d : Data} (h : Holds s g d) : Holds s g (d.setRing s.IsrReq s.ServiceReq) := by
  refine ⟨?_, h.evt, h.waits, h.timed⟩
  change s.aside = d.aside.setRing s.IsrReq s.ServiceReq
  rw [← h.aside]
  rfl

/-- The state in which a section that has done `d` leaves the system, with the requests `rs`. -/
structure Ended (cfg : Env) (rs : List SQC) (s' : Kernel) (g1 : Ghost) (d : Data) (g' : Ghost)
    (r' : Nat) (F' : List Nat) (d' : Data) (b : Bool) (q : SRQ) : Prop where
  stable : Stable cfg.served s' g' r'
  flags : FlagOk cfg.served s' g' F'
  calm : Calm g1 g'
  serves : ∃ cs, cs ⊆ rs ∧ Serves cfg.served d cs d'
  data : Holds s' g' (d'.setRing b q)
  ring : b = false → q.cnt = 0 ∧ q.head < cfg.maxServiceRequest

/-- A call that has returned at once. -/
theorem Stable.ended (h : Stable cfg.served s g r) (hr : RingOk cfg.served s) (rs : List SQC)
    (hF : Listed (s.data g) (Live cfg.served g) F)
    (hm : ∀ t ∈ F, ∀ m, g.tcb.loc t ≠ some (.mtx m)) :
    Ended cfg rs s g (s.data g) g r F (s.data g) s.IsrReq s.ServiceReq := by
  have hd := holds_data s g
  refine ⟨h, hF.flagOk hd hm, Calm.refl _, ⟨[], List.nil_subset _, .nil _⟩, hd.self,
    fun hb => ⟨?_, hr.head⟩⟩
  have := hr.req
  rw [hb] at this
  exact not_not.mp (of_decide_eq_false this.symm)

/-- The unlock at the end of a section. -/
theorem Body.ended {s1 : Kernel} {g1 : Ghost} (h : Body cfg.served s g r d s1 g1)
    (hl : s.OSSchedLock = 0)
    (hr : RingOk cfg.served s) (hq : d.aside.fixed.ring = s.aside.fixed.ring)
    (hF : Listed d (Live cfg.served g1) F) (hm : ∀ t ∈ F, ∀ m, g1.tcb.loc t ≠ some (.mtx m)) :
    ∃ s' g' r' F' d' q', osSchedUnlock cfg.served s1 = some s' ∧
      Ended cfg (s.ServiceReq.pending cfg.maxServiceRequest)
      (takeSwitch s') g1 d g' r' F' d' false q' ∧
      Eased s1 g1 (takeSwitch s') g' := by
  have hb : Body cfg.served s g1 r d s1 g1 := ⟨h.pend, h.lock, Calm.refl _, h.data⟩
  have hr1 : RingOk cfg.served s1 := hr.congr (by rw [h.data.aside]; exact hq)
  obtain ⟨s', g', r', F', d', q', e1, e2, e3, e4, e5, e6, e7, e8, e9⟩ :=
    hb.drain hl (hF.flagOk h.data hm) hr1
  have hq : s1.ServiceReq = s.ServiceReq := by
    refine (congrArg Aside.ServiceReq h.data.aside).trans ?_
    exact congrArg (fun f : Bool × Bool × Bool × SRQ => f.2.2.2) hq
  rw [hq] at e7
  exact ⟨s', g', r', F', d', q', e1, ⟨e2, e4, e3, ⟨_, List.Subset.refl _, e7⟩, e8,
    fun _ => ⟨e5, e6⟩⟩, e9⟩

theorem Ends.finish {β : Type} {res : Option (Kernel × β)} {Q : β → Data → Ghost → Prop}
    (h : Ends cfg.served s r res Q) (hl : s.OSSchedLock = 0) (hr : RingOk cfg.served s)
    (hQ : ∀ b d g1, Q b d g1 → d.aside.fixed.ring = s.aside.fixed.ring ∧
      ∃ F', Listed d (Live cfg.served g1) F' ∧ ∀ t ∈ F', ∀ m, g1.tcb.loc t ≠ some (.mtx m)) :
    ∃ s' b d g1 g' r' F' d' b' q', res = some (s', b) ∧ Q b d g1 ∧
      Ended cfg (s.ServiceReq.pending cfg.maxServiceRequest)
      (takeSwitch s') g1 d g' r' F' d' b' q' ∧
      (s.IsrReq = false → b' = false) := by
  rcases h with ⟨s', g', b, e, h1, h2⟩ | ⟨s1, g1, b, d, e, h1, h2⟩
  · obtain ⟨q1, F', hF, hm⟩ := hQ _ _ _ h2
    refine ⟨s', b, s'.data g', g', g', r, F', s'.data g', s'.IsrReq, s'.ServiceReq, e, h2, ?_,
      fun hs => (congrArg Prod.fst q1).trans hs⟩
    rw [h1.takeSwitch]
    exact h1.ended (hr.congr q1) _ hF hm
  · obtain ⟨q1, F1, hF, hm⟩ := hQ _ _ _ h2
    obtain ⟨s', g', r', F', d', q', e1, e2, -⟩ := h1.ended hl hr q1 hF hm
    refine ⟨s', b, d, g1, g', r', F', d', false, q', ?_, h2, e2, fun _ => rfl⟩
    rw [e, e1]
    rfl

end Finish

end CoOS
