/-
  The flags that `CoWaitForMultipleFlags` returns. The immediate path returns the ready flags that
  it has just tested. A task that has waited returns the flags that are ready when it runs again,
  which may be fewer than those that released it: they are what it waited for if every step in
  between leaves it enough of them (`Spares`).
-/
import CoOS.Flag.Masks

namespace CoOS

open Function (update)
open DList KeyOrder

/-- The flags `v` are what a wait for `flags` asks for. -/
def Suffices (ty : Nat) (flags v : BitVec 32) : Prop :=
  (ty = OPT_WAIT_ALL → v = flags) ∧ (ty = OPT_WAIT_ANY → v ≠ 0)

instance (ty : Nat) (flags v : BitVec 32) : Decidable (Suffices ty flags v) :=
  inferInstanceAs (Decidable (_ ∧ _))

/-- A wait for several flags that returns E_OK returns flags it asked for. -/
def Entry.Asked (en : Entry) : Prop :=
  match en.op with
  | .inl (.waitFlags flags ty _) | .inr (.waitFlags flags ty _) =>
    ∀ v, en.okVal = some v → ∃ w : BitVec 32, v = w.toNat ∧ Mask.Within w flags ∧
      Suffices ty flags w
  | _ => True

/-! ## What a step may clear -/

/-- The flags that a step clears. -/
def Sys.clears (m : Sys) : Act → BitVec 32
  | .call (.clearFlag id) => flagBit id
  | .call (.acceptFlag id) | .call (.waitFlag id _) => flagBit id &&& m.k.resetOpt
  | .call (.acceptFlags flags ty) | .call (.waitFlags flags ty _) =>
    if springs (flags &&& m.k.flagRdy) flags ty then flags &&& m.k.flagRdy &&& m.k.resetOpt else 0
  | .resume =>
    match m.k.TCBRunning with
    | none => 0
    | some r =>
      match m.cont r with
      | .waitFlag id n => if n ≠ 0 ∧ m.k.pnode r = .null then 0 else flagBit id &&& m.k.resetOpt
      | .waitFlags flags _ n =>
        if n ≠ 0 ∧ m.k.pnode r = .null then 0 else flags &&& m.k.flagRdy &&& m.k.resetOpt
      | _ => 0
  | _ => 0

/-- Do the ready flags `rdy` suffice for the wait? -/
def Cont.suffices (rdy : BitVec 32) : Cont → Prop
  | .waitFlags flags ty _ => Suffices ty flags (flags &&& rdy)
  | _ => True

instance (rdy : BitVec 32) (c : Cont) : Decidable (c.suffices rdy) :=
  match c with
  | .waitFlags flags ty _ => inferInstanceAs (Decidable (Suffices ty flags (flags &&& rdy)))
  | .none | .block .. | .wait .. | .waitFlag .. | .enterMutex _ => inferInstanceAs (Decidable True)

/-- The step leaves enough flags to each task that has been released and has not run again. -/
def Spares (cfg : Env) (m : Sys) (act : Act) : Prop :=
  ∀ t, t < cfg.tasks → m.k.TCBRunning ≠ some t → m.k.pnode t = .ones →
    (m.cont t).suffices (m.k.flagRdy &&& ~~~ m.clears act)

instance (cfg : Env) (m : Sys) (act : Act) : Decidable (Spares cfg m act) :=
  inferInstanceAs (Decidable (∀ t, t < cfg.tasks → _ → _ → _))

def Act.deletesFlag : Act → Bool
  | .call (.delFlag _ _) => true
  | _ => false

/-! ## How a wait stands -/

/-- The task `t` waits for `flags`: its node is in the list, or its time is up, or it has been
    released by enough flags. -/
inductive Stands (d : Data) (t : Nat) (flags : BitVec 32) (ty n : Nat) : Prop
  | listed (hp : d.aside.pnode t = .node t) (hf : d.aside.waitFlags t = flags)
      (hy : d.aside.waitType t = ty) (ht : d.timed t → n ≠ 0)
  | late (hp : d.aside.pnode t = .null) (hn : n ≠ 0)
  | free (hp : d.aside.pnode t = .ones) (ht : ¬ d.timed t)
      (hs : Suffices ty flags (flags &&& d.aside.flagRdy))

structure FlagWaits (a : Abs) : Prop where
  wait : ∀ t flags ty n, a.cont t = .waitFlags flags ty n → Stands a.d t flags ty n
  dead : ∀ t, ¬ a.alive t → a.cont t = .none
  log : ∀ en ∈ a.log, en.Asked

section Stands

variable {cfg : Env} {a : Abs} {d d' : Data} {t ty n : Nat} {flags : BitVec 32}

theorem Suffices.more {x y : BitVec 32} (h : Suffices ty flags (flags &&& x))
    (hxy : Mask.Within x y) :
    Suffices ty flags (flags &&& y) := by
  refine ⟨fun e => Mask.Within.trans (h.1 e) hxy, fun e hz => h.2 e ?_⟩
  rw [← show x &&& y = x from hxy, BitVec.and_comm x, ← BitVec.and_assoc, hz]
  exact BitVec.zero_and

theorem suffices_of_springs {v : BitVec 32} (h : springs v flags ty) : Suffices ty flags v := by
  rcases h with ⟨h1, h2⟩ | ⟨h1, h2⟩
  · exact ⟨fun e => absurd (h2.symm.trans e) (by decide), fun _ => h1⟩
  · exact ⟨fun _ => h1, fun e => absurd (h2.symm.trans e) (by decide)⟩

/-- Nothing happens to the task, and enough flags are left. -/
theorem Stands.keep (h : Stands d t flags ty n) (hp : d'.aside.pnode t = d.aside.pnode t)
    (hf : d'.aside.waitFlags t = d.aside.waitFlags t)
    (hy : d'.aside.waitType t = d.aside.waitType t)
    (ht : d'.timed t → d.timed t)
    (hs : d.aside.pnode t = .ones → Suffices ty flags (flags &&& d.aside.flagRdy) →
      Suffices ty flags (flags &&& d'.aside.flagRdy)) : Stands d' t flags ty n := by
  cases h with
  | listed h1 h2 h3 h4 => exact .listed (hp.trans h1) (hf.trans h2) (hy.trans h3) fun e => h4 (ht e)
  | late h1 h2 => exact .late (hp.trans h1) h2
  | free h1 h2 h3 => exact .free (hp.trans h1) (fun e => h2 (ht e)) (hs h1 h3)

/-- **CoSetFlag** releases tasks that the ready flags satisfy. -/
theorem Stands.set (h : Stands d t flags ty n) (hw : Wf cfg d) (id : Nat) :
    Stands ((d.setRdy (d.aside.flagRdy ||| flagBit id)).springs (d.wakes cfg id)) t flags ty n := by
  have hmem : ∀ u ∈ d.wakes cfg id, d.aside.pnode u = .node u ∧
      d.aside.masks.sat (d.aside.flagRdy ||| flagBit id) u = true := fun u hu => by
    obtain ⟨h1, h2⟩ := mem_released hu
    exact ⟨hw.flag.list.node u h1, h2⟩
  have hmasks : ((d.setRdy (d.aside.flagRdy ||| flagBit id)).springs (d.wakes cfg id)).aside.masks =
      { d.aside.masks with flagRdy := d.aside.flagRdy ||| flagBit id } := springs_masks _ _
  have hrd : ((d.setRdy (d.aside.flagRdy ||| flagBit id)).springs (d.wakes cfg id)).aside.flagRdy =
      d.aside.flagRdy ||| flagBit id := congrArg Masks.flagRdy hmasks
  have hp : ((d.setRdy (d.aside.flagRdy ||| flagBit id)).springs (d.wakes cfg id)).aside.pnode t =
      if t ∈ d.wakes cfg id then .ones else d.aside.pnode t := springs_pnode _ _ t
  by_cases ht : t ∈ d.wakes cfg id
  · -- the task is released
    rw [if_pos ht] at hp
    obtain ⟨h1, h2⟩ := hmem t ht
    cases h with
    | listed _ h3 h4 _ =>
      refine .free hp (fun e => e.1 ht) ?_
      rw [hrd]
      unfold Masks.sat at h2
      rw [show d.aside.masks.waitFlags t = flags from h3,
        show d.aside.masks.waitType t = ty from h4] at h2
      refine ⟨fun e => ?_, fun e => ?_⟩
      · rw [if_pos e] at h2
        exact beq_iff_eq.mp h2
      · rw [if_neg (by rw [e]; decide)] at h2
        exact bne_iff_ne.mp h2
    | late h3 _ => exact nomatch h1.symm.trans h3
    | free h3 _ _ => exact nomatch h1.symm.trans h3
  · rw [if_neg ht] at hp
    refine h.keep hp (congrFun (congrArg Masks.waitFlags hmasks) t)
      (congrFun (congrArg Masks.waitType hmasks) t)
      (fun e => e.2) fun _ hs => ?_
    rw [hrd]
    exact hs.more ((Mask.Within.refl _).or_right _)

theorem dropFlag_pnode {b : Aside} {F : List Nat} (h : FlagList b F) (u : Nat) :
    (b.dropFlag u).pnode t = if t = u ∧ t ∈ F then .null else b.pnode t := by
  unfold Aside.dropFlag
  by_cases hu : u ∈ F
  · rw [h.node u hu]
    dsimp only
    rw [removeLink_pnode]
    by_cases ht : t = u
    · rw [ht, Function.update_self, if_pos ⟨rfl, hu⟩]
    · rw [Function.update_of_ne ht, if_neg fun e => ht e.1]
  · have hno : ¬ (t = u ∧ t ∈ F) := fun e => hu (e.1 ▸ e.2)
    rw [if_neg hno]
    split
    · next n hn => exact absurd hn (h.off u hu n)
    · rfl

/-- The nodes of the tasks of `T` leave the list. -/
theorem dropFlags_pnode (T : List Nat) : ∀ {b : Aside} {F : List Nat}, FlagList b F →
    (T.foldl Aside.dropFlag b).pnode t = if t ∈ T ∧ t ∈ F then .null else b.pnode t := by
  induction T with
  | nil => exact fun _ => (if_neg fun e => List.not_mem_nil e.1).symm
  | cons u T ih =>
    intro b F h
    rw [List.foldl_cons, ih (h.dropFlag u), dropFlag_pnode h u]
    by_cases htu : t = u
    · have hne : t ∉ F.erase u := by
        rw [htu]
        exact h.nodup.not_mem_erase
      rw [if_neg fun e => hne e.2]
      exact if_congr (by simp [htu]) rfl rfl
    · rw [if_neg (c := t = u ∧ t ∈ F) fun e => htu e.1]
      refine if_congr ?_ rfl rfl
      rw [List.mem_erase_of_ne htu, List.mem_cons]
      exact and_congr_left fun _ => ⟨Or.inr, fun e => e.resolve_left htu⟩

theorem dropFlags_masks (T : List Nat) :
    ∀ b : Aside, (T.foldl Aside.dropFlag b).masks = b.masks := by
  induction T with
  | nil => exact fun _ => rfl
  | cons u T ih => exact fun b => (ih (b.dropFlag u)).trans dropFlag_masks

/-- The times of the tasks of `T` are up. -/
theorem Stands.expire (h : Stands d t flags ty n) (hw : Wf cfg d) {T : List Nat}
    (hT : t ∈ T → d.timed t) : Stands (d.expire T) t flags ty n := by
  have hp : (d.expire T).aside.pnode t =
      if t ∈ T ∧ t ∈ d.aside.flagTasks cfg then .null else d.aside.pnode t :=
    dropFlags_pnode T hw.flag.list
  have hmasks : (d.expire T).aside.masks = d.aside.masks := dropFlags_masks T d.aside
  by_cases ht : t ∈ T ∧ t ∈ d.aside.flagTasks cfg
  · rw [if_pos ht] at hp
    cases h with
    | listed _ _ _ h4 => exact .late hp (h4 (hT ht.1))
    | late _ h2 => exact .late hp h2
    | free _ h2 _ => exact absurd (hT ht.1) h2
  · rw [if_neg ht] at hp
    refine h.keep hp (congrFun (congrArg Masks.waitFlags hmasks) t)
      (congrFun (congrArg Masks.waitType hmasks) t)
      (fun e => e.2) fun _ hs => ?_
    rw [show (d.expire T).aside.flagRdy = d.aside.flagRdy from congrArg Masks.flagRdy hmasks]
    exact hs

end Stands

/-! ## Every step -/

section Steps

variable {cfg : Env} {m : Sys} {act : Act} {a : Abs} {d : Data} {r : Nat}

/-- The running task `r` goes on. -/
theorem FlagWaits.run (h : FlagWaits a) (ha : a.alive r) {c : Cont} {en : Entry}
    (hd : ∀ t flags ty n, t ≠ r → a.cont t = .waitFlags flags ty n → Stands a.d t flags ty n →
      Stands d t flags ty n)
    (hc : ∀ flags ty n, c = .waitFlags flags ty n → Stands d r flags ty n) (he : en.Asked) :
    FlagWaits ⟨d, a.alive, update a.cont r c, a.log ++ [en]⟩ := by
  refine ⟨fun t flags ty n ht => ?_, fun t hal => ?_, fun e hm => ?_⟩
  · change update a.cont r c t = _ at ht
    by_cases htr : t = r
    · rw [htr, Function.update_self] at ht
      rw [htr]
      exact hc flags ty n ht
    · rw [Function.update_of_ne htr] at ht
      exact hd t flags ty n htr ht (h.wait t flags ty n ht)
  · have htr : t ≠ r := fun e => hal (e ▸ ha)
    exact (Function.update_of_ne htr ..).trans (h.dead t hal)
  · rcases List.mem_append.mp hm with hm | hm
    · exact h.log e hm
    · rw [List.mem_singleton.mp hm]
      exact he

theorem Entry.offFlags.asked {en : Entry} (h : en.offFlags) : en.Asked := by
  unfold Entry.offFlags at h
  unfold Entry.Asked
  split
  · next flags ty n hop =>
    rw [hop] at h
    intro v hv
    exact nomatch (show en.okVal = none from h).symm.trans hv
  · next flags ty n hop =>
    rw [hop] at h
    exact h.elim
  · trivial

/-- What the step leaves. -/
theorem Spares.left (h : Spares cfg.served m act) (hat : At cfg m a r) (hw : FlagWaits a)
    {t ty n : Nat}
    {flags : BitVec 32} (htr : t ≠ r) (hc : a.cont t = .waitFlags flags ty n)
    (hp : a.d.aside.pnode t = .ones) :
    Suffices ty flags (flags &&& (a.d.aside.flagRdy &&& ~~~ m.clears act)) := by
  have hal : a.alive t := by
    by_contra hal
    rw [hw.dead t hal] at hc
    exact nomatch hc
  have hrun := hat.running
  obtain ⟨g, F, b, q, hi, rfl⟩ := hat
  have hs := h t hal.1 (fun e => htr (Option.some.inj (e.symm.trans hrun))) hp
  rw [show m.cont t = _ from hc] at hs
  exact hs

/-- Flags are cleared, as the step may. -/
theorem FlagWaits.cleared (h : FlagWaits a) (hs : Spares cfg.served m act) (hat : At cfg m a r)
    {f : BitVec 32}
    {c : Cont} {en : Entry} (hf : m.clears act = f)
    (hp : ∀ t, t ≠ r → d.aside.pnode t = a.d.aside.pnode t)
    (hm : d.aside.masks = { a.d.aside.masks with flagRdy := a.d.aside.flagRdy &&& ~~~ f })
    (ht : d.timed = a.d.timed) (hc : ∀ flags ty n, c ≠ .waitFlags flags ty n) (he : en.Asked) :
    FlagWaits ⟨d, a.alive, update a.cont r c, a.log ++ [en]⟩ := by
  refine h.run hat.caller.alive (fun t flags ty n htr hct hst => ?_)
    (fun flags ty n e => absurd e (hc flags ty n)) he
  refine hst.keep (hp t htr) (congrFun (congrArg Masks.waitFlags hm) t)
    (congrFun (congrArg Masks.waitType hm) t)
    (fun e => ht ▸ e) fun hpt _ => ?_
  rw [show d.aside.flagRdy = a.d.aside.flagRdy &&& ~~~ f from congrArg Masks.flagRdy hm, ← hf]
  exact hs.left hat h htr hct hpt

theorem FlagWaits.alive (h : FlagWaits a) {t ty n : Nat} {flags : BitVec 32}
    (hc : a.cont t = .waitFlags flags ty n) :
    a.alive t := by
  by_contra hal
  rw [h.dead t hal] at hc
  exact nomatch hc

theorem Takes.clears {c : Call} {f : BitVec 32} {v : Nat} (hat : At cfg m a r)
    (h : c.Takes a.d.aside f v) :
    m.clears (.call c) = f &&& a.d.aside.resetOpt := by
  obtain ⟨g, F, b, q, hi, rfl⟩ := hat
  cases c with
  | acceptFlag id =>
    obtain ⟨-, -, rfl, -⟩ := h
    rfl
  | waitFlag id n =>
    obtain ⟨-, -, rfl, -⟩ := h
    rfl
  | acceptFlags flags ty =>
    obtain ⟨-, hs, rfl, -⟩ := h
    exact if_pos hs
  | waitFlags flags ty n =>
    obtain ⟨-, hs, rfl, -⟩ := h
    exact if_pos hs
  | _ => exact h.elim

theorem Takes.asked {c : Call} {f : BitVec 32} {v : Nat} (h : c.Takes a.d.aside f v) :
    Entry.Asked ⟨r, .inl c, some (v, .E_OK)⟩ := by
  cases c with
  | waitFlags flags ty n =>
    obtain ⟨-, hs, rfl, rfl⟩ := h
    intro v hv
    refine ⟨_, (Option.some.inj hv).symm, ?_, suffices_of_springs hs⟩
    exact (Mask.Within.refl flags).and_left _
  | _ => trivial

/-- The clearing of a return. -/
theorem resume_clears (hat : At cfg m a r) :
    m.clears .resume = match a.cont r with
      | .waitFlag id n => if n ≠ 0 ∧
      a.d.aside.pnode r = .null then 0 else flagBit id &&& a.d.aside.resetOpt
      | .waitFlags flags _ n => if n ≠ 0 ∧ a.d.aside.pnode r = .null then 0
        else flags &&& a.d.aside.flagRdy &&& a.d.aside.resetOpt
      | _ => 0 := by
  have hrun := hat.running
  obtain ⟨g, F, b, q, hi, rfl⟩ := hat
  unfold Sys.clears
  dsimp only
  rw [hrun]
  rfl

theorem FlagWaits.create (h : FlagWaits a) {i p : Nat} {w : Bool} {en : Entry}
    (hi : ¬ a.alive i) (he : en.Asked) (hr : a.alive r) :
    FlagWaits ⟨a.d.create i p w, fun u => u = i ∨ a.alive u, update a.cont r .none,
      a.log ++ [en]⟩ := by
  have h1 : FlagWaits ⟨a.d.create i p w, a.alive, update a.cont r .none, a.log ++ [en]⟩ := by
    refine h.run hr (fun t flags ty n htr hct hst => ?_) (fun _ _ _ e => nomatch e) he
    have hti : t ≠ i := fun e => hi (e ▸ h.alive hct)
    exact hst.keep (Function.update_of_ne hti ..) rfl rfl (fun e => e) fun _ hs => hs
  exact ⟨h1.wait, fun t hal => h1.dead t fun e => hal (Or.inr e), h1.log⟩

theorem FlagWaits.delete (h : FlagWaits a) (hw : Wf cfg a.d) {t : Nat} {en : Entry} (he : en.Asked)
    (hr : a.alive r) : FlagWaits ⟨a.d.delete t, fun u => u ≠ t ∧ a.alive u,
      update (update a.cont r .none) t .none, a.log ++ [en]⟩ := by
  have h1 : FlagWaits ⟨a.d, a.alive, update a.cont r .none, a.log ++ [en]⟩ :=
    h.run hr (fun _ _ _ _ _ _ hst => hst) (fun _ _ _ e => nomatch e) he
  refine ⟨fun u flags ty n hu => ?_, fun u hal => ?_, h1.log⟩
  · change update (update a.cont r .none) t .none u = _ at hu
    by_cases hut : u = t
    · rw [hut, Function.update_self] at hu
      exact nomatch hu
    · rw [Function.update_of_ne hut] at hu
      exact (h1.wait u flags ty n hu).expire hw fun e => absurd (List.mem_singleton.mp e) hut
  · change update (update a.cont r .none) t .none u = _
    by_cases hut : u = t
    · rw [hut, Function.update_self]
    · rw [Function.update_of_ne hut]
      exact h1.dead u fun e => hal ⟨hut, e⟩

/-- Another task blocks. -/
theorem Stands.block {t ty n : Nat} {flags : BitVec 32} (h : Stands a.d t flags ty n) (htr : t ≠ r)
    (fl : BitVec 32) (ty' n' : Nat) : Stands (a.d.flagWait r fl ty' n') t flags ty n := by
  obtain ⟨h1, h2⟩ := flagBlock_cols a.d.aside r fl ty'
  refine h.keep ?_ ?_ ?_ (fun e => e.resolve_left fun e => htr e.1) fun _ hs => ?_
  · exact (congrFun h1 t).trans (Function.update_of_ne htr ..)
  · exact (congrFun (congrArg Masks.waitFlags h2) t).trans (Function.update_of_ne htr ..)
  · exact (congrFun (congrArg Masks.waitType h2) t).trans (Function.update_of_ne htr ..)
  · rw [show (a.d.flagWait r fl ty' n').aside.flagRdy =
      a.d.aside.flagRdy from congrArg Masks.flagRdy h2]
    exact hs

/-- The running task blocks. -/
theorem Stands.start (hc : Caller cfg a r) (flags : BitVec 32) (ty n : Nat) :
    Stands (a.d.flagWait r flags ty n) r flags ty n := by
  obtain ⟨h1, h2⟩ := flagBlock_cols a.d.aside r flags ty
  refine .listed ?_ ?_ ?_ fun e => e.elim And.right fun e => absurd e hc.timed
  · exact (congrFun h1 r).trans (Function.update_self ..)
  · exact (congrFun (congrArg Masks.waitFlags h2) r).trans (Function.update_self ..)
  · exact (congrFun (congrArg Masks.waitType h2) r).trans (Function.update_self ..)

/-- The flags that a wait returns when its task runs again. -/
theorem Stands.returns {ty n : Nat} {flags : BitVec 32} (h : Stands a.d r flags ty n)
    (hc : Caller cfg a r)
    (hw : Wf cfg a.d) (hn : ¬ (n ≠ 0 ∧ a.d.aside.pnode r = .null)) :
    Suffices ty flags (flags &&& a.d.aside.flagRdy) := by
  cases h with
  | listed hp _ _ _ => exact absurd (hw.flag.wait r (hw.flag.list.mem_of_node hp)).1 hc.waits
  | late hp h0 => exact absurd ⟨h0, hp⟩ hn
  | free _ _ hs => exact hs

/-- Steps that delete no flag and spare those that the released tasks wait for. -/
def SparingStep (cfg : Env) (m : Sys) (rs : List SQC) (act : Act) : Prop :=
  Fine cfg m rs act ∧ act.deletesFlag = false ∧ Spares cfg.served m act

instance (cfg : Env) (m : Sys) (rs : List SQC) (act : Act) : Decidable (SparingStep cfg m rs act) :=
  inferInstanceAs (Decidable (_ ∧ _))

theorem flagWaits_keeps : Keeps cfg (SparingStep cfg) (fun _ => True) FlagWaits := by
  refine Keeps.flagTurns (fun {a d} hp ht h => ⟨fun t flags ty n hc => ?_, h.dead, h.log⟩)
    (fun _ hw _ _ h => ⟨fun t flags ty n hc => (h.wait t flags ty n hc).set hw _, h.dead, h.log⟩)
    fun {m rs act a a1 r} hok hat _ h ht => ?_
  · have hm : d.aside.masks = a.d.aside.masks := congrArg FlagPart.masks hp
    refine (h.wait t flags ty n hc).keep (congrFun (congrArg FlagPart.pnode hp) t)
      (congrFun (congrArg Masks.waitFlags hm) t) (congrFun (congrArg Masks.waitType hm) t) (ht t)
        fun _ hs => ?_
    rw [show d.aside.flagRdy = a.d.aside.flagRdy from congrArg Masks.flagRdy hm]
    exact hs
  have hcal := hat.caller
  have hsp := hok.2.2
  have hnone : ∀ flags ty n, Cont.none ≠ .waitFlags flags ty n := fun _ _ _ e => nomatch e
  cases ht with
  | @still act d c en hr hd ht hc he =>
    have hm : d.aside.masks = a.d.aside.masks := congrArg FlagPart.masks hd
    refine h.run hcal.alive (fun t flags ty n htr hct hst => ?_) (fun flags ty n e => ?_) he.asked
    · refine hst.keep (congrFun (congrArg FlagPart.pnode hd) t)
        (congrFun (congrArg Masks.waitFlags hm) t)
        (congrFun (congrArg Masks.waitType hm) t) (fun hu => (ht t hu).resolve_left htr) fun _ hs =>
          ?_
      rw [show d.aside.flagRdy = a.d.aside.flagRdy from congrArg Masks.flagRdy hm]
      exact hs
    · rw [e] at hc
      exact hc.elim
  | create h0 ha he => exact h.create ha he.asked hcal.alive
  | delete hc h0 he => exact h.delete hat.wf he.asked hcal.alive
  | take h0 hc =>
    exact h.cleared hsp hat (Takes.clears hat hc) (fun _ _ => rfl) rfl rfl hnone (Takes.asked hc)
  | clear h0 hb => exact h.cleared hsp hat rfl (fun _ _ => rfl) rfl rfl hnone trivial
  | set h0 hb hn =>
    exact h.run hcal.alive (fun _ _ _ _ _ _ hst => hst.set hat.wf _)
      (fun _ _ _ e => nomatch e) trivial
  | make h0 hi =>
    refine h.run hcal.alive (fun t flags ty n _ _ hst => ?_) (fun _ _ _ e => nomatch e) trivial
    exact hst.keep rfl rfl rfl (fun e => e) fun _ hs => hs.more ((Mask.Within.refl _).or_right _)
  | drop h0 ha hd => exact nomatch hok.2.1
  | wait h0 hb hn =>
    exact h.run hcal.alive (fun t _ _ _ htr _ hst => hst.block htr _ _ _)
      (fun _ _ _ e => nomatch e) trivial
  | waits h0 ha hn =>
    refine h.run hcal.alive (fun t _ _ _ htr _ hst => hst.block htr _ _ _) (fun flags ty n e => ?_)
      fun v hv => nomatch hv
    cases e
    exact .start hcal _ _ _
  | @back id n h0 =>
    have hcl := resume_clears hat
    rw [h0] at hcl
    unfold Data.waitFlagReturn
    split
    · exact h.run hcal.alive (fun _ _ _ _ _ _ hst => hst) (fun _ _ _ e => nomatch e) trivial
    · next hn =>
      dsimp only at hcl
      rw [if_neg hn] at hcl
      exact h.cleared hsp hat hcl (fun t htr => Function.update_of_ne htr ..) rfl rfl hnone trivial
  | @backs flags ty n h0 =>
    have hcl := resume_clears hat
    rw [h0] at hcl
    unfold Data.waitFlagsReturn
    split
    · exact h.run hcal.alive (fun _ _ _ _ _ _ hst => hst) (fun _ _ _ e => nomatch e) fun v hv =>
        nomatch hv
    · next hn =>
      dsimp only at hcl
      rw [if_neg hn] at hcl
      refine h.cleared hsp hat hcl (fun t htr => Function.update_of_ne htr ..) rfl rfl hnone
        fun v hv => ?_
      refine ⟨_, (Option.some.inj hv).symm, ?_, (h.wait r flags ty n h0).returns hcal hat.wf hn⟩
      exact (Mask.Within.refl flags).and_left _
  | tick hT =>
    exact ⟨fun t flags ty n hc => (h.wait t flags ty n hc).expire hat.wf (hT t), h.dead, h.log⟩

end Steps

/-! ## In runs -/

section Runs

variable {cfg : Env} {i : Idle} {us : List Setup} {m0 m : Sys}

/-- **The flags a multiple wait returns are flags waited for**, in every run whose steps leave
    enough of them to the tasks that have been released. -/
theorem waitFlags_result (hu : ∀ u ∈ us, u.Valid) (hb : boot cfg i us = some m0)
    (h : Reach cfg (SparingStep cfg) m0 m) : ∀ en ∈ m.log, ∀ flags ty n,
      (en.op = .inl (.waitFlags flags ty n) ∨ en.op = .inr (.waitFlags flags ty n)) →
      ∀ v, en.ret = some (v, .E_OK) → ∃ w : BitVec 32, v = w.toNat ∧
        (ty = OPT_WAIT_ALL → w = flags) ∧ (ty = OPT_WAIT_ANY → w ≠ 0 ∧ Mask.Within w flags) := by
  obtain ⟨g0, r0, hbt, -⟩ := booted hu hb
  have h0 : FlagWaits (m0.abs cfg.served g0) := by
    refine ⟨fun t flags ty n hc => ?_, fun t _ => ?_, fun en hm => ?_⟩
    · change m0.cont t = _ at hc
      rw [hbt.cont] at hc
      exact nomatch hc
    · change m0.cont t = _
      rw [hbt.cont]
    · change en ∈ m0.log at hm
      rw [hbt.log] at hm
      exact absurd hm List.not_mem_nil
  obtain ⟨g, r, F, -, hw⟩ :=
    Reach.rule (fun _ _ _ hok => hok.1) flagWaits_keeps ⟨g0, r0, [], hbt.inv, h0⟩ h
  intro en hen flags ty n hop v hret
  have hok : en.okVal = some v := by
    unfold Entry.okVal
    rw [hret]
  have ha := hw.log en hen
  unfold Entry.Asked at ha
  have hasked : ∃ w : BitVec 32, v = w.toNat ∧ Mask.Within w flags ∧ Suffices ty flags w := by
    rcases hop with e | e
    · rw [e] at ha
      exact ha v hok
    · rw [e] at ha
      exact ha v hok
  obtain ⟨w, e1, e2, e3⟩ := hasked
  exact ⟨w, e1, e3.1, fun e => ⟨e3.2 e, e2⟩⟩

/-- Task 2 delays itself, and task 1 waits for flag 0. Task 2 sets the flag, and if `clears` then
    clears it, before task 1 runs again. -/
def setForAnother (clears : Bool) : List (List SQC × Act) :=
  [([], .call (.tickDelay 1)), ([], .call (.waitFlags 1 OPT_WAIT_ALL 0)), ([], .tick),
    ([], .call (.setFlag 0))] ++
    (if clears then [([], .call (.clearFlag 0))] else []) ++ [([], .call (.tickDelay 1)),
      ([], .resume)]

theorem waitFlags_result_shipped : ∃ m0 m,
    boot shippedEnv shippedIdle [.plainTask 10, .plainTask 5, .flag 0 0] = some m0 ∧
    Reach shippedEnv (SparingStep shippedEnv) m0 m ∧
    ⟨1, .inr (.waitFlags 1 OPT_WAIT_ALL 0), some (1, .E_OK)⟩ ∈ m.log ∧
    ∃ w : BitVec 32, 1 = w.toNat ∧ w = 1 := by
  obtain ⟨m0, m, h1, h2, h3⟩ := @ran shippedEnv (SparingStep shippedEnv) _ shippedIdle
    [.plainTask 10, .plainTask 5, .flag 0 0] (setForAnother false) _
    (fun m => decide (⟨1, .inr (.waitFlags 1 OPT_WAIT_ALL 0), some (1, .E_OK)⟩ ∈ m.log)) true
      (by decide +kernel)
  have hm := of_decide_eq_true h3
  obtain ⟨w, e1, e2, -⟩ :=
    waitFlags_result (by decide) h1 h2 _ hm 1 OPT_WAIT_ALL 0 (Or.inr rfl) 1 rfl
  exact ⟨m0, m, h1, h2, hm, w, e1, e2 rfl⟩

/-- The wait of task 1 for flag 0 returns E_OK and no flag, since task 2 has cleared it again. -/
theorem waitFlags_result_lost : ∃ m0 m,
    boot shippedEnv shippedIdle [.plainTask 10, .plainTask 5, .flag 0 0] = some m0 ∧
    Reach shippedEnv (fun m rs act => Fine shippedEnv m rs act ∧ act.deletesFlag = false) m0 m ∧
    ⟨1, .inr (.waitFlags 1 OPT_WAIT_ALL 0), some (0, .E_OK)⟩ ∈ m.log ∧
    ¬ ∃ w : BitVec 32, 0 = w.toNat ∧ w = 1 := by
  obtain ⟨m0, m, h1, h2, h3⟩ := @ran shippedEnv
    (fun m rs act => Fine shippedEnv m rs act ∧ act.deletesFlag = false) _ shippedIdle
    [.plainTask 10, .plainTask 5, .flag 0 0] (setForAnother true) _
    (fun m => decide (⟨1, .inr (.waitFlags 1 OPT_WAIT_ALL 0), some (0, .E_OK)⟩ ∈ m.log)) true
      (by decide +kernel)
  refine ⟨m0, m, h1, h2, of_decide_eq_true h3, fun ⟨w, e1, e2⟩ => ?_⟩
  rw [e2] at e1
  exact absurd e1 (by decide)

end Runs

end CoOS
