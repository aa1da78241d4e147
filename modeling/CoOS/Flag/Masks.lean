/-
  The masks of the flags in runs. Only active flags are ready or reset themselves, and a node of
  the waiting list waits for active flags only (`FlagsSound`). So nothing is left of a deleted
  flag, and `CoCreateFlag`, which adds its bits to the masks, gives a flag that is as asked for.
  Only a `CoSetFlag` that has passed its test sets a flag that is not there (`setFlag_of_deleted`).
-/
import CoOS.Run.Gap
import CoOS.Flag.Turn
import CoOS.Flag.Wake

namespace CoOS

open Function (update)
open DList KeyOrder
open Mask (Within)

/-! ## One flag -/

theorem freeFlag_some {active : BitVec 32} {j : Nat} : ∀ {n i : Nat}, freeFlag active n i = some j →
    i ≤ j ∧ j < i + n ∧ active &&& flagBit j = 0
  | 0, _, h => nomatch h
  | n + 1, i, h => by
    unfold freeFlag at h
    split at h
    · next h0 =>
      rw [← Option.some.inj h]
      exact ⟨Nat.le_refl i, by omega, h0⟩
    · obtain ⟨h1, h2, h3⟩ := freeFlag_some h
      exact ⟨by omega, by omega, h3⟩

theorem freeFlag_none {active : BitVec 32} : ∀ {n i : Nat}, freeFlag active n i = none →
    ∀ j, i ≤ j → j < i + n → active &&& flagBit j ≠ 0
  | 0, i, _, j, h1, h2 => absurd h2 (by omega)
  | n + 1, i, h, j, h1, h2 => by
    unfold freeFlag at h
    split at h
    · exact nomatch h
    · next h0 =>
      rcases Nat.eq_or_lt_of_le h1 with rfl | h3
      · exact h0
      · exact freeFlag_none h j h3 (by omega)

/-! ## The invariant -/

structure FlagsSound (a : Aside) : Prop where
  masks : MasksOk a
  node : ∀ t n, a.pnode t = .node n → Within (a.waitFlags t) a.flagActive

section Sound

variable {cfg : Env} {a a' : Aside} {F : List Nat}

/-- The masks stay, and no node is new. -/
theorem FlagsSound.fewer (h : FlagsSound a) (hm : a'.masks = a.masks)
    (hp : ∀ t n, a'.pnode t = .node n → a.pnode t = .node n) : FlagsSound a' := by
  have h1 : a'.flagRdy = a.flagRdy := congrArg Masks.flagRdy hm
  have h2 : a'.resetOpt = a.resetOpt := congrArg Masks.resetOpt hm
  have h3 : a'.flagActive = a.flagActive := congrArg Masks.flagActive hm
  have h4 : a'.waitFlags = a.waitFlags := congrArg Masks.waitFlags hm
  refine ⟨⟨?_, ?_⟩, fun t n e => ?_⟩
  · rw [h1, h3]
    exact h.masks.rdy
  · rw [h2, h3]
    exact h.masks.reset
  · rw [h3, h4]
    exact h.node t n (hp t n e)

theorem FlagsSound.setRdy (h : FlagsSound a) {r : BitVec 32} (hr : Within r a.flagActive) :
    FlagsSound { a with flagRdy := r } := ⟨⟨hr, h.masks.reset⟩, h.node⟩

/-- The node of `t` is taken away. -/
theorem FlagsSound.without (h : FlagsSound a) {t : Nat} (hm : a'.masks = a.masks)
    (hp : a'.pnode = update a.pnode t .null) : FlagsSound a' := by
  refine h.fewer hm fun u n e => ?_
  rw [hp] at e
  by_cases hu : u = t
  · rw [hu, Function.update_self] at e
    exact nomatch e
  · rwa [Function.update_of_ne hu] at e

theorem spring_pnode (t : Nat) : (a.spring t).pnode = update a.pnode t .ones := by
  unfold Aside.spring
  dsimp only
  rw [removeLink_pnode, Function.update_idem]

theorem springs_pnode (T : List Nat) : ∀ (a : Aside) (t : Nat),
    (T.foldl Aside.spring a).pnode t = if t ∈ T then .ones else a.pnode t := by
  induction T with
  | nil => exact fun a t => (if_neg List.not_mem_nil).symm
  | cons u T ih =>
    intro a t
    rw [List.foldl_cons, ih, spring_pnode]
    by_cases hT : t ∈ T
    · rw [if_pos hT, if_pos (List.mem_cons_of_mem u hT)]
    by_cases hu : t = u
    · rw [if_neg hT, hu, Function.update_self, if_pos List.mem_cons_self]
    · rw [if_neg hT, Function.update_of_ne hu, if_neg fun hm => (List.mem_cons.mp hm).elim hu hT]

theorem FlagsSound.springs (h : FlagsSound a) (T : List Nat) :
    FlagsSound (T.foldl Aside.spring a) := by
  refine h.fewer (springs_masks T a) fun t n e => ?_
  rw [springs_pnode] at e
  split at e
  · exact nomatch e
  · exact e

theorem dropFlag_node {t u n : Nat} (h : (a.dropFlag t).pnode u = .node n) :
    a.pnode u = .node n := by
  unfold Aside.dropFlag at h
  split at h
  · next m _ =>
    rw [removeLink_pnode] at h
    by_cases hu : u = m
    · rw [hu, Function.update_self] at h
      exact nomatch h
    · rwa [Function.update_of_ne hu] at h
  · exact h

theorem FlagsSound.dropFlags (T : List Nat) :
    ∀ {a : Aside}, FlagsSound a → FlagsSound (T.foldl Aside.dropFlag a) := by
  induction T with
  | nil => exact fun h => h
  | cons t T ih => exact fun h => ih (h.fewer dropFlag_masks fun _ _ => dropFlag_node)

theorem flagBlock_cols (a : Aside) (t : Nat) (flags : BitVec 32) (ty : Nat) :
    (a.flagBlock t flags ty).pnode = update a.pnode t (.node t) ∧
      (a.flagBlock t flags ty).masks = { a.masks with
        waitFlags := update a.waitFlags t flags, waitType := update a.waitType t ty } := by
  unfold Aside.flagBlock
  dsimp only
  split
  · exact ⟨rfl, rfl⟩
  · exact ⟨rfl, rfl⟩

theorem FlagsSound.flagBlock (h : FlagsSound a) (t : Nat) {flags : BitVec 32}
    (hf : Within flags a.flagActive)
    (ty : Nat) : FlagsSound (a.flagBlock t flags ty) := by
  obtain ⟨h1, h2⟩ := flagBlock_cols a t flags ty
  have hrd : (a.flagBlock t flags ty).flagRdy = a.flagRdy := congrArg Masks.flagRdy h2
  have hro : (a.flagBlock t flags ty).resetOpt = a.resetOpt := congrArg Masks.resetOpt h2
  have hac : (a.flagBlock t flags ty).flagActive = a.flagActive := congrArg Masks.flagActive h2
  have hwf : (a.flagBlock t flags ty).waitFlags = update a.waitFlags t flags :=
    congrArg Masks.waitFlags h2
  refine ⟨⟨?_, ?_⟩, fun u n e => ?_⟩
  · rw [hrd, hac]
    exact h.masks.rdy
  · rw [hro, hac]
    exact h.masks.reset
  · rw [hac, hwf]
    rw [h1] at e
    by_cases hu : u = t
    · rw [hu, Function.update_self]
      exact hf
    · rw [Function.update_of_ne hu] at e ⊢
      exact h.node u n e

theorem FlagsSound.addFlag {d : Data} (h : FlagsSound d.aside) {auto init : Nat} (ha : auto ≤ 1)
    (hi : init ≤ 1)
    (i : Nat) : FlagsSound (d.addFlag i auto init).aside :=
  ⟨h.masks.addFlag ha hi i, fun t n e => (h.node t n e).or_right _⟩

/-- A flag that nobody waits for is deleted. -/
theorem FlagsSound.dropMasks {d : Data} {id : Nat} (h : FlagsSound d.aside)
    (hn : ∀ t n, d.aside.pnode t = .node n → d.aside.waitFlags t &&& flagBit id = 0) :
    FlagsSound (d.dropMasks id).aside := by
  refine ⟨⟨h.masks.rdy.and _, h.masks.reset.and _⟩, fun t n e => ?_⟩
  have hw := (h.node t n e).and (~~~ flagBit id)
  rw [Mask.and_not_eq (hn t n e)] at hw
  exact hw

theorem FlagList.mem_of_node {t n : Nat} (h : FlagList a F) (e : a.pnode t = .node n) : t ∈ F := by
  by_contra ht
  exact h.off t ht n e

theorem FlagsSound.shrink {d : Data} (h : FlagsSound d.aside) (id : Nat) (S : List Nat) :
    FlagsSound (d.shrink id S).aside := by
  refine ⟨⟨h.masks.rdy, h.masks.reset⟩, fun t n e => ?_⟩
  change Within (if t ∈ S then d.aside.waitFlags t &&& ~~~ flagBit id else d.aside.waitFlags t)
    d.aside.flagActive
  split
  · exact (h.node t n e).and_left _
  · exact h.node t n e

/-- **CoDelFlag** with one of its two options. -/
theorem FlagsSound.delFlag {d d' : Data} {id opt : Nat} (h : FlagsSound d.aside) (hw : Wf cfg d)
    (hopt : opt = OPT_DEL_NO_PEND ∨ opt = OPT_DEL_ANYWAY)
    (hd : d.delFlag cfg id opt = (d', .E_OK)) :
    FlagsSound d'.aside := by
  have hlen : (d.aside.flagTasks cfg).length ≤ cfg.tasks := length_walk_le ..
  unfold Data.delFlag at hd
  split at hd
  · exact nomatch (Prod.mk.inj hd).2
  rcases hopt with rfl | rfl
  · rw [if_pos rfl] at hd
    split at hd
    · exact nomatch (Prod.mk.inj hd).2
    · next hany =>
      obtain rfl : d.dropMasks id = d' := (Prod.mk.inj hd).1
      refine h.dropMasks fun t n e => ?_
      by_contra hz
      exact hany (List.any_eq_true.mpr ⟨t, hw.flag.list.mem_of_node e, bne_iff_ne.mpr hz⟩)
  · rw [if_neg (by decide), if_pos rfl] at hd
    obtain rfl : (d.unflag id (d.aside.flagTasks cfg)).dropMasks id = d' := (Prod.mk.inj hd).1
    have hD :=
      (FlagD.springs (hw.flag.shrink id ((d.aside.flagTasks cfg).filter (d.aside.masks.shrinks id)))
      (hw.flag.list.nodup.filter (d.aside.masks.drops id)) fun t ht =>
        List.mem_of_mem_filter ht).dropMasks id
    refine ((h.shrink id _).springs _).dropMasks fun t n e => ?_
    refine unflag_alone hw.flag hlen t ?_
    have htasks := hD.list.tasks (Nat.le_trans (List.length_filter_le ..) hlen)
    unfold Data.unflag
    rw [htasks]
    exact hD.list.mem_of_node e

end Sound

/-! ## In runs -/

/-- `CoCreateFlag` is called with 0 or 1, and `CoDelFlag` with one of its two options. -/
def FlagArgs : Act → Prop
  | .call (.createFlag auto init) => auto ≤ 1 ∧ init ≤ 1
  | .call (.delFlag _ opt) => opt = OPT_DEL_NO_PEND ∨ opt = OPT_DEL_ANYWAY
  | _ => True

instance (act : Act) : Decidable (FlagArgs act) :=
  match act with
  | .call (.createFlag ..) => inferInstanceAs (Decidable (_ ∧ _))
  | .call (.delFlag ..) => inferInstanceAs (Decidable (_ ∨ _))
  | .call (.createTask ..) | .call (.delTask _) | .call .exitTask | .call (.suspendTask _)
  | .call (.awakeTask _) | .call (.setPriority ..) | .call (.tickDelay _) | .call (.resetDelay ..)
  | .call (.accept ..) | .call (.pend ..) | .call (.post ..) | .call (.setFlag _)
  | .call (.clearFlag _)
  | .call (.acceptFlag _) | .call (.acceptFlags ..) | .call (.waitFlag ..) | .call (.waitFlags ..)
  | .call (.enterMutex _) | .call (.leaveMutex _) | .resume | .tick =>
    inferInstanceAs (Decidable True)

section Runs

variable {cfg : Env} {i : Idle} {us : List Setup} {m0 m : Sys} {s : Split}

theorem sound_keeps : Keeps cfg (fun m rs act => Fine cfg m rs act ∧ FlagArgs act) (fun _ => True)
    fun a => FlagsSound a.d.aside := by
  have hpart : ∀ {a a' : Aside}, a'.flagPart = a.flagPart → FlagsSound a → FlagsSound a' :=
    fun {a a'} hp h => by
    refine h.fewer (congrArg FlagPart.masks hp) fun t n e => ?_
    rwa [show a'.pnode = a.pnode from congrArg FlagPart.pnode hp] at e
  have hset : ∀ {d : Data} {id : Nat}, ¬ d.aside.badFlag id → FlagsSound d.aside →
      FlagsSound ((d.setRdy (d.aside.flagRdy ||| flagBit id)).springs
        (d.wakes cfg.served id)).aside := fun hb h =>
    FlagsSound.springs (h.setRdy (h.masks.rdy.or (within_flagBit fun e => hb (Or.inr e)))) _
  refine Keeps.flagTurns (fun hp _ h => hpart hp h) (fun _ _ hb _ h => hset hb h)
    fun {m rs act a a1 r} hok hat _ h ht => ?_
  cases ht with
  | still hr hd ht hc he => exact hpart hd h
  | create h0 ha he => exact h.without rfl rfl
  | delete hc h0 he => exact h.dropFlags _
  | take h0 hc => exact h.setRdy (h.masks.rdy.and_left _)
  | clear h0 hb => exact h.setRdy (h.masks.rdy.and_left _)
  | set h0 hb hn => exact hset hb h
  | make h0 hi => exact h.addFlag hok.2.1 hok.2.2 _
  | drop h0 ha hd => exact h.delFlag hat.wf hok.2 hd
  | wait h0 hb hn => exact h.flagBlock _ (within_flagBit fun e => hb (Or.inr e)) _
  | waits h0 ha hn => exact h.flagBlock _ ha _
  | back h0 =>
    unfold Data.waitFlagReturn
    split
    · exact h
    · refine FlagsSound.setRdy (a := (a.d.setPnode r .null).aside) (h.without rfl rfl) ?_
      exact h.masks.rdy.and_left _
  | backs h0 =>
    unfold Data.waitFlagsReturn
    split
    · exact h
    · refine FlagsSound.setRdy (a := (a.d.setPnode r .null).aside) (h.without rfl rfl) ?_
      exact h.masks.rdy.and_left _
  | tick hT => exact h.dropFlags _

/-- The flag `i` is as `CoCreateFlag(auto, init)` was asked to make it, and nobody waits for it. -/
structure NewFlag (cfg : Env) (k k' : Kernel) (auto init i : Nat) : Prop where
  lt : i < FLAG_MAX_NUM
  was : k.flagActive.getLsbD i = false
  active : k'.flagActive = k.flagActive ||| flagBit i
  ready : k'.flagRdy.getLsbD i = decide (init = 1)
  reset : k'.resetOpt.getLsbD i = decide (auto = 1)
  alone : ∀ t ∈ k'.aside.flagTasks cfg, (k'.waitFlags t).getLsbD i = false

theorem getLsbD_shift {b i : Nat} (hb : b ≤ 1) (hi : i < 32) :
    (BitVec.ofNat 32 b <<< i).getLsbD i = decide (b = 1) := by
  have h01 : b = 0 ∨ b = 1 := by omega
  rcases h01 with rfl | rfl
  · rw [show BitVec.ofNat 32 0 <<< i = 0 from BitVec.zero_shiftLeft i]
    exact BitVec.getLsbD_zero
  · rw [show BitVec.ofNat 32 1 <<< i = flagBit i from rfl, getLsbD_flagBit hi, decide_eq_true rfl]
    rfl

/-- A bit outside `y` is outside what is within `y`. -/
theorem within_bit {x y : BitVec 32} {i : Nat} (h : Within x y) (hy : y.getLsbD i = false) :
    x.getLsbD i = false := by
  cases hx : x.getLsbD i with
  | false => rfl
  | true => exact (Mask.within_iff.mp h i hx).symm.trans hy

theorem addFlag_new {k : Kernel} {g : Ghost} {auto init i : Nat} {F : List Nat}
    (hs : FlagsSound k.aside)
    (hF : FlagList k.aside F) (hlen : F.length ≤ cfg.tasks) (ha : auto ≤ 1) (hi : init ≤ 1)
    (hf : freeFlag k.flagActive FLAG_MAX_NUM 0 = some i) {k' : Kernel}
    (hk : k'.aside = ((k.data g).addFlag i auto init).aside) : NewFlag cfg k k' auto init i := by
  obtain ⟨-, h1, h2⟩ := freeFlag_some hf
  have hlt : i < 32 := by
    rw [Nat.zero_add] at h1
    exact h1
  have hoff := and_flagBit.mp h2
  have hrd : k'.flagRdy = k.flagRdy ||| (BitVec.ofNat 32 init <<< i) := congrArg Aside.flagRdy hk
  have hro : k'.resetOpt = k.resetOpt ||| (BitVec.ofNat 32 auto <<< i) := congrArg Aside.resetOpt hk
  have hwf : k'.waitFlags = k.waitFlags := congrArg Aside.waitFlags hk
  have hF' : FlagList k'.aside F := by
    rw [hk]
    exact hF.congr rfl rfl rfl
  refine ⟨hlt, hoff, congrArg Aside.flagActive hk, ?_, ?_, fun t ht => ?_⟩
  · have hr : k.flagRdy.getLsbD i = false := within_bit hs.masks.rdy hoff
    rw [hrd, BitVec.getLsbD_or, hr, Bool.false_or, getLsbD_shift hi hlt]
  · have hr : k.resetOpt.getLsbD i = false := within_bit hs.masks.reset hoff
    rw [hro, BitVec.getLsbD_or, hr, Bool.false_or, getLsbD_shift ha hlt]
  · rw [hF'.tasks hlen] at ht
    rw [hwf]
    exact within_bit (hs.node t t (hF.node t ht)) hoff

/-- A flag is created in a state of a run. -/
theorem Inv.createFlag {g : Ghost} {r : Nat} {F : List Nat} (hi : Inv cfg m g r F)
    (hs : FlagsSound m.k.aside)
    {auto init : Nat} (ha : auto ≤ 1) (hn : init ≤ 1) :
    ∃ k' i, coCreateFlag cfg.served m.k auto init =
    some (k', i) ∧ (NewFlag cfg.served m.k k' auto init i ∨
      (i = INVALID_ID ∧ ∀ j, j < FLAG_MAX_NUM → m.k.flagActive.getLsbD j = true)) := by
  have hp := hi.stable.enter
  obtain ⟨k', g', i, d, e1, e2, -, -, e3⟩ :=
    (coCreateFlag_section hp auto init).returns hp fun _ b d hd => by
    unfold Data.createFlag at hd
    split at hd
    · obtain ⟨rfl, -⟩ := Prod.mk.inj hd
      exact hi.req
    · obtain ⟨rfl, -⟩ := Prod.mk.inj hd
      exact hi.req
  refine ⟨k', i, e1, ?_⟩
  unfold Data.createFlag at e2
  split at e2
  · next j hj =>
    obtain ⟨rfl, rfl⟩ := Prod.mk.inj e2
    exact Or.inl (addFlag_new hs hi.flags.list hi.flags.length ha hn hj e3.aside)
  · next hj =>
    refine Or.inr ⟨(Prod.mk.inj e2).2, fun j hlt => ?_⟩
    have hne := freeFlag_none hj j (Nat.zero_le j) (by rwa [Nat.zero_add])
    exact (Bool.not_eq_false _).mp fun e => hne (and_flagBit.mpr e)

/-- **The masks of the flags** in every state of a run, as long as each call that has been
    interrupted behind its tests finds what it has read unchanged when it goes on: the ready and the
    reset bits are those of active flags, nodes wait for active flags, and a new flag is as asked
    for. -/
theorem flags_identity (hu : ∀ u ∈ us, u.Valid) (hb : boot cfg i us = some m0)
    (h : Split.Reach cfg (Split.Ok cfg fun m rs act => Fine cfg m rs act ∧ FlagArgs act) m0 s) :
    (Within s.m.k.flagRdy s.m.k.flagActive ∧ Within s.m.k.resetOpt s.m.k.flagActive ∧
      ∀ t ∈ s.m.k.aside.flagTasks cfg.served, Within (s.m.k.waitFlags t) s.m.k.flagActive) ∧
    ∀ auto init, auto ≤ 1 → init ≤ 1 →
    ∃ k' i, coCreateFlag cfg.served s.m.k auto init = some (k', i) ∧
      (NewFlag cfg.served s.m.k k' auto init i ∨
        (i = INVALID_ID ∧ ∀ j, j < FLAG_MAX_NUM → s.m.k.flagActive.getLsbD j = true)) := by
  obtain ⟨g0, r0, hbt, -⟩ := booted hu hb
  obtain ⟨n, hf⟩ := hbt.fresh
  have h0 : FlagsSound m0.k.aside := ⟨hf.masks, fun t n e => by
    rw [hf.pnode t] at e
    exact nomatch e⟩
  have hset : ∀ {a : Abs} {id : Nat}, ¬ a.d.aside.badFlag id → FlagsSound a.d.aside →
      FlagsSound (a.d.setRdy (a.d.aside.flagRdy ||| flagBit id)).aside := fun hbad h =>
    h.setRdy (h.masks.rdy.or (within_flagBit fun e => hbad (Or.inr e)))
  obtain ⟨g, r, F, hi, hs⟩ :=
    Split.Reach.rule (fun _ _ _ hok => hok.1) (fun _ _ _ _ _ => ⟨trivial, trivial⟩)
    sound_keeps hset (fun {a id} (h : FlagsSound a.d.aside) =>
      h.setRdy (h.masks.rdy.and_left (~~~ flagBit id)))
    ⟨g0, r0, [], hbt.inv, h0⟩ h
  have hs' : FlagsSound s.m.k.aside := hs
  refine ⟨⟨hs'.masks.rdy, hs'.masks.reset, fun t ht => ?_⟩,
    fun auto init ha hn => hi.createFlag hs' ha hn⟩
  rw [hi.flags.tasks] at ht
  exact hs'.node t t (hi.flags.list.node t ht)

/-- Task 1 waits for two flags, and task 2 deletes one of them and creates a flag. -/
theorem flags_identity_shipped : ∃ m0 s k', boot shippedEnv shippedIdle twoWaiters = some m0 ∧
    Split.Reach shippedEnv (Split.Ok shippedEnv fun m rs act => Fine shippedEnv m rs act ∧
      FlagArgs act) m0 s ∧
    s.m.k.flagActive = flagBit 0 ∧ Within (s.m.k.waitFlags 1) s.m.k.flagActive ∧
    coCreateFlag shippedEnv.served s.m.k 1 0 = some (k', 1) ∧
    NewFlag shippedEnv.served s.m.k k' 1 0 1 := by
  obtain ⟨m0, s, h1, h2, h3⟩ := @Split.ran shippedEnv
    (Split.Ok shippedEnv fun m rs act => Fine shippedEnv m rs act ∧
      FlagArgs act) _ shippedIdle twoWaiters
    [([], .call (.waitFlags 3 OPT_WAIT_ALL 0)), ([], .resume),
      ([], .call (.delFlag 1 OPT_DEL_ANYWAY)),
      ([], .resume)] _
    (fun s => (s.m.k.flagActive, s.m.k.aside.flagTasks shippedEnv.served,
      (coCreateFlag shippedEnv.served s.m.k 1 0).map Prod.snd)) (flagBit 0, [1],
      some 1) (by decide +kernel)
  obtain ⟨h4, h5⟩ := Prod.mk.inj h3
  obtain ⟨h5, h6⟩ := Prod.mk.inj h5
  obtain ⟨⟨-, -, e1⟩, e2⟩ := flags_identity (by decide) h1 h2
  obtain ⟨k', i, e3, e4⟩ := e2 1 0 (by decide) (by decide)
  rw [e3] at h6
  obtain rfl : i = 1 := Option.some.inj h6
  refine ⟨m0, s, k', h1, h2, h4, e1 1 (by rw [h5]; exact List.mem_singleton_self 1), e3, ?_⟩
  exact e4.resolve_right fun e => nomatch e.1

/-- Task 2 has passed the test of `CoSetFlag`; task 1, which the tick wakes, deletes the flag; then
    task 2 sets it, and the flag that is created in its place is ready though it should not be. -/
theorem setFlag_of_deleted : ∃ m0 s, boot shippedEnv shippedIdle
      [.plainTask 5, .plainTask 10, .flag 0 0] = some m0 ∧
    Split.Reach shippedEnv (fun s rs a => Fine shippedEnv s.m rs (s.does a) ∧
      FlagArgs (s.does a)) m0 s ∧
    s.m.log = [⟨1, .inl (.tickDelay 1), some (0, .E_OK)⟩, ⟨1, .inl (.delFlag 0 OPT_DEL_NO_PEND),
      some (0, .E_OK)⟩,
      ⟨1, .inl (.tickDelay 1), some (0, .E_OK)⟩] ∧
    s.m.k.flagActive = 0 ∧ s.m.k.flagRdy = flagBit 0 ∧
    (coCreateFlag shippedEnv.served s.m.k 0 0).map (fun x => (x.1.flagRdy, x.2)) =
    some (flagBit 0, 0) := by
  obtain ⟨m0, s, h1, h2, h3⟩ := @Split.ran shippedEnv
    (fun s rs a => Fine shippedEnv s.m rs (s.does a) ∧ FlagArgs (s.does a)) _ shippedIdle
    [.plainTask 5, .plainTask 10, .flag 0 0]
    [([], .call (.tickDelay 1)), ([], .call (.setFlag 0)), ([], .tick),
      ([], .call (.delFlag 0 OPT_DEL_NO_PEND)),
      ([], .resume), ([], .call (.tickDelay 1)), ([], .resume)] _
    (fun s => (s.m.log, s.m.k.flagActive, s.m.k.flagRdy,
      (coCreateFlag shippedEnv.served s.m.k 0 0).map fun x => (x.1.flagRdy, x.2)))
    ([⟨1, .inl (.tickDelay 1), some (0, .E_OK)⟩,
      ⟨1, .inl (.delFlag 0 OPT_DEL_NO_PEND), some (0, .E_OK)⟩,
      ⟨1, .inl (.tickDelay 1), some (0, .E_OK)⟩], 0, flagBit 0,
        some (flagBit 0, 0)) (by decide +kernel)
  exact ⟨m0, s, h1, h2, congrArg (·.1) h3, congrArg (·.2.1) h3, congrArg (·.2.2.1) h3,
    congrArg (·.2.2.2) h3⟩

end Runs

end CoOS
