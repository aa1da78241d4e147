/-
  What the status of a deletion says. `DeleteEvent` and `CoDelFlag` know two options; neither
  refuses a third one. Then `DeleteEvent` returns E_OK and deletes nothing, on which `CoDelQueue`
  frees the queue block, and `CoDelFlag` deletes the flag and leaves the tasks that wait for it.

  A deletion is taken here as sequential code: its critical sections one after the other
  (`EvtCall.run`), with no step of another task between them.
-/
import CoOS.Event.Clean
import CoOS.Run.Effects

namespace CoOS

open Function (update)
open DList

/-! ## Events -/

/-- The sections that are left of a call of `r`, one after the other. -/
def finish (cfg : Env) (r : Nat) : Nat → EvtOutcome → Option (Kernel × Ret)
  | _, (k, _, some ret) => some (k, ret)
  | 0, (_, _, none) => none
  | n + 1, (k, c, none) => (c.exec cfg k r).bind (finish cfg r n)

/-- A call of `r` from its first section to its return; none has more than three. -/
def EvtCall.run (cfg : Env) (k : Kernel) (r : Nat) (c : EvtCall) : Option (Kernel × Ret) :=
  (c.exec cfg k).bind (finish cfg r 2)

/-- The free list of event blocks. -/
def Kernel.freeEvents (cfg : Env) (k : Kernel) : List Nat :=
  walk k.nextECB cfg.maxEvent k.FreeEventList

/-- The event `id` of `k` no longer exists in `k'`. -/
structure Gone (cfg : Env) (k : Kernel) (kd : EventType) (id : Nat) (k' : Kernel) : Prop where
  type : k'.eventType id = .invalid
  free : id ∈ k'.freeEvents cfg
  queue : kd = .queue → k'.QueueIDVessel (k.qId (qcbOf k id)) = false
  alone : k'.waiters cfg id = []

/-- E_OK says that the object is gone, any other status that nothing has changed. -/
def StatusMeans (gone : Kernel → Prop) (k k' : Kernel) (st : StatusType) : Prop :=
  if st = .E_OK then gone k' else k' = k

section Events

variable {cfg : Env} {k : Kernel} {kd : EventType} {id opt r : Nat}

/-- The end of a deletion: `CoDelQueue` clears its queue block. -/
def cleared (k0 k : Kernel) (kd : EventType) (id : Nat) : Kernel :=
  if kd = .queue then clearQueue k (qcbOf k0 id) else k

theorem run_del (hk : kd ≠ .invalid) (hid : id < cfg.maxEvent) (hty : k.eventType id = kd) :
    (EvtCall.del kd id opt).run cfg k r =
      if opt = OPT_DEL_NO_PEND then
        if k.eventTCBList id ≠ none then some (k, 0, .E_TASK_WAITING)
        else (releaseECB cfg k id).map fun k' => (cleared k k' kd id, 0, .E_OK)
      else if opt = OPT_DEL_ANYWAY then
        (releaseTasks cfg id cfg.tasks (osSchedLock k)).bind fun k1 =>
          (osSchedUnlock cfg k1).bind fun k2 =>
            (releaseECB cfg k2 id).map fun k' => (cleared k k' kd id, 0, .E_OK)
      else some (cleared k k kd id, 0, .E_OK) := by
  have hdel : delEvent cfg k kd id opt = deleteEvent cfg k id opt := by
    have hg : ¬ (cfg.maxEvent ≤ id ∨ k.eventType id ≠ kd) := by
      rw [not_or, not_not]
      exact ⟨Nat.not_le_of_lt hid, hty⟩
    cases kd with
    | invalid => exact absurd rfl hk
    | sem => exact if_neg hg
    | mbox => exact if_neg hg
    | queue => exact if_neg hg
  unfold EvtCall.run EvtCall.exec
  dsimp only
  rw [hdel]
  unfold deleteEvent cleared
  by_cases h0 : opt = OPT_DEL_NO_PEND
  · rw [if_pos h0, if_pos h0]
    by_cases hl : k.eventTCBList id ≠ none
    · rw [if_pos hl, if_pos hl]
      split <;> rfl
    · rw [if_neg hl, if_neg hl]
      cases releaseECB cfg k id with
      | none => rfl
      | some k1 =>
        by_cases hq : kd = .queue
        · simp only [if_pos hq, if_pos h0]
          rfl
        · simp only [if_neg hq]
          rfl
  rw [if_neg h0, if_neg h0]
  by_cases h1 : opt = OPT_DEL_ANYWAY
  · rw [if_pos h1, if_pos h1]
    cases releaseTasks cfg id cfg.tasks (osSchedLock k) with
    | none => rfl
    | some k1 =>
      simp only [Option.bind_eq_bind, Option.bind_some]
      cases osSchedUnlock cfg k1 with
      | none => rfl
      | some k2 =>
        simp only [Option.bind_some, Option.map_some]
        unfold finish EvtCont.exec
        dsimp only
        cases releaseECB cfg k2 id with
        | none => rfl
        | some k3 =>
          by_cases hq : kd = .queue
          · simp only [if_pos hq]
            rfl
          · simp only [if_neg hq]
            rfl
  · rw [if_neg h1, if_neg h1]
    by_cases hq : kd = .queue
    · simp only [if_pos hq, Option.map_some]
      rw [if_neg h0]
      rfl
    · simp only [if_neg hq]
      rfl

/-- Nobody waits for `id`, and the queue blocks have the numbers `q`. -/
structure Emptied (id : Nat) (q : Nat → Nat) (k : Kernel) : Prop where
  list : k.eventTCBList id = none
  qId : k.qId = q
  req : k.IsrReq = false

theorem Emptied.unlock {q : Nat → Nat} (h : Emptied id q k) :
    Ensures (osSchedUnlock cfg k) (Emptied id q) := by
  refine (osSchedUnlock_writes (Resched.refl _) h.req).imp fun k' hw => ?_
  obtain ⟨k1, ⟨L, T, ct, req, st, nx, rfl⟩, rfl⟩ := hw
  exact ⟨h.list, h.qId, h.req⟩

theorem popWaiter_keeps (t : Nat) : (popWaiter k id t).IsrReq = k.IsrReq ∧
    (popWaiter k id t).qId = k.qId := by
  unfold popWaiter
  dsimp only
  split
  · exact ⟨rfl, rfl⟩
  · exact ⟨rfl, rfl⟩

/-- The release of the waiting tasks empties the list. -/
theorem releaseTasks_empty {q : Nat → Nat} (fuel : Nat) : ∀ {k : Kernel}, k.IsrReq = false →
    k.qId = q → Ensures (releaseTasks cfg id fuel k) (Emptied id q) := by
  induction fuel with
  | zero =>
    intro k hi hq
    unfold releaseTasks
    split
    · next hd => exact .some ⟨hd, hq, hi⟩
    · exact .none
  | succ fuel ih =>
    intro k hi hq
    cases hd : k.eventTCBList id with
    | none =>
      unfold releaseTasks
      rw [hd]
      exact .some ⟨hd, hq, hi⟩
    | some t =>
      obtain ⟨e1, e2⟩ := @popWaiter_keeps k id t
      rw [releaseTasks_some hd]
      refine Ensures.bind (insertToTCBRdyList_writes (Resched.refl _) t) fun k1 h1 => ?_
      obtain ⟨L, T, ct, req, st, nx, rfl⟩ := h1
      exact ih (e1.trans hi) (e2.trans hq)

/-- `ReleaseECB` puts the block in front of the free list. -/
theorem releaseECB_gone {q : Nat → Nat} (h : Emptied id q k) :
    Ensures (releaseECB cfg k id) fun k' =>
    k'.eventType id = .invalid ∧ k'.FreeEventList = some id ∧ Emptied id q k' := by
  obtain ⟨ptr, heq, -⟩ := releaseECB_eq cfg k id
  rw [heq]
  let k1 : Kernel := { osSchedLock { k with eventType := update k.eventType id .invalid } with
    eventPtr := update k.eventPtr id ptr, FreeEventList := some id }
  refine (osSchedUnlock_writes (Resched.refl k1) h.req).imp fun k' hw => ?_
  obtain ⟨k2, ⟨L, T, ct, req, st, nx, rfl⟩, rfl⟩ := hw
  exact ⟨Function.update_self .., rfl, h.list, h.qId, h.req⟩

theorem waiters_nil (h : k.eventTCBList id = none) : k.waiters cfg id = [] := by
  unfold Kernel.waiters
  rw [h]
  unfold walk
  rfl

/-- `ReleaseECB` and the end of the call delete an event that nobody waits for. -/
theorem releaseECB_means (hid : id < cfg.maxEvent) {k0 : Kernel} (h : Emptied id k0.qId k) :
    Ensures ((releaseECB cfg k id).map fun k' => (cleared k0 k' kd id, (0 : Nat),
      StatusType.E_OK)) fun x =>
      StatusMeans (Gone cfg k0 kd id) k0 x.1 x.2.2 := by
  refine Ensures.map ((releaseECB_gone h).imp fun k1 hk1 => ?_)
  obtain ⟨h1, h2, h3⟩ := hk1
  have hfree : id ∈ k1.freeEvents cfg := by
    unfold Kernel.freeEvents
    obtain ⟨n, hn⟩ := Nat.exists_eq_succ_of_ne_zero (Nat.ne_of_gt (Nat.zero_lt_of_lt hid))
    rw [h2, hn]
    exact List.mem_cons_self
  unfold StatusMeans
  rw [if_pos rfl]
  dsimp only
  unfold cleared
  by_cases hq : kd = .queue
  · rw [if_pos hq]
    refine ⟨h1, hfree, fun _ => ?_, waiters_nil h3.list⟩
    change update k1.QueueIDVessel (k1.qId (qcbOf k0 id)) false (k0.qId (qcbOf k0 id)) = false
    rw [h3.qId, Function.update_self]
  · rw [if_neg hq]
    exact ⟨h1, hfree, fun e => absurd e hq, waiters_nil h3.list⟩

/-- **The status of `CoDelSem`, `CoDelMbox` and `CoDelQueue`** says what happened exactly for the
    two options that they know. -/
theorem run_del_means (hi : k.IsrReq = false) (hk : kd ≠ .invalid) (hid : id < cfg.maxEvent)
    (hty : k.eventType id = kd) {k' : Kernel} {ret : Ret}
    (h : (EvtCall.del kd id opt).run cfg k r = some (k', ret)) :
    StatusMeans (Gone cfg k kd id) k k' ret.2 ↔ opt = OPT_DEL_NO_PEND ∨ opt = OPT_DEL_ANYWAY := by
  rw [run_del hk hid hty] at h
  by_cases h0 : opt = OPT_DEL_NO_PEND
  · refine iff_of_true ?_ (Or.inl h0)
    rw [if_pos h0] at h
    by_cases hl : k.eventTCBList id ≠ none
    · rw [if_pos hl] at h
      obtain ⟨rfl, rfl⟩ := Prod.mk.inj (Option.some.inj h)
      exact (if_neg (by decide)).mpr rfl
    · rw [if_neg hl] at h
      exact releaseECB_means hid ⟨not_not.mp hl, rfl, hi⟩ _ h
  rw [if_neg h0] at h
  by_cases h1 : opt = OPT_DEL_ANYWAY
  · refine iff_of_true ?_ (Or.inr h1)
    rw [if_pos h1] at h
    have hempty : Ensures (releaseTasks cfg id cfg.tasks (osSchedLock k)) (Emptied id k.qId) :=
      releaseTasks_empty cfg.tasks hi rfl
    have hall := hempty.bind fun k1 e1 => (@Emptied.unlock cfg k1 id _ e1).bind fun k2 e2 =>
      @releaseECB_means cfg k2 kd id hid k e2
    exact hall (k', ret) h
  · -- E_OK, and the event is still there
    refine iff_of_false (fun hx => ?_) (not_or.mpr ⟨h0, h1⟩)
    rw [if_neg h1] at h
    obtain ⟨rfl, rfl⟩ := Prod.mk.inj (Option.some.inj h)
    have hg : Gone cfg k kd id (cleared k k kd id) := (if_pos rfl).mp hx
    have ht : (cleared k k kd id).eventType id = kd := by
      unfold cleared
      split <;> exact hty
    exact hk (ht.symm.trans hg.type)

end Events

/-! ## Flags -/

/-- The flag `id` does not exist, and no node waits for it. -/
structure FlagGone (cfg : Env) (id : Nat) (k : Kernel) : Prop where
  active : k.flagActive &&& flagBit id = 0
  alone : ∀ t ∈ k.aside.flagTasks cfg, k.waitFlags t &&& flagBit id = 0

/-- Does a task wait for the flag `id`? -/
def Kernel.flagAwaited (cfg : Env) (k : Kernel) (id : Nat) : Prop :=
  ∃ t ∈ k.aside.flagTasks cfg, k.waitFlags t &&& flagBit id ≠ 0

section Flags

variable {cfg : Env} {s : Kernel} {g : Ghost} {cur id opt : Nat} {F : List Nat}

theorem springs_masks (T : List Nat) : ∀ a : Aside, (T.foldl Aside.spring a).masks = a.masks := by
  induction T with
  | nil => exact fun _ => rfl
  | cons t T ih => exact fun a => (ih (a.spring t)).trans spring_masks

theorem and_not_and (x y : BitVec 32) : x &&& ~~~ y &&& y = 0 := by
  apply BitVec.eq_of_getElem_eq
  intro i hi
  simp

/-- After the loop of `CoDelFlag` no node waits for the flag. -/
theorem unflag_alone (h : FlagD d F) (hlen : F.length ≤ cfg.tasks) : ∀ t ∈
    ((d.unflag id F).dropMasks id).aside.flagTasks cfg,
      ((d.unflag id F).dropMasks id).aside.waitFlags t &&& flagBit id = 0 := by
  intro t ht
  have hD : FlagD ((d.unflag id F).dropMasks id)
    (F.filter (· ∉ F.filter (d.aside.masks.drops id))) :=
    (FlagD.springs (h.shrink id _) (h.list.nodup.filter _) fun t ht =>
      List.mem_of_mem_filter ht).dropMasks id
  rw [hD.list.tasks (Nat.le_trans (List.length_filter_le ..) hlen)] at ht
  obtain ⟨hF, hdrop⟩ := List.mem_filter.mp ht
  have hnd : ¬ d.aside.masks.drops id t = true := fun e =>
    of_decide_eq_true hdrop (List.mem_filter.mpr ⟨hF, e⟩)
  have hwf : ((d.unflag id F).dropMasks id).aside.waitFlags t =
      if t ∈ F.filter (d.aside.masks.shrinks id) then d.aside.waitFlags t &&& ~~~ flagBit id
      else d.aside.waitFlags t :=
    congrFun (congrArg Masks.waitFlags (springs_masks _ _)) t
  rw [hwf]
  split
  · exact and_not_and _ _
  · next hns =>
    -- a node that waits for the flag is released or shrinks
    by_contra hb
    have hs : ¬ d.aside.masks.shrinks id t = true := fun e => hns (List.mem_filter.mpr ⟨hF, e⟩)
    unfold Masks.drops at hnd
    unfold Masks.shrinks at hs
    have hb' : (d.aside.masks.waitFlags t &&& flagBit id != 0) = true := bne_iff_ne.mpr hb
    rw [hb', Bool.true_and, Bool.not_eq_true] at hs
    rw [hb', Bool.true_and, hs] at hnd
    exact hnd rfl

/-- Locking and unlocking changes nothing. -/
theorem Stable.lock_unlock (h : Stable cfg s g cur) (hi : s.IsrReq = false) :
    osSchedUnlock cfg (osSchedLock s) = some s := by
  cases hr : s.TaskSchedReq with
  | false => exact CoOS.lock_unlock hi (Or.inr hr)
  | true =>
    -- the ready list is empty, and `Schedule` returns
    have hrdy : s.TCBRdy = none := by
      rw [head_rdy h.coh.rep, h.req hr]
      rfl
    have hsched : schedule cfg (osSchedLock s) = some (osSchedLock s) := by
      unfold schedule
      split
      · next e _ =>
        rw [show (osSchedLock s).TCBRdy = none from hrdy] at e
        exact nomatch e
      · rfl
    have hone : (osSchedLock s).OSSchedLock = 1 := congrArg (· + 1) h.lock
    rw [osSchedUnlock_eq cfg (show (osSchedLock s).IsrReq = false from hi), if_pos hone,
      if_pos (show (osSchedLock s).TaskSchedReq = true from hr), hsched, Option.map_some]
    refine congrArg some ?_
    unfold osSchedLock
    rw [← h.lock]

theorem takeSwitch_aside (s : Kernel) : (takeSwitch s).aside = s.aside := by
  unfold takeSwitch
  split
  · rfl
  · rfl

/-- `CoDelFlag` refuses when somebody waits for the flag. -/
theorem coDelFlag_refused (h : Stable cfg s g cur) (hf : FlagOk cfg s g F) (hi : s.IsrReq = false)
    (hact : s.flagActive &&& flagBit id ≠ 0) (hw : s.flagAwaited cfg id) :
    coDelFlag cfg s id OPT_DEL_NO_PEND = some (s, .E_TASK_WAITING) := by
  have hhead : (osSchedLock s).headNode = F.head? := hf.list.links.head
  have hany : (F.any fun t => (osSchedLock s).waitFlags t &&& flagBit id != 0) = true := by
    obtain ⟨t, ht, hb⟩ := hw
    rw [hf.tasks] at ht
    exact List.any_eq_true.mpr ⟨t, ht, bne_iff_ne.mpr hb⟩
  have hloop := @delFlagLoop_noPend cfg (osSchedLock s) id cfg.tasks [] F hf.list.links hf.length
  unfold coDelFlag
  rw [if_neg (Nat.not_lt_of_le (Nat.le_of_eq h.coh.nest)), if_neg hact]
  unfold delFlagSection
  dsimp only
  rw [hhead, hloop, hany, Option.bind_eq_bind, Option.bind_some]
  dsimp only
  rw [if_pos rfl, h.lock_unlock hi]
  rfl

/-- Otherwise it deletes the flag, with what the option does to the nodes. -/
theorem coDelFlag_deletes (h : Stable cfg s g cur) (hf : FlagOk cfg s g F) (hi : s.IsrReq = false)
    {d : Data} (hd : (s.data g).delFlag cfg id opt = (d, .E_OK)) :
    ∃ k', coDelFlag cfg s id opt = some (k', .E_OK) ∧ k'.aside = d.aside := by
  rcases coDelFlag_section h.enter hf id opt with ⟨st, e, hq⟩ | ⟨s1, g1, st, d1, e, hb, hq⟩
  · rw [hd] at hq
    obtain ⟨rfl, rfl⟩ := Prod.mk.inj hq
    exact ⟨s, e, rfl⟩
  · rw [hd] at hq
    obtain ⟨rfl, rfl⟩ := Prod.mk.inj hq
    have hreq : d1.aside.IsrReq = false := by
      have := congrArg EvtPart.IsrReq (@delFlag_quiet cfg (s.data g) id opt).part
      rw [hd] at this
      exact this.trans hi
    obtain ⟨s', g', r, f1, -, -, f2⟩ := hb.finish h.lock hreq
    refine ⟨s', ?_, (takeSwitch_aside s').symm.trans f2.aside⟩
    rw [e, f1]
    rfl

/-- **The status of `CoDelFlag`** says what happened exactly when its option is one that it knows,
    or no task waits for the flag. -/
theorem coDelFlag_means (h : Stable cfg s g cur) (hf : FlagOk cfg s g F) (hi : s.IsrReq = false)
    (hact : s.flagActive &&& flagBit id ≠ 0) : ∃ k' st, coDelFlag cfg s id opt = some (k', st) ∧
      (StatusMeans (FlagGone cfg id) s k' st ↔
        (opt = OPT_DEL_NO_PEND ∨ opt = OPT_DEL_ANYWAY) ∨ ¬ s.flagAwaited cfg id) := by
  have hdrop : ∀ {d : Data} {k' : Kernel}, k'.aside = (d.dropMasks id).aside →
      k'.flagActive &&& flagBit id = 0 := fun {d k'} e => by
    rw [show k'.flagActive = d.aside.flagActive &&& ~~~ flagBit id from congrArg Aside.flagActive e]
    exact and_not_and _ _
  have hact' : ¬ (s.data g).aside.flagActive &&& flagBit id = 0 := hact
  -- a deletion that leaves the nodes as they are
  have hplain : (s.data g).delFlag cfg id opt = ((s.data g).dropMasks id, .E_OK) →
      ∃ k', coDelFlag cfg s id opt = some (k', .E_OK) ∧
        (StatusMeans (FlagGone cfg id) s k' .E_OK ↔ ¬ s.flagAwaited cfg id) := fun hd => by
    obtain ⟨k', e1, e2⟩ := coDelFlag_deletes h hf hi hd
    have hft : k'.aside.flagTasks cfg = s.aside.flagTasks cfg := by
      rw [e2]
      rfl
    have hwf : k'.waitFlags = s.waitFlags := congrArg Aside.waitFlags e2
    refine ⟨k', e1, ?_⟩
    unfold StatusMeans Kernel.flagAwaited
    rw [if_pos rfl]
    refine ⟨fun hx ⟨t, ht, hb⟩ => hb ?_, fun hx => ⟨hdrop e2, fun t ht => ?_⟩⟩
    · rw [← hwf]
      exact hx.alone t (by rw [hft]; exact ht)
    · rw [hft] at ht
      rw [hwf]
      exact not_not.mp fun hb => hx ⟨t, ht, hb⟩
  by_cases h0 : opt = OPT_DEL_NO_PEND
  · by_cases hw : s.flagAwaited cfg id
    · rw [h0]
      exact ⟨s, _, coDelFlag_refused h hf hi hact hw,
        iff_of_true ((if_neg (by decide)).mpr rfl) (Or.inl (Or.inl rfl))⟩
    · have hany : ((s.data g).aside.flagTasks cfg).any (fun t =>
          (s.data g).aside.waitFlags t &&& flagBit id != 0) = false :=
        List.any_eq_false.mpr fun t ht hb => hw ⟨t, ht, bne_iff_ne.mp hb⟩
      obtain ⟨k', e1, e2⟩ := hplain (by
        unfold Data.delFlag
        rw [if_neg hact', if_pos h0, hany, if_neg (by decide)])
      exact ⟨k', _, e1, iff_of_true (e2.mpr hw) (Or.inl (Or.inl h0))⟩
  by_cases h1 : opt = OPT_DEL_ANYWAY
  · obtain ⟨k', e1, e2⟩ := @coDelFlag_deletes cfg s g cur id opt F h hf hi
      (((s.data g).unflag id F).dropMasks id) (by
        unfold Data.delFlag
        rw [if_neg hact', if_neg h0, if_pos h1,
          show (s.data g).aside.flagTasks cfg = F from hf.tasks])
    refine ⟨k', _, e1,
      iff_of_true ((if_pos rfl).mpr ⟨hdrop e2, fun t ht => ?_⟩) (Or.inl (Or.inr h1))⟩
    rw [e2] at ht
    rw [show k'.waitFlags = _ from congrArg Aside.waitFlags e2]
    exact unflag_alone hf.data hf.length t ht
  · obtain ⟨k', e1, e2⟩ := hplain (by
      unfold Data.delFlag
      rw [if_neg hact', if_neg h0, if_neg h1])
    exact ⟨k', _, e1, e2.trans (by simp [h0, h1])⟩

end Flags

/-! ## In runs -/

section Runs

variable {cfg : Env} {i : Idle} {us : List Setup} {m0 : Sys}

theorem EvtReach.req {ok : EvtSys → EvtAct → Prop} {e0 m : EvtSys} (h0 : e0.k.IsrReq = false)
    (h : EvtReach cfg ok e0 m) : m.k.IsrReq = false := by
  cases h with
  | start => exact h0
  | step _ _ hs =>
    have := (Option.filter_eq_some_iff.mp hs).2
    simpa using this

/-- **A status means what it says** exactly for the options that the code knows; for a flag also
    when no task waits for it. -/
theorem deletion_means (hu : ∀ u ∈ us, u.Valid) (hb : boot cfg i us = some m0) :
    (∀ ok m, EvtReach cfg ok ⟨m0.k, fun _ => .none⟩ m → ∀ r kd id opt, kd ≠ .invalid →
      id < cfg.maxEvent → m.k.eventType id = kd → ∀ k' ret,
        (EvtCall.del kd id opt).run cfg.served m.k r = some (k', ret) →
          (StatusMeans (Gone cfg.served m.k kd id) m.k k' ret.2 ↔
            opt = OPT_DEL_NO_PEND ∨ opt = OPT_DEL_ANYWAY)) ∧
    ∀ m, Reach cfg (Tame cfg) m0 m → ∀ id opt, m.k.flagActive &&& flagBit id ≠ 0 →
      ∃ k' st, coDelFlag cfg.served m.k id opt = some (k', st) ∧
        (StatusMeans (FlagGone cfg.served id) m.k k' st ↔
          (opt = OPT_DEL_NO_PEND ∨ opt = OPT_DEL_ANYWAY) ∨ ¬ m.k.flagAwaited cfg.served id) := by
  obtain ⟨g0, r0, hbt, -⟩ := booted hu hb
  refine ⟨fun ok m hm r kd id opt hk hid hty k' ret h => ?_, fun m hm id opt hact => ?_⟩
  · exact @run_del_means cfg.served m.k kd id opt r (hm.req hbt.inv.req) hk hid hty k' ret h
  · obtain ⟨g, r, F, hi⟩ := hm.tame ⟨g0, r0, [], hbt.inv⟩
    exact coDelFlag_means hi.stable hi.flags hi.req hact

/-- Task 1 waits for the semaphore that task 2 deletes; in the other run it waits for the flag. -/
theorem deletion_means_shipped : ∃ m0 e m k' k'',
    boot shippedEnv shippedIdle
    [.plainTask 5, .plainTask 10, .sem 0 1 sortFifo, .flag 0 0] = some m0 ∧
    EvtReach shippedEnv (fun _ _ => True) ⟨m0.k, fun _ => .none⟩ e ∧
    e.k.waiters shippedEnv 0 = [1] ∧
    (EvtCall.del .sem 0 OPT_DEL_ANYWAY).run shippedEnv.served e.k 2 = some (k', 0, .E_OK) ∧
    Gone shippedEnv.served e.k .sem 0 k' ∧
    Reach shippedEnv (Tame shippedEnv) m0 m ∧ m.k.aside.flagTasks shippedEnv = [1] ∧
    coDelFlag shippedEnv.served m.k 0 OPT_DEL_ANYWAY = some (k'', .E_OK) ∧
    FlagGone shippedEnv.served 0 k'' := by
  have hrun : ((boot shippedEnv shippedIdle [.plainTask 5, .plainTask 10, .sem 0 1 sortFifo,
    .flag 0 0]).bind
      fun m0 =>
        (evtRuns shippedEnv ⟨m0.k, fun _ => .none⟩ [.call (.pend .sem 0 9), .resume]).bind fun e =>
        (m0.step shippedEnv [] (.call (.waitFlag 0 9))).bind fun m =>
          ((EvtCall.del .sem 0 OPT_DEL_ANYWAY).run shippedEnv.served e.k 2).bind fun x =>
            (coDelFlag shippedEnv.served m.k 0 OPT_DEL_ANYWAY).map fun y =>
              decide (e.k.waiters shippedEnv 0 = [1] ∧ e.k.eventType 0 = .sem ∧ x.2 = (0, .E_OK) ∧
                m.k.aside.flagTasks shippedEnv = [1] ∧ m.k.flagActive &&& flagBit 0 ≠ 0 ∧
                  y.2 = .E_OK)) =
      some true := by decide +kernel
  obtain ⟨m0, h1, h2⟩ := Option.bind_eq_some_iff.mp hrun
  obtain ⟨e, h3, h4⟩ := Option.bind_eq_some_iff.mp h2
  obtain ⟨m, h5, h6⟩ := Option.bind_eq_some_iff.mp h4
  obtain ⟨⟨k', ret⟩, h7, h8⟩ := Option.bind_eq_some_iff.mp h6
  obtain ⟨⟨k'', st⟩, h9, h10⟩ := Option.map_eq_some_iff.mp h8
  obtain ⟨hw, hty, rfl, hf, hact, rfl⟩ := of_decide_eq_true h10
  have he : EvtReach shippedEnv (fun _ _ => True) ⟨m0.k, fun _ => .none⟩ e :=
    evtRuns_reach _ (fun _ _ _ => trivial) .start h3
  have htame : Tame shippedEnv m0 [] (.call (.waitFlag 0 9)) := Or.inl (show 9 < 2 ^ 31 by decide)
  have hm : Reach shippedEnv (Tame shippedEnv) m0 m := .step .start htame h5
  obtain ⟨hev, hfl⟩ := deletion_means (by decide) h1
  have h11 := hev _ e he 2 .sem 0 OPT_DEL_ANYWAY (by decide) (by decide) hty k' _ h7
  obtain ⟨k3, st, h12, h13⟩ := hfl m hm 0 OPT_DEL_ANYWAY hact
  obtain ⟨rfl, rfl⟩ := Prod.mk.inj (Option.some.inj (h12.symm.trans h9))
  exact ⟨m0, e, m, k', k3, h1, he, hw, h7, (if_pos rfl).mp (h11.mpr (Or.inr rfl)), hm, hf, h12,
    (if_pos rfl).mp (h13.mpr (Or.inl (Or.inr rfl)))⟩

/-- With the option 2, `CoDelQueue` reports the deletion of a queue that still exists, whose queue
    block is free. -/
theorem deletion_undone :
    ∃ m0 k', boot shippedEnv shippedIdle [.plainTask 5, .queue 1 4 sortFifo] = some m0 ∧
    m0.k.eventType 0 = .queue ∧
    (EvtCall.del .queue 0 2).run shippedEnv.served m0.k 1 = some (k', 0, .E_OK) ∧
    k'.eventType 0 = .queue ∧ k'.QueueIDVessel 0 = false ∧
    ¬ StatusMeans (Gone shippedEnv.served m0.k .queue 0) m0.k k' .E_OK := by
  have hrun : ((boot shippedEnv shippedIdle [.plainTask 5, .queue 1 4 sortFifo]).bind fun m =>
      ((EvtCall.del .queue 0 2).run shippedEnv.served m.k 1).map fun x =>
        (m.k.eventType 0, x.2, x.1.eventType 0, x.1.QueueIDVessel 0)) =
      some (.queue, (0, .E_OK), .queue, false) := by decide +kernel
  obtain ⟨m0, h1, h2⟩ := Option.bind_eq_some_iff.mp hrun
  obtain ⟨⟨k', ret⟩, h3, h4⟩ := Option.map_eq_some_iff.mp h2
  obtain ⟨hty, h5⟩ := Prod.mk.inj h4
  obtain ⟨rfl, h6⟩ := Prod.mk.inj h5
  obtain ⟨hty', hbit⟩ := Prod.mk.inj h6
  refine ⟨m0, k', h1, hty, h3, hty', hbit, fun hx => ?_⟩
  have hg : Gone shippedEnv.served m0.k .queue 0 k' := (if_pos rfl).mp hx
  exact nomatch hty'.symm.trans hg.type

end Runs

end CoOS
