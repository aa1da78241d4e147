/-
  Whom `CoSetFlag` and `CoDelFlag` release, from the waiting list in any state a task may call
  them in.

  `CoSetFlag` releases the tasks whose wait the new flag completes, all of them or, for a flag
  that resets itself, the first. `CoDelFlag` takes the flag out of the nodes that wait for
  several flags without looking whether the others are ready: such a task is left in the list.
-/
import CoOS.Lib.Mask
import CoOS.Timer.Apart
import CoOS.Event.Status

namespace CoOS

open Function (update)
open DList KeyOrder

/-! ## Flags do not read the timers -/

section Timers

variable (cfg : Env) (k : Kernel) (m : Tmr) (log : List (Nat × Nat))

theorem removeLinkNode_withTmr (t : Nat) :
    removeLinkNode (k.withTmr m log) t = (removeLinkNode k t).withTmr m log := by
  have h1 : (k.withTmr m log).nextNode t = k.nextNode t := rfl
  have h2 : (k.withTmr m log).prevNode t = k.prevNode t := rfl
  unfold removeLinkNode
  rw [h1, h2]
  cases k.nextNode t with
  | none =>
    cases k.prevNode t with
    | none => rfl
    | some p => rfl
  | some q =>
    cases k.prevNode t with
    | none => rfl
    | some p => rfl

theorem removeFromLink_withTmr (t : Nat) :
    removeFromLink cfg (k.withTmr m log) t = (removeFromLink cfg k t).map (·.withTmr m log) := by
  unfold removeFromLink
  dsimp only
  rw [removeLinkNode_withTmr]
  generalize removeLinkNode k t = s
  have h1 : (if (s.withTmr m log).delayTick t ≠ INVALID_VALUE then removeDelayList
    (s.withTmr m log) t
      else s.withTmr m log) =
        (if s.delayTick t ≠ INVALID_VALUE then removeDelayList s t else s).withTmr m log := by
    rw [apply_ite (fun k : Kernel => k.withTmr m log)]
    rfl
  rw [h1]
  generalize (if s.delayTick t ≠ INVALID_VALUE then removeDelayList s t else s) = s1
  rw [apply_ite (Option.map fun k : Kernel => k.withTmr m log), ← insertToTCBRdyList_withTmr]
  rfl

theorem setFlagLoop_withTmr (id n : Nat) : ∀ (k : Kernel) (o : Option Nat),
    setFlagLoop cfg id n (k.withTmr m log) o = (setFlagLoop cfg id n k o).map
    (·.withTmr m log) := by
  induction n with
  | zero =>
    intro k o
    cases o with
    | none => rfl
    | some t => rfl
  | succ n ih =>
    intro k o
    cases o with
    | none => rfl
    | some t =>
      rw [setFlagLoop, setFlagLoop, apply_ite (Option.map fun k : Kernel => k.withTmr m log)]
      refine if_congr Iff.rfl ?_ (ih k (k.nextNode t))
      rw [removeFromLink_withTmr]
      cases removeFromLink cfg k t with
      | none => rfl
      | some s =>
        change (if s.resetOpt &&& flagBit id ≠ 0 then _ else setFlagLoop cfg id n (s.withTmr m log)
          (s.nextNode t)) =
          Option.map _ (if s.resetOpt &&& flagBit id ≠ 0 then _ else _)
        rw [apply_ite (Option.map fun k : Kernel => k.withTmr m log), ih s (s.nextNode t)]
        rfl

theorem delFlagLoop_withTmr (id opt n : Nat) : ∀ (k : Kernel) (o : Option Nat),
    delFlagLoop cfg id opt n (k.withTmr m log) o =
      (delFlagLoop cfg id opt n k o).map fun x => (x.1.withTmr m log, x.2) := by
  induction n with
  | zero =>
    intro k o
    cases o with
    | none => rfl
    | some t => rfl
  | succ n ih =>
    intro k o
    cases o with
    | none => rfl
    | some t =>
      let f : Kernel × Bool → Kernel × Bool := fun x => (x.1.withTmr m log, x.2)
      rw [delFlagLoop, delFlagLoop, apply_ite (Option.map f)]
      refine if_congr Iff.rfl ?_ (ih k (k.nextNode t))
      rw [apply_ite (Option.map f)]
      refine if_congr Iff.rfl rfl ?_
      rw [apply_ite (Option.map f)]
      refine if_congr Iff.rfl ?_ (ih k (k.nextNode t))
      rw [apply_ite (Option.map f)]
      refine if_congr Iff.rfl ?_ ?_
      · exact ih
          { k with waitFlags := update k.waitFlags t (k.waitFlags t &&& ~~~ flagBit id) }
            (k.nextNode t)
      · rw [removeFromLink_withTmr]
        cases removeFromLink cfg k t with
        | none => rfl
        | some s => exact ih s (s.nextNode t)

/-- Only the outermost unlock looks at the requests of interrupts. -/
theorem osSchedUnlock_withTmr_of (hi : k.OSSchedLock = 1 → k.IsrReq = false) :
    osSchedUnlock cfg (k.withTmr m log) = (osSchedUnlock cfg k).map (·.withTmr m log) := by
  by_cases hl : k.OSSchedLock = 1
  · exact osSchedUnlock_withTmr cfg k m log (hi hl)
  · rw [osSchedUnlock_nested cfg hl, osSchedUnlock_nested cfg (s := k.withTmr m log) hl]
    rfl

theorem unlock_withTmr {β : Type} (b : β) (hi : k.OSSchedLock = 1 → k.IsrReq = false) :
    ((osSchedUnlock cfg (k.withTmr m log)).bind fun s => some (s, b)) =
      ((osSchedUnlock cfg k).bind fun s => some (s, b)).map fun y => (y.1.withTmr m log, y.2) := by
  rw [osSchedUnlock_withTmr_of cfg k m log hi]
  cases osSchedUnlock cfg k with
  | none => rfl
  | some s => rfl

/-- The lock and the requests at the end of a section that keeps them. -/
theorem quiet_of_frame {s : Kernel} (hi : k.OSSchedLock = 0 → k.IsrReq = false)
    (h : s.frame = (osSchedLock k).frame) : s.OSSchedLock = 1 → s.IsrReq = false := fun hl => by
  have h1 : s.OSSchedLock = k.OSSchedLock + 1 := congrArg Frame.OSSchedLock h
  have h2 : s.IsrReq = k.IsrReq := congrArg Frame.IsrReq h
  rw [h2]
  exact hi (by omega)

theorem coSetFlag_withTmr (id : Nat) (hi : k.OSSchedLock = 0 → k.IsrReq = false) :
    coSetFlag cfg (k.withTmr m log) id = (coSetFlag cfg k id).map fun y => (y.1.withTmr m log,
      y.2) := by
  unfold coSetFlag
  rw [apply_ite (Option.map _)]
  refine if_congr Iff.rfl rfl ?_
  rw [apply_ite (Option.map _)]
  refine if_congr Iff.rfl rfl ?_
  let s := osSchedLock { k with flagRdy := k.flagRdy ||| flagBit id }
  change (setFlagLoop cfg id cfg.tasks (s.withTmr m log) s.headNode).bind _ = _
  rw [setFlagLoop_withTmr]
  change _ = ((setFlagLoop cfg id cfg.tasks s s.headNode).bind _).map _
  cases h1 : setFlagLoop cfg id cfg.tasks s s.headNode with
  | none => rfl
  | some s1 =>
    refine unlock_withTmr cfg s1 m log _ ?_
    exact quiet_of_frame (k := k) hi (setFlagLoop_frame cfg id cfg.tasks (s := s) _ rfl s1 h1)

theorem coDelFlag_withTmr (id opt : Nat) (hi : k.OSSchedLock = 0 → k.IsrReq = false) :
    coDelFlag cfg (k.withTmr m log) id opt = (coDelFlag cfg k id opt).map fun y =>
    (y.1.withTmr m log, y.2) := by
  unfold coDelFlag
  rw [apply_ite (Option.map _)]
  refine if_congr Iff.rfl rfl ?_
  rw [apply_ite (Option.map _)]
  refine if_congr Iff.rfl rfl ?_
  change (delFlagLoop cfg id opt cfg.tasks ((osSchedLock k).withTmr m log) k.headNode).bind _ = _
  rw [delFlagLoop_withTmr]
  change _ = ((delFlagLoop cfg id opt cfg.tasks (osSchedLock k) k.headNode).bind _).map _
  cases h1 : delFlagLoop cfg id opt cfg.tasks (osSchedLock k) k.headNode with
  | none => rfl
  | some x =>
    obtain ⟨s1, waiting⟩ := x
    have hq :=
      quiet_of_frame (k := k) hi (delFlagLoop_frame cfg id opt cfg.tasks _ rfl (s1, waiting) h1)
    cases waiting with
    | true => exact unlock_withTmr cfg s1 m log _ hq
    | false => exact unlock_withTmr cfg { s1 with
        flagActive := s1.flagActive &&& ~~~ flagBit id
        flagRdy := s1.flagRdy &&& ~~~ flagBit id
        resetOpt := s1.resetOpt &&& ~~~ flagBit id } m log _ hq

end Timers

/-! ## A call of the flags -/

/-- A task calls the kernel, outside a locked section or in one: the lists of tasks are in order,
    whatever timers there are, and the nodes of the flags form the list `F`. -/
structure InCall (cfg : Env) (k : Kernel) (g : Ghost) (cur : Nat) (F : List Nat) : Prop where
  tasks : Pending cfg (osSchedLock (k.withTmr Tmr.zero [])) g cur
  flags : FlagOk cfg k g F
  req : k.OSSchedLock = 0 → k.IsrReq = false

section Calls

variable {cfg : Env} {k s : Kernel} {g : Ghost} {cur : Nat} {F : List Nat}

theorem FlagOk.withTmr (h : FlagOk cfg k g F) (m : Tmr) (log : List (Nat × Nat)) :
    FlagOk cfg (k.withTmr m log) g F := ⟨h.list.congr rfl rfl rfl, h.wait⟩

theorem Inv.inCall {m : Sys} (h : Inv cfg m g cur F) : InCall cfg.served m.k g cur F := by
  refine ⟨?_, h.flags, fun _ => h.req⟩
  exact h.stable.withoutTmr.enter

theorem takeSwitch_view (s : Kernel) : (takeSwitch s).view = s.view := by
  unfold takeSwitch
  split
  · rfl
  · rfl

/-- The end of a call: what is said here does not depend on the switch. -/
theorem Section.returns {β : Type} {res : Option (Kernel × β)} {Q : β → Data → Prop}
    (h : Section cfg s g cur res Q) (hp : Pending cfg (osSchedLock s) g cur)
    (hi : s.OSSchedLock = 0 → ∀ b d, Q b d → d.aside.IsrReq = false) :
    ∃ s' g' b d, res = some (s', b) ∧ Q b d ∧ Coh cfg s' g' ∧ Calm g g' ∧ Holds s' g' d := by
  rcases h with ⟨b, e, hq⟩ | ⟨s1, g1, b, d, e, hb, hq⟩
  · exact ⟨s, g, b, _, e, hq, hp.coh.congr rfl, Calm.refl _, holds_data s g⟩
  by_cases hl : s.OSSchedLock = 0
  · obtain ⟨s', g', r, e1, e2, e3, e4⟩ := hb.finish hl (hi hl b d hq)
    refine ⟨s', g', b, d, ?_, hq, ?_, e3, ?_⟩
    · rw [e, e1]
      rfl
    · exact e2.coh.congr (takeSwitch_view s').symm
    · have hst : (takeSwitch s').state = s'.state := congrArg KView.state (takeSwitch_view s')
      refine ⟨(takeSwitch_aside s').symm.trans e4.aside, e4.evt, ?_, e4.timed⟩
      rw [← hst]
      exact e4.waits
  · obtain ⟨s', e1, e2, e3, e4, e5, -⟩ := hb.nested (Nat.pos_of_ne_zero hl)
    refine ⟨s', g1, b, d, ?_, hq, e2.coh, e4, e5⟩
    rw [e, e1]
    rfl

/-- The same with timers, which the call does not touch. -/
theorem InCall.returns {β : Type} {Q : β → Data → Prop} (h : InCall cfg k g cur F)
    (res : Kernel → Option (Kernel × β))
    (ht : res k = (res (k.withTmr Tmr.zero [])).map fun y => (y.1.withTmr k.tmr k.callBacks, y.2))
    (hs : Section cfg (k.withTmr Tmr.zero []) g cur (res (k.withTmr Tmr.zero [])) Q)
    (hq : ∀ b d, Q b d → d.aside.IsrReq = k.IsrReq) :
    ∃ k' g' b d, res k = some (k', b) ∧ Q b d ∧ Coh cfg (k'.withTmr Tmr.zero []) g' ∧ Calm g g' ∧
      Holds k' g' d := by
  obtain ⟨q', g', b, d, e1, e2, e3, e4, e5⟩ :=
    hs.returns h.tasks fun hl b d hd => (hq b d hd).trans (h.req hl)
  refine ⟨q'.withTmr k.tmr k.callBacks, g', b, d, ?_, e2, ?_, e4,
    ⟨e5.aside, e5.evt, e5.waits, e5.timed⟩⟩
  · rw [ht, e1]
    rfl
  · refine e3.congr ?_
    exact congrArg (fun l => { q'.view with TmrList := l }) e3.tmr.symm

/-- Two tasks, of priorities 5 and 10, and two flags that do not reset themselves. -/
def twoWaiters : List Setup := [.plainTask 5, .plainTask 10, .flag 0 0, .flag 0 0]

/-- Four tasks, the first the most urgent, and two flags that do not reset themselves. -/
def fourTasks : List Setup :=
  [.plainTask 5, .plainTask 6, .plainTask 7, .plainTask 10, .flag 0 0, .flag 0 0]

/-- Tasks of the priorities 10, 11 and 5, a flag that resets itself and one that does not. -/
def threeWaiters : List Setup := [.plainTask 10, .plainTask 11, .plainTask 5, .flag 1 0, .flag 0 0]

/-- A state reached by the steps `l`, in which the tasks of `F` wait for flags. -/
theorem inCall_of_run (us : List Setup) {l : List (List SQC × Act)} {F : List Nat} {P : Sys → Prop}
    [DecidablePred P] (hu : ∀ u ∈ us, u.Valid)
    (h : ((boot shippedEnv shippedIdle us).bind fun m => runs shippedEnv (Fine shippedEnv) m l).map
      (fun m => (m.k.aside.flagTasks shippedEnv, decide (P m))) = some (F, true)) :
    ∃ m0 m, boot shippedEnv shippedIdle us = some m0 ∧ Reach shippedEnv (Fine shippedEnv) m0 m ∧
      (∃ g cur, InCall shippedEnv.served m.k g cur F) ∧ P m := by
  obtain ⟨m0, m, h1, h2, h3⟩ := ran h
  obtain ⟨h4, h5⟩ := Prod.mk.inj h3
  obtain ⟨g0, r0, hbt, -⟩ := booted hu h1
  obtain ⟨g, r, F', hi⟩ := h2.inv (fun _ _ _ hf => hf) ⟨g0, r0, [], hbt.inv⟩
  obtain rfl : F' = F := hi.flags.tasks.symm.trans h4
  exact ⟨m0, m, h1, h2, ⟨g, r, hi.inCall⟩, of_decide_eq_true h5⟩

/-- Whom `CoSetFlag(id)` has to release among `F`: the tasks whose wait holds with `id` set, or
    the first of them when `id` resets itself. -/
def Kernel.woken (k : Kernel) (id : Nat) (F : List Nat) : List Nat :=
  if k.resetOpt &&& flagBit id = 0 then F.filter fun t => satisfied k (k.flagRdy ||| flagBit id) t
  else (F.filter fun t => satisfied k (k.flagRdy ||| flagBit id) t).head?.toList

/-- A released task is ready, or the scheduler has picked it already. -/
def Kernel.awake (k : Kernel) (t : Nat) : Prop :=
  k.state t = .READY ∨ (k.state t = .RUNNING ∧ k.TCBNext = some t)

theorem woken_eq (k : Kernel) (id : Nat) (F : List Nat) :
    k.woken id F =
    released (k.aside.masks.sat (k.flagRdy ||| flagBit id)) (k.resetOpt &&& flagBit id != 0) F := by
  have hsat : (fun t => decide (satisfied k (k.flagRdy ||| flagBit id) t)) =
      k.aside.masks.sat (k.flagRdy ||| flagBit id) := by
    funext t
    rw [Bool.eq_iff_iff, decide_eq_true_iff]
    exact satisfied_iff k _ t
  unfold Kernel.woken released
  rw [hsat]
  by_cases hr : k.resetOpt &&& flagBit id = 0
  · rw [if_pos hr, if_neg (by simp [hr])]
  · rw [if_neg hr, if_pos (bne_iff_ne.mpr hr), List.take_one]

theorem Coh.awake {t : Nat} (h : Coh cfg s g) (hl : Live cfg g t) (hw : s.state t ≠ .WAITING) :
    s.awake t := by
  by_cases hr : s.state t = .RUNNING
  · exact Or.inr ⟨hr, h.run t hl hr⟩
  · refine Or.inl ?_
    by_contra hn
    exact hw (h.waiting_of hl hn hr)

theorem InCall.setFlag {id : Nat} (h : InCall cfg k g cur F) (hb : ¬ badFlag k id)
    (hr : k.flagRdy &&& flagBit id = 0) :
    ∃ k' g', coSetFlag cfg k id = some (k', .E_OK) ∧
    Coh cfg (k'.withTmr Tmr.zero []) g' ∧ Calm g g' ∧
      Holds k' g' (((k.data g).setRdy (k.flagRdy ||| flagBit id)).springs (k.woken id F)) ∧
      FlagList k'.aside (F.filter (· ∉ k.woken id F)) := by
  obtain ⟨k', g', st, d, e1, e2, e3, e4, e5⟩ := h.returns (fun k => coSetFlag cfg k id)
    (coSetFlag_withTmr cfg (k.withTmr Tmr.zero []) k.tmr k.callBacks id h.req)
    (coSetFlag_restful h.tasks (h.flags.withTmr _ _) id).section fun st d hq => by
      obtain ⟨rfl, -⟩ := Prod.mk.inj hq
      exact congrArg EvtPart.IsrReq (setFlag_quiet (k.data g) id).1
  have hset : (k.data g).setFlag cfg id =
      (((k.data g).setRdy (k.flagRdy ||| flagBit id)).springs (k.woken id F), .E_OK) := by
    unfold Data.setFlag Data.wakes
    rw [if_neg (show ¬ (k.data g).aside.badFlag id from hb),
      if_neg (show ¬ (k.data g).aside.flagRdy &&& flagBit id ≠ 0 from fun e => e hr),
      show (k.data g).aside.flagTasks cfg = F from h.flags.tasks, woken_eq]
    rfl
  obtain ⟨rfl, rfl⟩ := Prod.mk.inj (e2.trans hset)
  have hsub : (∀ t ∈ k.woken id F, t ∈ F) ∧ (F.Nodup → (k.woken id F).Nodup) := by
    rw [woken_eq]
    exact released_sub
  have hD :=
    (h.flags.data.setRdy (k.flagRdy ||| flagBit id)).springs (hsub.2 h.flags.list.nodup) hsub.1
  exact ⟨k', g', e1, e3, e4, e5, e5.aside ▸ hD.list⟩

theorem mem_woken {t id : Nat} (ht : t ∈ k.woken id F) :
    t ∈ F ∧ satisfied k (k.flagRdy ||| flagBit id) t := by
  rw [woken_eq] at ht
  obtain ⟨h1, h2⟩ := mem_released ht
  exact ⟨h1, (satisfied_iff k _ t).mpr h2⟩

/-- **Whom CoSetFlag releases**: exactly the tasks whose wait holds with the flag set, or the first
    of them when the flag resets itself. They are awake and delayed no more; the others wait on, in
    the same order in a well formed list, and if the flag does not reset itself then none of them
    could be released. -/
theorem setFlag_releases {id : Nat} (h : InCall cfg k g cur F) (hb : ¬ badFlag k id)
    (hr : k.flagRdy &&& flagBit id = 0) :
    ∃ k' D, coSetFlag cfg k id = some (k', .E_OK) ∧
      FlagList k'.aside (F.filter (· ∉ k.woken id F)) ∧ IsDList k'.dlyLinks D ∧
      (∀ t ∈ k.woken id F, k'.awake t ∧ k'.delayTick t = INVALID_VALUE ∧ t ∉ D) ∧
      (∀ t ∈ F, t ∉ k.woken id F → k'.state t = .WAITING) ∧
      (k.resetOpt &&& flagBit id = 0 → ∀ t ∈ F, t ∉ k.woken id F →
        ¬ satisfied k' k'.flagRdy t) := by
  obtain ⟨k', g', e1, e2, e3, e4, e5⟩ := h.setFlag hb hr
  have hlive : ∀ t ∈ F, Live cfg g' t := fun t ht => (e3.live t).mpr (h.flags.wait t ht).1
  have hm : k'.aside.masks = { k.aside.masks with flagRdy := k.flagRdy ||| flagBit id } := by
    rw [e4.aside]
    exact springs_masks _ _
  refine ⟨k', g'.tcb.lst .dly, e1, e5, e2.rep.tcb.double .dly rfl, fun t ht => ?_,
    fun t ht hn => (e4.waits t).mpr ⟨hn, (h.flags.wait t ht).2.1⟩, fun hres t ht hn hs => ?_⟩
  · have hl := hlive t (mem_woken ht).1
    have hdly : g'.tcb.loc t ≠ some .dly := fun e => ((e4.timed t).mp e).1 ht
    refine ⟨e2.awake hl fun e => ((e4.waits t).mp e).1 ht, (e2.task t hl).tick hdly, fun e => ?_⟩
    exact hdly ((e2.rep.tcb.mem .dly t).mp e)
  · -- a satisfied node is in the list of the released
    refine hn ?_
    unfold Kernel.woken
    rw [if_pos hres]
    refine List.mem_filter.mpr ⟨ht, decide_eq_true ?_⟩
    rw [satisfied_iff, hm] at hs
    rw [satisfied_iff]
    have hrd : k'.flagRdy = k.flagRdy ||| flagBit id := congrArg Masks.flagRdy hm
    rwa [hrd] at hs

/-- Tasks 1 and 3 wait for the flag 0, task 2 for both flags: the first two are released, and task 2
    waits on. -/
theorem setFlag_releases_shipped : ∃ m0 m k', boot shippedEnv shippedIdle fourTasks = some m0 ∧
    Reach shippedEnv (Fine shippedEnv) m0 m ∧ m.k.woken 0 [1, 2, 3] = [1, 3] ∧
    coSetFlag shippedEnv.served m.k 0 = some (k', .E_OK) ∧ FlagList k'.aside [2] ∧
    (k'.awake 1 ∧ k'.delayTick 1 = INVALID_VALUE) ∧ (k'.awake 3 ∧ k'.delayTick 3 = INVALID_VALUE) ∧
    k'.state 2 = .WAITING ∧ ¬ satisfied k' k'.flagRdy 2 := by
  obtain ⟨m0, m, h1, h2, ⟨g, r, h⟩, h3, h4, h5, h6⟩ := inCall_of_run fourTasks
    (l := [([], .call (.waitFlag 0 0)), ([], .call (.waitFlags 3 OPT_WAIT_ALL 0)),
      ([], .call (.waitFlag 0 9))])
    (F := [1, 2, 3]) (P := fun m => ¬ badFlag m.k 0 ∧ m.k.flagRdy &&& flagBit 0 = 0 ∧
      m.k.woken 0 [1, 2, 3] = [1, 3] ∧ m.k.resetOpt &&& flagBit 0 =
        0) (by decide) (by decide +kernel)
  obtain ⟨k', D, e1, e2, -, e3, e4, e5⟩ := setFlag_releases h h3 h4
  rw [h5] at e2 e3 e4 e5
  obtain ⟨e6, e7, -⟩ := e3 1 (by decide)
  obtain ⟨e8, e9, -⟩ := e3 3 (by decide)
  exact ⟨m0, m, k', h1, h2, h5, e1, e2, ⟨e6, e7⟩, ⟨e8, e9⟩, e4 2 (by decide) (by decide),
    e5 h6 2 (by decide) (by decide)⟩

/-- Task 1, more urgent than the caller, is RUNNING when `CoSetFlag` returns. -/
theorem setFlag_runs_released : ∃ m0 m k', boot shippedEnv shippedIdle twoWaiters = some m0 ∧
    Reach shippedEnv (Fine shippedEnv) m0 m ∧ (∃ g r, InCall shippedEnv.served m.k g r [1]) ∧
    (¬ badFlag m.k 0 ∧ m.k.flagRdy &&& flagBit 0 = 0 ∧ ¬ satisfied m.k m.k.flagRdy 1 ∧
      m.k.woken 0 [1] = [1]) ∧
    coSetFlag shippedEnv.served m.k 0 = some (k', .E_OK) ∧ k'.state 1 = .RUNNING ∧
    k'.state 1 ≠ .READY := by
  obtain ⟨m0, m, h1, h2, h, h3, h4⟩ :=
    inCall_of_run twoWaiters (l := [([], .call (.waitFlag 0 0))]) (F := [1])
    (P := fun m => (¬ badFlag m.k 0 ∧ m.k.flagRdy &&& flagBit 0 = 0 ∧
      ¬ satisfied m.k m.k.flagRdy 1 ∧
      m.k.woken 0 [1] = [1]) ∧
        ((coSetFlag shippedEnv.served m.k 0).map fun x => (x.2, x.1.state 1)) =
        some (.E_OK, .RUNNING)) (by decide) (by decide +kernel)
  obtain ⟨⟨k', st⟩, h5, h6⟩ := Option.map_eq_some_iff.mp h4
  obtain ⟨rfl, h7⟩ := Prod.mk.inj h6
  exact ⟨m0, m, k', h1, h2, h, h3, h5, h7, by rw [h7]; decide⟩

/-- What `CoSetFlag(id)` takes from the waiting list are tasks that wait for `id`, and one of them
    is released if `id`, resetting itself, completes a wait. -/
def WakesFor (cfg : Env) (id : Nat) (k k' : Kernel) : Prop :=
  (∀ t ∈ k.aside.flagTasks cfg, t ∉ k'.aside.flagTasks cfg → k.waitFlags t &&& flagBit id ≠ 0) ∧
    (k.resetOpt &&& flagBit id ≠ 0 →
      (∃ t ∈ k.aside.flagTasks cfg, ¬ satisfied k k.flagRdy t ∧
        satisfied k (k.flagRdy ||| flagBit id) t) →
        ∃ t ∈ k.aside.flagTasks cfg, t ∉ k'.aside.flagTasks cfg ∧ k.waitFlags t &&& flagBit id ≠ 0)

/-- The flags that are set satisfy `t` already, which does not wait for `id`: they are set for a
    task that has not run again yet. -/
def Kernel.stale (k : Kernel) (id t : Nat) : Prop :=
  satisfied k k.flagRdy t ∧ k.waitFlags t &&& flagBit id = 0

instance (k : Kernel) (id t : Nat) : Decidable (k.stale id t) := inferInstanceAs (Decidable (_ ∧ _))

/-- No such task is in the list; for a flag that resets itself, none is the first that could go. -/
def NoneStale (k : Kernel) (id : Nat) (F : List Nat) : Prop :=
  if k.resetOpt &&& flagBit id = 0 then ∀ t ∈ F, ¬ k.stale id t
  else ∀ t ∈ (F.filter fun t => satisfied k (k.flagRdy ||| flagBit id) t).head?, ¬ k.stale id t

instance (k : Kernel) (id : Nat) (F : List Nat) : Decidable (NoneStale k id F) := by
  unfold NoneStale
  infer_instance

/-- The flag `id` matters to those only who wait for it. -/
theorem satisfied_or {t id : Nat} (h : k.waitFlags t &&& flagBit id = 0) :
    satisfied k (k.flagRdy ||| flagBit id) t ↔ satisfied k k.flagRdy t := by
  have hw : k.waitFlags t &&& (k.flagRdy ||| flagBit id) = k.waitFlags t &&& k.flagRdy := by
    rw [BitVec.and_or_distrib_left, h]
    exact BitVec.or_zero
  unfold satisfied
  rw [hw]

theorem noneStale_iff {id : Nat} :
    NoneStale k id F ↔ ∀ t ∈ k.woken id F, k.waitFlags t &&& flagBit id ≠ 0 := by
  unfold NoneStale Kernel.woken
  by_cases hr : k.resetOpt &&& flagBit id = 0
  · rw [if_pos hr, if_pos hr]
    refine ⟨fun h t ht hz => ?_, fun h t ht hs => ?_⟩
    · obtain ⟨h1, h2⟩ := List.mem_filter.mp ht
      exact h t h1 ⟨(satisfied_or hz).mp (of_decide_eq_true h2), hz⟩
    · exact h t (List.mem_filter.mpr ⟨ht, decide_eq_true ((satisfied_or hs.2).mpr hs.1)⟩) hs.2
  · rw [if_neg hr, if_neg hr]
    refine ⟨fun h t ht hz => ?_, fun h t ht hs => h t (Option.mem_toList.mpr ht) hs.2⟩
    have hm := Option.mem_toList.mp ht
    have h2 := (List.mem_filter.mp (List.mem_of_mem_head? hm)).2
    exact h t hm ⟨(satisfied_or hz).mp (of_decide_eq_true h2), hz⟩

/-- If the flag satisfies somebody then somebody is released. -/
theorem woken_ne {t id : Nat} (ht : t ∈ F) (hs : satisfied k (k.flagRdy ||| flagBit id) t) :
    ∃ u, u ∈ k.woken id F := by
  have hm : t ∈ F.filter fun t => satisfied k (k.flagRdy ||| flagBit id) t :=
    List.mem_filter.mpr ⟨ht, decide_eq_true hs⟩
  unfold Kernel.woken
  split
  · exact ⟨t, hm⟩
  · cases hf : F.filter fun t => satisfied k (k.flagRdy ||| flagBit id) t with
    | nil =>
      rw [hf] at hm
      exact absurd hm List.not_mem_nil
    | cons u l => exact ⟨u, List.mem_singleton_self u⟩

theorem InCall.wakesFor_iff {id : Nat} (h : InCall cfg k g cur F) (hb : ¬ badFlag k id)
    (hr : k.flagRdy &&& flagBit id = 0) :
    ∃ k', coSetFlag cfg k id = some (k', .E_OK) ∧ (WakesFor cfg id k k' ↔ NoneStale k id F) := by
  obtain ⟨k', g', e1, -, -, -, e2⟩ := h.setFlag hb hr
  refine ⟨k', e1, ?_⟩
  rw [noneStale_iff]
  unfold WakesFor
  rw [h.flags.tasks, e2.tasks (Nat.le_trans (List.length_filter_le ..) h.flags.length)]
  have hgone : ∀ t ∈ F, t ∉ F.filter (· ∉ k.woken id F) ↔ t ∈ k.woken id F := fun t ht => by
    rw [List.mem_filter, decide_eq_true_iff]
    tauto
  refine ⟨fun hx t ht => hx.1 t (mem_woken ht).1 ((hgone t (mem_woken ht).1).mpr ht),
    fun hx => ⟨fun t ht hn => hx t ((hgone t ht).mp hn), fun _ ⟨t, ht, _, hs⟩ => ?_⟩⟩
  obtain ⟨u, hu⟩ := woken_ne ht hs
  exact ⟨u, (mem_woken hu).1, (hgone u (mem_woken hu).1).mpr hu, hx u hu⟩

/-- **CoSetFlag wakes those who wait for the flag** exactly when no wait is satisfied by flags that
    are set for another task. -/
theorem setFlag_wakes_waiters {i : Idle} {us : List Setup} {m0 m : Sys} {id : Nat} {cfg : Env}
    (hu : ∀ u ∈ us, u.Valid) (hb : boot cfg i us = some m0) (h : Reach cfg (Tame cfg) m0 m)
    (hid : ¬ badFlag m.k id) (hr : m.k.flagRdy &&& flagBit id = 0) :
    ∃ k', coSetFlag cfg.served m.k id = some (k', .E_OK) ∧
      (WakesFor cfg.served id m.k k' ↔ NoneStale m.k id (m.k.aside.flagTasks cfg.served)) := by
  obtain ⟨g0, r0, hbt, -⟩ := booted hu hb
  obtain ⟨g, r, F, hi⟩ := h.tame ⟨g0, r0, [], hbt.inv⟩
  rw [hi.flags.tasks]
  exact hi.inCall.wakesFor_iff hid hr

theorem setFlag_wakes_waiters_shipped :
    ∃ m0 m k', boot shippedEnv shippedIdle twoWaiters = some m0 ∧
    m0.step shippedEnv [] (.call (.waitFlag 0 0)) = some m ∧
    coSetFlag shippedEnv.served m.k 0 = some (k', .E_OK) ∧ WakesFor shippedEnv.served 0 m.k k' := by
  have hrun : ((boot shippedEnv shippedIdle twoWaiters).bind fun m =>
      (m.step shippedEnv [] (.call (.waitFlag 0 0))).map fun m => decide (¬ badFlag m.k 0 ∧
        m.k.flagRdy &&& flagBit 0 = 0 ∧ NoneStale m.k 0 (m.k.aside.flagTasks shippedEnv.served))) =
      some true := by decide +kernel
  obtain ⟨m0, h1, h2⟩ := Option.bind_eq_some_iff.mp hrun
  obtain ⟨m, h3, h4⟩ := Option.map_eq_some_iff.mp h2
  obtain ⟨h5, h6, h7⟩ := of_decide_eq_true h4
  have hfine : Tame shippedEnv m0 [] (.call (.waitFlag 0 0)) := Or.inl (show 0 < 2 ^ 31 by decide)
  obtain ⟨k', e1, e2⟩ := setFlag_wakes_waiters (by decide) h1 (.step .start hfine h3) h5 h6
  exact ⟨m0, m, k', h1, h3, e1, e2.mpr h7⟩

/-- Tasks 1 and 2 wait for flag 0, which resets itself. Task 3 sets it, which releases task 1, and
    before that runs sets flag 1: task 2 is released, which does not wait for flag 1. -/
theorem setFlag_wakes_another : ∃ m0 m k', boot shippedEnv shippedIdle threeWaiters = some m0 ∧
    Reach shippedEnv (Fine shippedEnv) m0 m ∧ ¬ badFlag m.k 1 ∧ m.k.flagRdy &&& flagBit 1 = 0 ∧
    coSetFlag shippedEnv.served m.k 1 = some (k', .E_OK) ∧ k'.state 2 = .READY ∧
    m.k.waitFlags 2 = flagBit 0 ∧ ¬ WakesFor shippedEnv.served 1 m.k k' := by
  obtain ⟨m0, m, h1, h2, -, ⟨h3, h4⟩, h5⟩ := inCall_of_run threeWaiters
    (l := [([], .call (.tickDelay 1)), ([], .call (.waitFlag 0 0)), ([], .call (.waitFlag 0 0)),
      ([], .tick),
      ([], .call (.setFlag 0))]) (F := [2])
    (P := fun m => (¬ badFlag m.k 1 ∧ m.k.flagRdy &&& flagBit 1 = 0) ∧
      ((coSetFlag shippedEnv.served m.k 1).map fun x => (x.2, decide (x.1.state 2 = .READY ∧
        m.k.waitFlags 2 = flagBit 0 ∧ 2 ∈ m.k.aside.flagTasks shippedEnv.served ∧
        2 ∉ x.1.aside.flagTasks shippedEnv.served ∧ m.k.waitFlags 2 &&& flagBit 1 = 0))) =
          some (.E_OK, true))
    (by decide) (by decide +kernel)
  obtain ⟨⟨k', st⟩, h6, h7⟩ := Option.map_eq_some_iff.mp h5
  obtain ⟨rfl, h8⟩ := Prod.mk.inj h7
  obtain ⟨f1, f2, f3, f4, f5⟩ := of_decide_eq_true h8
  exact ⟨m0, m, k', h1, h2, h3, h4, h6, f1, f2, fun hx => hx.1 2 f3 f4 f5⟩

/-- Does the deletion of `id` complete the wait of `t`? It waits for all of several flags, and the
    others are ready. -/
def Kernel.completes (k : Kernel) (id t : Nat) : Prop :=
  k.waitType t = OPT_WAIT_ALL ∧ k.waitFlags t &&& flagBit id ≠ 0 ∧ k.waitFlags t ≠ flagBit id ∧
    (k.waitFlags t &&& ~~~ flagBit id) &&& k.flagRdy = k.waitFlags t &&& ~~~ flagBit id

instance (k : Kernel) (id t : Nat) : Decidable (k.completes id t) :=
  inferInstanceAs (Decidable (_ ∧ _))

/-- What the deletion of `id` makes of the nodes that it leaves. -/
theorem unflag_sat {d : Data} {id t : Nat} (ht : t ∈ F) (hd : d.aside.masks.drops id t = false) :
    ((d.unflag id F).dropMasks id).aside.masks.sat (d.aside.flagRdy &&& ~~~ flagBit id) t =
      if d.aside.waitFlags t &&& flagBit id = 0 then d.aside.masks.sat d.aside.flagRdy t
      else decide ((d.aside.waitFlags t &&& ~~~ flagBit id) &&& d.aside.flagRdy =
        d.aside.waitFlags t &&& ~~~ flagBit id) := by
  have hm : ((d.unflag id F).dropMasks id).aside.masks.waitFlags t =
      if t ∈ F.filter (d.aside.masks.shrinks id) then d.aside.waitFlags t &&& ~~~ flagBit id
      else d.aside.waitFlags t := congrFun (congrArg Masks.waitFlags (springs_masks _ _)) t
  have hty : ((d.unflag id F).dropMasks id).aside.masks.waitType t = d.aside.masks.waitType t :=
    congrFun (congrArg Masks.waitType (springs_masks _ _)) t
  unfold Masks.sat
  rw [hm, hty]
  by_cases hz : d.aside.waitFlags t &&& flagBit id = 0
  · -- the node does not wait for the flag
    have hns : t ∉ F.filter (d.aside.masks.shrinks id) := fun hmem => by
      have hs := (List.mem_filter.mp hmem).2
      unfold Masks.shrinks at hs
      rw [show d.aside.masks.waitFlags t &&& flagBit id = 0 from hz] at hs
      exact nomatch hs
    have hw : d.aside.waitFlags t &&& (d.aside.flagRdy &&& ~~~ flagBit id) =
        d.aside.waitFlags t &&& d.aside.flagRdy := by
      rw [BitVec.and_comm d.aside.flagRdy, ← BitVec.and_assoc, Mask.and_not_eq hz]
    rw [if_neg hns, if_pos hz, hw]
    rfl
  · have hne : (d.aside.masks.waitFlags t &&& flagBit id != 0) = true := bne_iff_ne.mpr hz
    unfold Masks.drops at hd
    rw [hne, Bool.true_and, Bool.not_eq_false'] at hd
    have hs : t ∈ F.filter (d.aside.masks.shrinks id) := by
      refine List.mem_filter.mpr ⟨ht, ?_⟩
      unfold Masks.shrinks
      rw [hne, Bool.true_and]
      exact hd
    rw [Bool.and_eq_true, beq_iff_eq] at hd
    rw [if_pos hs, if_neg hz, if_pos hd.1, Mask.and_not_and_not]
    rfl

/-- A node that waits for the flag stays exactly when it waits for all of several flags. -/
theorem drops_eq_false {t id : Nat} (hz : k.waitFlags t &&& flagBit id ≠ 0) :
    k.aside.masks.drops id t = false ↔ k.waitType t = OPT_WAIT_ALL ∧
    k.waitFlags t ≠ flagBit id := by
  have hne : (k.aside.masks.waitFlags t &&& flagBit id != 0) = true := bne_iff_ne.mpr hz
  unfold Masks.drops
  rw [hne, Bool.true_and, Bool.not_eq_false', Bool.and_eq_true, beq_iff_eq, bne_iff_ne]
  rfl

/-- **CoDelFlag leaves no satisfied task waiting** exactly when it completes no wait for all of
    several flags. -/
theorem delFlag_leaves_none {id : Nat} (h : InCall cfg k g cur F)
    (ha : k.flagActive &&& flagBit id ≠ 0)
    (hnone : ∀ t ∈ F, ¬ satisfied k k.flagRdy t) :
    ∃ k' F', coDelFlag cfg k id OPT_DEL_ANYWAY = some (k', .E_OK) ∧ FlagList k'.aside F' ∧
      (∀ t ∈ F, t ∉ F' → k'.awake t) ∧
      ((∀ t ∈ F', ¬ satisfied k' k'.flagRdy t) ↔ ∀ t ∈ F, ¬ k.completes id t) := by
  obtain ⟨k', g', st, d, e1, e2, e3, e4, e5⟩ :=
    h.returns (fun k => coDelFlag cfg k id OPT_DEL_ANYWAY)
    (coDelFlag_withTmr cfg (k.withTmr Tmr.zero []) k.tmr k.callBacks id OPT_DEL_ANYWAY h.req)
    (coDelFlag_section h.tasks (h.flags.withTmr _ _) id OPT_DEL_ANYWAY) fun st d hq => by
      obtain ⟨rfl, -⟩ := Prod.mk.inj hq
      exact congrArg EvtPart.IsrReq (delFlag_quiet (k.data g) id OPT_DEL_ANYWAY).part
  have hdel : (k.data g).delFlag cfg id OPT_DEL_ANYWAY = (((k.data g).unflag id F).dropMasks id,
    .E_OK) := by
    unfold Data.delFlag
    rw [if_neg (show ¬ (k.data g).aside.flagActive &&& flagBit id = 0 from ha), if_neg (by decide),
      if_pos rfl, show (k.data g).aside.flagTasks cfg = F from h.flags.tasks]
  obtain ⟨rfl, rfl⟩ := Prod.mk.inj (e2.trans hdel)
  have hD : FlagD (((k.data g).unflag id F).dropMasks id)
    (F.filter (· ∉ F.filter (k.aside.masks.drops id))) :=
    (FlagD.springs (h.flags.data.shrink id _) (h.flags.list.nodup.filter _)
      fun t ht => List.mem_of_mem_filter ht).dropMasks id
  have hrdy : k'.flagRdy = k.flagRdy &&& ~~~ flagBit id :=
    (congrArg Aside.flagRdy e5.aside).trans
      (congrArg (· &&& ~~~ flagBit id) (congrArg Masks.flagRdy (springs_masks _ _)))
  have hmem : ∀ t, t ∈ F.filter (· ∉ F.filter (k.aside.masks.drops id)) ↔
      t ∈ F ∧ k.aside.masks.drops id t = false := fun t => by
    rw [List.mem_filter, decide_eq_true_iff, List.mem_filter, Bool.eq_false_iff]
    tauto
  -- what is left of a node is satisfied exactly when the deletion completes its wait
  have hleft : ∀ t ∈ F, k.aside.masks.drops id t = false →
      (satisfied k' k'.flagRdy t ↔ k.completes id t) := fun t ht hd => by
    have hs : (((k.data g).unflag id F).dropMasks id).aside.masks.sat
      (k.flagRdy &&& ~~~ flagBit id) t =
        if k.waitFlags t &&& flagBit id = 0 then k.aside.masks.sat k.flagRdy t
        else decide ((k.waitFlags t &&& ~~~ flagBit id) &&& k.flagRdy =
          k.waitFlags t &&& ~~~ flagBit id) :=
      unflag_sat (d := k.data g) ht hd
    rw [satisfied_iff, e5.aside, hrdy]
    unfold Kernel.completes
    by_cases hz : k.waitFlags t &&& flagBit id = 0
    · rw [hs, if_pos hz]
      exact iff_of_false (fun e => hnone t ht ((satisfied_iff k _ t).mpr e)) fun e => e.2.1 hz
    · rw [hs, if_neg hz, decide_eq_true_iff]
      obtain ⟨h1, h2⟩ := (drops_eq_false hz).mp hd
      exact ⟨fun e => ⟨h1, hz, h2, e⟩, fun e => e.2.2.2⟩
  refine ⟨k', _, e1, e5.aside ▸ hD.list, fun t ht hn => ?_, fun hx t ht hc => ?_,
    fun hx t ht hs => ?_⟩
  · refine e3.awake ((e4.live t).mpr (h.flags.wait t ht).1) fun e => ((e5.waits t).mp e).1 ?_
    by_contra hd
    exact hn (List.mem_filter.mpr ⟨ht, decide_eq_true hd⟩)
  · have hd := (drops_eq_false hc.2.1).mpr ⟨hc.1, hc.2.2.1⟩
    exact hx t ((hmem t).mpr ⟨ht, hd⟩) ((hleft t ht hd).mpr hc)
  · obtain ⟨h1, h2⟩ := (hmem t).mp ht
    exact hx t h1 ((hleft t h1 h2).mp hs)

/-- Task 1 waits for one of both flags, task 2 for the flag 1 and task 3 for both: without the flag
    1, tasks 1 and 3 wait for the other one. -/
theorem delFlag_leaves_none_shipped :
    ∃ m0 m k' F', boot shippedEnv shippedIdle fourTasks = some m0 ∧
    Reach shippedEnv (Fine shippedEnv) m0 m ∧ (∀ t ∈ [1, 2, 3], ¬ m.k.completes 1 t) ∧
    coDelFlag shippedEnv.served m.k 1 OPT_DEL_ANYWAY = some (k', .E_OK) ∧
    k'.aside.flagTasks shippedEnv = [1, 3] ∧ FlagList k'.aside F' ∧
    ∀ t ∈ F', ¬ satisfied k' k'.flagRdy t := by
  obtain ⟨m0, m, h1, h2, ⟨g, r, h⟩, h3⟩ := inCall_of_run fourTasks
    (l := [([], .call (.waitFlags 3 0 0)), ([], .call (.waitFlag 1 0)),
      ([], .call (.waitFlags 3 OPT_WAIT_ALL 0))])
    (F := [1, 2, 3]) (P := fun m => decide (m.k.flagActive &&& flagBit 1 ≠ 0) &&
      [1, 2, 3].all (fun t => decide (¬ satisfied m.k m.k.flagRdy t)) &&
      [1, 2, 3].all (fun t => decide (¬ m.k.completes 1 t)) &&
      decide ((coDelFlag shippedEnv.served m.k 1 OPT_DEL_ANYWAY).map
        (fun x => x.1.aside.flagTasks shippedEnv) =
        some [1, 3])) (by decide) (by decide +kernel)
  simp only [Bool.and_eq_true, List.all_eq_true, decide_eq_true_eq] at h3
  obtain ⟨⟨⟨h3, h4⟩, h5⟩, h6⟩ := h3
  obtain ⟨k', F', e1, e2, -, e3⟩ := delFlag_leaves_none h h3 h4
  rw [e1] at h6
  exact ⟨m0, m, k', F', h1, h2, h5, e1, Option.some.inj h6, e2, e3.mpr h5⟩

/-- Task 1 waits for the flags 0 and 1, and 0 is set. The deletion of 1 leaves it waiting for 0,
    which is set, and setting it again does not release it. -/
theorem delFlag_leaves_satisfied : ∃ m0 m k' k'', boot shippedEnv shippedIdle twoWaiters = some m0 ∧
    Reach shippedEnv (Fine shippedEnv) m0 m ∧ (∃ g r, InCall shippedEnv.served m.k g r [1]) ∧
    ¬ satisfied m.k m.k.flagRdy 1 ∧
    coDelFlag shippedEnv.served m.k 1 OPT_DEL_ANYWAY = some (k', .E_OK) ∧
    k'.aside.flagTasks shippedEnv = [1] ∧ satisfied k' k'.flagRdy 1 ∧
    coSetFlag shippedEnv.served k' 0 = some (k'', .E_OK) ∧ k''.state 1 = .WAITING := by
  obtain ⟨m0, m, h1, h2, h, h3, h4⟩ := inCall_of_run twoWaiters
    (l := [([], .call (.waitFlags 3 OPT_WAIT_ALL 0)), ([], .call (.setFlag 0))]) (F := [1])
    (P := fun m => ¬ satisfied m.k m.k.flagRdy 1 ∧
      ((coDelFlag shippedEnv.served m.k 1 OPT_DEL_ANYWAY).bind fun x =>
        (coSetFlag shippedEnv.served x.1 0).map fun y =>
          (x.2, y.2, decide (x.1.aside.flagTasks shippedEnv = [1] ∧ satisfied x.1 x.1.flagRdy 1 ∧
            y.1.state 1 = .WAITING))) = some (.E_OK, .E_OK, true)) (by decide) (by decide +kernel)
  obtain ⟨⟨k', st⟩, h5, h6⟩ := Option.bind_eq_some_iff.mp h4
  obtain ⟨⟨k'', st'⟩, h7, h8⟩ := Option.map_eq_some_iff.mp h6
  obtain ⟨rfl, h9⟩ := Prod.mk.inj h8
  obtain ⟨rfl, h9⟩ := Prod.mk.inj h9
  obtain ⟨f1, f2, f3⟩ := of_decide_eq_true h9
  exact ⟨m0, m, k', k'', h1, h2, h, h3, h5, f1, f2, h7, f3⟩

end Calls

end CoOS
