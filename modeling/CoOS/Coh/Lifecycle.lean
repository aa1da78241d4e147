/-
  Tasks come and go, and change their priority: `CreateTask`, `CoDelTask`, `CoExitTask` and
  `CoSetPriority`, for tasks that have nothing to do with a mutex.
-/
import CoOS.Coh.Drain

namespace CoOS

open Function (update)
open DList KeyOrder

/-! ## On `Data` -/

/-- A new task with the priority `p`, waiting if `w`. -/
def Data.create (d : Data) (t p : Nat) (w : Bool) : Data :=
  { d with
    aside := { d.aside with
      prio := update d.aside.prio t p
      pnode := update d.aside.pnode t .null
      pmail := update d.aside.pmail t 0
      mutexID := update d.aside.mutexID t INVALID_ID }
    waits := fun u => (u = t ∧ w = true) ∨ (u ≠ t ∧ d.waits u) }

/-- The task `t` ends: it leaves the lists as a task does whose delay runs out. -/
def Data.delete (d : Data) (t : Nat) : Data := d.expire [t]

/-- The task `t` is put in the list of `e` anew, by its priority. -/
def Data.requeue (d : Data) (e t : Nat) : Data :=
  let l := (d.evt.lst e).erase t
  { d with evt := (d.evt.take e t l).put e t (insertKey d.aside.prio t l) }

/-- The task `t` is given the priority `p`; in a list ordered by priority it moves. -/
def Data.setPrio (d : Data) (t p : Nat) : Data :=
  let d1 := { d with aside := { d.aside with prio := update d.aside.prio t p } }
  match d.evt.loc t with
  | some e => if d.aside.eventSortType e = sortPrio then d1.requeue e t else d1
  | none => d1

theorem ite_bind {α β : Type} {c : Prop} [Decidable c] {x y : Option α} {f : α → Option β} :
    (if c then x.bind f else y.bind f) = (if c then x else y).bind f := by
  split
  · rfl
  · rfl

section Create

variable {cfg : Env} {s : Kernel} {g : Ghost} {cur t : Nat}

/-- `AssignTCB` of a caller in a stable state. -/
theorem assignTCB_eq (h : Stable cfg s g cur) (hc : cur ≠ 0) (hi : s.IsrReq = false) :
    assignTCB cfg s = some (match s.FreeTCB with
      | none => (s, none)
      | some t => ({ s with FreeTCB := s.TCBnext t }, some t)) := by
  have hreq := h.noreq hc
  have hq : ∀ s1 : Kernel, s1.IsrReq = false → s1.TaskSchedReq = false →
      osSchedUnlock cfg (osSchedLock s1) = some s1 := fun s1 h1 h2 => lock_unlock h1 (Or.inr h2)
  unfold assignTCB
  dsimp only
  rw [show (osSchedLock s).FreeTCB = s.FreeTCB from rfl]
  cases s.FreeTCB with
  | none =>
    dsimp only
    rw [hq s hi hreq]
    rfl
  | some t =>
    dsimp only
    have := hq { s with FreeTCB := s.TCBnext t } hi hreq
    rw [show ({ osSchedLock s with FreeTCB := (osSchedLock s).TCBnext t } : Kernel) =
      osSchedLock { s with FreeTCB := s.TCBnext t } from rfl, this]
    rfl

/-- The new task before it is made ready: it waits. -/
theorem Stable.alloc (h : Stable cfg s g cur) {l : List Nat} (hl : g.tcb.lst .free = t :: l)
    {p slice : Nat} (hp : p < 256) :
    ∃ T, (if cfg.orderListScheduleEn then some (s.assigned t p slice)
        else activeTaskPri (s.assigned t p slice) p) =
        some ((s.assigned t p slice).setPriTable T) ∧
      Stable cfg { (s.assigned t p slice).setPriTable T with state := update s.state t .WAITING }
        (g.alloc t l) cur ∧ Live cfg (g.alloc t l) t ∧ t ≠ cur ∧ (g.alloc t l).tcb.loc t = none ∧
      g.evt.loc t = none ∧ g.tcb.loc t = some .free := by
  have hloc : g.tcb.loc t = some .free := (h.coh.rep.tcb.mem .free t).mp (by rw [hl]; simp)
  have htc : t ≠ cur := fun e => h.picked.live.2 (e ▸ hloc)
  have ht0 : (0 : Nat) ≠ t := by
    rintro rfl
    rcases h.idle with e | e
    · rw [hloc] at e
      exact nomatch e
    · rw [hloc] at e
      exact nomatch e.1
  obtain ⟨T, h1, h2, h3⟩ := @Coh.alloc cfg s g t h.coh l hl p slice hp
  have hother : ∀ u, u ≠ t → (g.alloc t l).tcb.loc u = g.tcb.loc u := fun u hu =>
    Family.take_loc_ne _ _ hu
  have hrdy : (g.alloc t l).tcb.lst .rdy = g.tcb.lst .rdy := Family.take_lst_ne _ _ (by decide)
  have hne : ∀ u ∈ g.tcb.lst .rdy, u ≠ t := by
    intro u hu e
    have := (h.coh.rep.tcb.mem .rdy u).mp hu
    rw [e, hloc] at this
    exact nomatch this
  refine ⟨T, h1, ⟨h2, h.lock, h.running, ?_, ?_, h.ticks, ?_⟩, h3, htc, Family.take_loc_self ..,
    (h.coh.free t hloc).1, hloc⟩
  · refine ⟨h.picked.next, ⟨h.picked.live.1, ?_⟩, ?_, ?_⟩
    · rw [hother cur (Ne.symm htc)]
      exact h.picked.live.2
    · exact (Function.update_of_ne (Ne.symm htc) ..).trans h.picked.running
    · rw [hrdy]
      intro u hu
      change update s.prio t p cur ≤ update s.prio t p u
      rw [Function.update_of_ne (Ne.symm htc), Function.update_of_ne (hne u hu)]
      exact h.picked.first u hu
  · rw [hrdy]
    exact h.req
  · exact h.idle.keep (hother 0 ht0) (Function.update_of_ne ht0 ..)

/-- What `CreateTask` leaves: a new task, ready or waiting. -/
structure Created (cfg : Env) (g g1 : Ghost) (t : Nat) : Prop where
  was : g.tcb.loc t = some .free
  live : Live cfg g1 t
  loc : ∀ u, u ≠ t → g1.tcb.loc u = g.tcb.loc u
  lst : ∀ m, g1.tcb.lst (.mtx m) = g.tcb.lst (.mtx m)
  off : ∀ m, g1.tcb.loc t ≠ some (.mtx m)

/-- A section entered in the stable state `s` that returns at once, in a stable state, or ends
    with its unlock. -/
def Ends (cfg : Env) (s : Kernel) (cur : Nat) {β : Type} (res : Option (Kernel × β))
    (Q : β → Data → Ghost → Prop) : Prop :=
  (∃ s' g' b, res = some (s', b) ∧ Stable cfg s' g' cur ∧ Q b (s'.data g') g') ∨
    ∃ s1 g1 b d, res = (osSchedUnlock cfg s1).map (fun s => (s, b)) ∧ Body cfg s g1 cur d s1 g1 ∧
      Q b d g1

theorem Section.ends {β : Type} {res : Option (Kernel × β)} {Q : β → Data → Prop}
    (h : Section cfg s g cur res Q) (hs : Stable cfg s g cur) :
    Ends cfg s cur res fun b d g1 => Q b d ∧ Calm g g1 := by
  rcases h with ⟨b, e, hq⟩ | ⟨s1, g1, b, d, e, hb, hq⟩
  · exact Or.inl ⟨s, g, b, e, hs, hq, Calm.refl _⟩
  · exact Or.inr ⟨s1, g1, b, d, e, ⟨hb.pend, hb.lock, Calm.refl _, hb.data⟩, hq, hb.calm⟩

theorem Created.insert {g1 g2 : Ghost} (h : Created cfg g g1 t) (hf : RdyFrame g1 g2)
    (hloc : ∀ u, u ≠ t → g2.tcb.loc u = g1.tcb.loc u) : Created cfg g g2 t := by
  refine ⟨h.was, (hf.live t).mpr h.live, fun u hu => (hloc u hu).trans (h.loc u hu),
    fun m => (hf.lst (.mtx m) fun e => nomatch e).trans (h.lst m), fun m e => ?_⟩
  exact h.off m ((hf.loc t (.mtx m) fun e => nomatch e).mp e)

/-- The time slice of a new task. -/
def newSlice (cfg : Env) (parameter : Nat) : Nat :=
  if (parameter &&& 0x7fff0000) >>> 20 = 0 then cfg.defaultSlice
  else (parameter &&& 0x7fff0000) >>> 20

/-- The end of `CreateTask`: the new task is put in the ready list, or waits. -/
def startTask (cfg : Env) (k : Kernel) (t parameter : Nat) : Option (Kernel × Nat) :=
  if parameter >>> 31 = 0 then
    (insertToTCBRdyList cfg (osSchedLock k) t).bind fun k =>
      (osSchedUnlock cfg k).bind fun k => some (k, t)
  else some ({ k with state := update k.state t .WAITING }, t)

/-- `CreateTask` fails, or starts the first free TCB. -/
theorem createTask_eq (h : Stable cfg s g cur) (hc : cur ≠ 0) (hi : s.IsrReq = false)
    (task stk parameter : Nat) :
    createTask cfg s task stk parameter =
      if task = 0 ∨ stk = 0 ∨ cfg.lowestPrio < parameter &&& 0xff ∨
        (parameter &&& 0xfff00) >>> 8 < 20 then some (s, INVALID_ID)
      else match s.FreeTCB with
        | none => some (s, INVALID_ID)
        | some t =>
          (if cfg.orderListScheduleEn then some (s.assigned t (parameter &&& 0xff)
            (newSlice cfg parameter))
            else activeTaskPri (s.assigned t (parameter &&& 0xff) (newSlice cfg parameter))
              (parameter &&& 0xff)).bind fun k => startTask cfg k t parameter := by
  unfold createTask
  dsimp only
  refine if_congr Iff.rfl rfl ?_
  rw [assignTCB_eq h hc hi, Option.bind_eq_bind, Option.bind_some]
  cases s.FreeTCB with
  | none => rfl
  | some t =>
    dsimp only
    simp only [Option.bind_eq_bind]
    rw [ite_bind]
    rfl

/-- **CreateTask** -/
theorem createTask_ends (h : Stable cfg s g cur) (hc : cur ≠ 0) (hi : s.IsrReq = false)
    (task stk parameter : Nat) :
    Ends cfg s cur (createTask cfg s task stk parameter) fun i d g1 =>
      (d = s.data g ∧ g1 = g ∧ i = INVALID_ID) ∨
        ∃ p w, p ≤ cfg.lowestPrio ∧ Created cfg g g1 i ∧ d = (s.data g).create i p w := by
  have hp : parameter &&& 0xff < 256 := Nat.lt_succ_of_le Nat.and_le_right
  unfold createTask
  dsimp only
  split
  · exact Or.inl ⟨s, g, _, rfl, h, Or.inl ⟨rfl, rfl, rfl⟩⟩
  next hbad =>
  have hle : parameter &&& 0xff ≤ cfg.lowestPrio :=
    Nat.le_of_not_lt fun hlt => hbad (Or.inr (Or.inr (Or.inl hlt)))
  rw [assignTCB_eq h hc hi, Option.bind_eq_bind, Option.bind_some]
  have hhead : s.FreeTCB = (g.tcb.lst .free).head? := (h.coh.rep.tcb.single .free).head
  cases hl : g.tcb.lst .free with
  | nil =>
    rw [hhead, hl]
    exact Or.inl ⟨s, g, _, rfl, h, Or.inl ⟨rfl, rfl, rfl⟩⟩
  | cons t l =>
    rw [hhead, hl, List.head?_cons]
    dsimp only
    obtain ⟨T, h1, h2, h3, h4, h5, h6, h7⟩ :=
      @Stable.alloc cfg s g cur t h l hl (parameter &&& 0xff)
      (if (parameter &&& 0x7fff0000) >>> 20 = 0 then cfg.defaultSlice
        else (parameter &&& 0x7fff0000) >>> 20) hp
    have hcr : Created cfg g (g.alloc t l) t := by
      refine ⟨h7, h3, fun u hu => Family.take_loc_ne _ _ hu, fun m => Family.take_lst_ne _ _ ?_, ?_⟩
      · exact fun e => nomatch e
      · rw [h5]
        exact fun m e => nomatch e
    have hdly : ∀ u, (g.alloc t l).tcb.loc u = some .dly ↔ g.tcb.loc u = some .dly := by
      intro u
      by_cases hu : u = t
      · rw [hu, h5, h7]
        exact ⟨(fun e => nomatch e), (fun e => nomatch e)⟩
      · rw [hcr.loc u hu]
    simp only [Option.bind_eq_bind]
    rw [ite_bind]
    refine Eq.mpr (congrArg (fun o => Ends cfg s cur (Option.bind o _) _) h1) ?_
    rw [Option.bind_some]
    by_cases hw : parameter >>> 31 = 0
    · -- the new task becomes ready
      rw [if_pos hw]
      obtain ⟨L, T', ct, req, e1, e2⟩ := h2.enter.insert h3 h5 h6 h4
      have e1' := (insertToTCBRdyList_state cfg (osSchedLock ((s.assigned t (parameter &&& 0xff)
        (if (parameter &&& 0x7fff0000) >>> 20 = 0 then cfg.defaultSlice
          else (parameter &&& 0x7fff0000) >>> 20)).setPriTable T)) t .WAITING).symm.trans e1
      rw [e1', Option.bind_some, bind_pair]
      refine Or.inr ⟨_, _, t, (s.data g).create t (parameter &&& 0xff) false, rfl,
        ⟨e2, rfl, Calm.refl _,
        readied_aside .., rfl, fun u => ?_, fun u =>
          ?_⟩, Or.inr ⟨_, _, hle, hcr.insert (rdyFrame_mkReady h5)
          (fun u hu => Family.put_loc_ne _ _ hu), rfl⟩⟩
      · change update (update s.state t .WAITING) t .READY u = .WAITING ↔ _
        rw [Function.update_idem, waits_wake (by decide) u]
        exact ⟨Or.inr, fun e => e.resolve_left fun e => nomatch e.2⟩
      · rw [(rdyFrame_mkReady h5).loc u .dly (by decide)]
        exact hdly u
    · rw [if_neg hw]
      refine Or.inl ⟨_, _, t, rfl, h2, Or.inr ⟨parameter &&& 0xff, true, hle, hcr,
        Holds.eq ⟨rfl, rfl, fun u => ?_, hdly⟩⟩⟩
      change update s.state t .WAITING u = .WAITING ↔ _
      by_cases hu : u = t
      · rw [hu, Function.update_self]
        exact ⟨fun _ => Or.inl ⟨rfl, rfl⟩, fun _ => rfl⟩
      · rw [Function.update_of_ne hu]
        exact ⟨fun e => Or.inr ⟨hu, e⟩, fun e => (e.resolve_left fun e => hu e.1).2⟩

end Create

/-! ## Deletion -/

section Delete

variable {cfg : Env} {s : Kernel} {g : Ghost} {cur t : Nat} {F : List Nat}

/-- What `CoDelTask` leaves: the task is free, nobody else has moved. -/
structure Deleted (cfg : Env) (g g1 : Ghost) (t : Nat) : Prop where
  was : Live cfg g t
  free : g1.tcb.loc t = some .free
  loc : ∀ u, u ≠ t → g1.tcb.loc u = g.tcb.loc u
  lst : ∀ m, g1.tcb.lst (.mtx m) = g.tcb.lst (.mtx m)

theorem leave_family (h : Coh cfg s g) (t : Nat) :
    (g.leave t).evt = ((s.data g).delete t).evt := by
  have hl : (g.leave t).evt.lst = fun e => (g.evt.lst e).filter (· ∉ [t]) :=
    funext fun e => g.leave_lst t e (h.rep.evt.mem e t) (h.rep.evt.double e rfl).nodup
  have ho : (g.leave t).evt.loc = fun u => if u ∈ [t] then none else g.evt.loc u := by
    funext u
    rw [g.leave_evt]
    simp only [List.mem_singleton]
  exact (congrArg (Family.mk · (g.leave t).evt.loc) hl).trans (congrArg (Family.mk _) ho)

/-- A task that is in no event list. -/
theorem delete_family (h : Coh cfg s g) (he : g.evt.loc t = none) :
    g.evt = ((s.data g).delete t).evt := by
  rw [← leave_family h t]
  unfold Ghost.leave
  rw [he]

/-- A task that waits for no flag. -/
theorem dropFlag_off (hf : FlagOk cfg s g F) (hst : s.state t ≠ .WAITING) :
    s.aside.dropFlag t = s.aside := by
  have hm : t ∉ F := fun hm => hst (hf.wait t hm).2.1
  unfold Aside.dropFlag
  split
  · next n hn => exact absurd hn (hf.list.off t hm n)
  · rfl

/-- The end of `CoDelTask`. -/
theorem release_body {s1 s2 : Kernel} {g1 : Ghost} (h : Pending cfg s1 g1 cur)
    (hlive : Live cfg g t)
    (ho : g1.tcb.loc t = none) (h0 : t ≠ 0)
    (hs2 : s2 = { s1 with state := update s1.state t .DORMANT, TaskSchedReq := true })
    (hl : s1.OSSchedLock = s.OSSchedLock + 1) (ha : s1.aside = s.aside.dropFlag t)
    (hev : g1.evt = ((s.data g).delete t).evt) (hw : ∀ u, u ≠ t → s1.state u = s.state u)
    (hloc : ∀ u, u ≠ t → g1.tcb.loc u = g.tcb.loc u)
    (hlst : ∀ m, g1.tcb.lst (.mtx m) = g.tcb.lst (.mtx m)) :
    ∃ T, (if cfg.orderListScheduleEn then some s2 else deleteTaskPri s2 (s2.prio t)) =
        some (s2.setPriTable T) ∧
      Body cfg s (g1.release t) cur ((s.data g).delete t) ((s2.setPriTable T).freed t)
        (g1.release t) ∧ Deleted cfg g (g1.release t) t := by
  have he : g1.evt.loc t = none := by
    rw [hev]
    exact if_pos (List.mem_singleton.mpr rfl)
  obtain ⟨T, e1, e2⟩ := h.release hlive.1 ho he h0 hs2
  have hother : ∀ u, u ≠ t → (g1.release t).tcb.loc u = g.tcb.loc u := fun u hu =>
    (Family.put_loc_ne _ _ hu).trans (hloc u hu)
  have hself : (g1.release t).tcb.loc t = some .free := Family.put_loc_self ..
  refine ⟨T, e1, ⟨e2, ?_, Calm.refl _, ?_, hev, fun u => ?_, fun u => ?_⟩, hlive, hself, hother,
    fun m => (Family.put_lst_ne _ _ (show Kind.mtx m ≠ .free from fun e => nomatch e)).trans
      (hlst m)⟩
  · rw [hs2]
    exact hl
  · rw [hs2]
    exact ha
  · rw [hs2]
    change update s1.state t .DORMANT u = .WAITING ↔ u ∉ [t] ∧ s.state u = .WAITING
    rw [waits_wake (by decide) u, List.mem_singleton]
    exact and_congr_right fun hu => by rw [hw u hu]
  · change _ ↔ u ∉ [t] ∧ g.tcb.loc u = some .dly
    rw [List.mem_singleton]
    by_cases hu : u = t
    · rw [hu, hself]
      exact ⟨(fun e => nomatch e), fun e => absurd rfl e.1⟩
    · rw [hother u hu]
      exact ⟨fun e => ⟨hu, e⟩, fun e => e.2⟩

/-- `CoDelTask` of a task without a mutex, after its checks. -/
theorem coDelTask_eq (hlive : Live cfg g t) (hd : s.state t ≠ .DORMANT) (h0 : t ≠ 0)
    (hl : s.OSSchedLock = 0) (hm : s.mutexID t = INVALID_ID) :
    coDelTask cfg s t =
      (match s.state t with
        | .READY => removeFromTCBRdyList cfg (osSchedLock s) t
        | .WAITING => leaveWaiting cfg (osSchedLock s) t
        | _ => some (osSchedLock s)).bind fun s1 =>
      let s2 : Kernel := { s1 with state := update s1.state t .DORMANT, TaskSchedReq := true }
      (if cfg.orderListScheduleEn then some s2 else deleteTaskPri s2 (s2.prio t)).bind fun s3 =>
      (osSchedUnlock cfg (s3.freed t)).bind fun s => some (s, .E_OK) := by
  have hh : ¬ holdsMutex s t := fun e => e.1 hm
  unfold coDelTask
  rw [if_neg (Nat.not_le_of_lt hlive.1), if_neg hd, if_neg h0, if_neg (fun e => e.2 hl), if_neg hh]
  simp only [Option.bind_eq_bind, Option.bind_some]
  rw [show (osSchedLock s).state t = s.state t from rfl]
  cases s.state t <;> cases cfg.orderListScheduleEn <;> rfl

/-- `CoDelTask(t)` would follow the mark `0xffffffff` as a pointer: a released waiter is
    suspended. -/
def Kernel.Wild (s : Kernel) (t : Nat) : Prop := t ≠ 0 ∧ s.state t = .WAITING ∧ s.pnode t = .ones

instance (s : Kernel) (t : Nat) : Decidable (s.Wild t) := inferInstanceAs (Decidable (_ ∧ _ ∧ _))

/-- What precedes the flag list in `CoDelTask` leaves `pnode` alone. -/
theorem leaveWaiting_pnode (s : Kernel) (t : Nat) :
    let s1 := if s.delayTick t ≠ INVALID_VALUE then removeDelayList s t else s
    (if s1.eventID t ≠ INVALID_ID then removeEventWaittingList s1 t else s1).pnode = s.pnode := by
  intro s1
  have h1 : s1.pnode = s.pnode := congrArg Aside.pnode (undelay_keeps s t).1
  exact (congrArg Aside.pnode (leave_keeps s1 t).2.2.2.1).trans h1

theorem leaveWaiting_wild {s : Kernel} {t : Nat} (h : s.pnode t = .ones) :
    leaveWaiting cfg s t = none := by
  unfold leaveWaiting unlinkFlagNode
  dsimp only
  rw [congrFun (leaveWaiting_pnode s t) t, h]
  rfl

theorem coDelTask_wild {s : Kernel} {t : Nat} (ht : t < cfg.tasks) (hm : s.mutexID t = INVALID_ID)
    (h : s.Wild t) : coDelTask cfg s t = none := by
  obtain ⟨h0, h1, h2⟩ := h
  unfold coDelTask
  rw [if_neg (Nat.not_le_of_lt ht), if_neg (by rw [h1]; decide), if_neg h0,
    if_neg (fun e => by rw [h1] at e; exact nomatch e.1), if_neg fun e => e.1 hm]
  simp only [Option.bind_eq_bind, Option.bind_some]
  rw [show (osSchedLock s).state t = .WAITING from h1]
  dsimp only
  rw [leaveWaiting_wild (s := osSchedLock s) h2]
  rfl

theorem unlinkFlagNode_eq {s : Kernel} {t : Nat} (h : s.pnode t ≠ .ones) :
    unlinkFlagNode s t = some (dropFlagNode s t) := by
  unfold unlinkFlagNode dropFlagNode
  split
  · next e => rw [e]
  · next n e => rw [e]
  · next e => exact absurd e h

/-- From the removal `x` of the task from its list, `CoDelTask` gets to its `OsSchedUnlock`. -/
def DeleteSection (cfg : Env) (s : Kernel) (g : Ghost) (cur t : Nat) (x : Option Kernel) : Prop :=
  ∃ (s1 s2 : Kernel) (g1 : Ghost) (T : PriTable), x = some s1 ∧
    s2 = { s1 with state := update s1.state t .DORMANT, TaskSchedReq := true } ∧
    (if cfg.orderListScheduleEn then some s2 else deleteTaskPri s2 (s2.prio t)) =
      some (s2.setPriTable T) ∧
    Body cfg s g1 cur ((s.data g).delete t) ((s2.setPriTable T).freed t) g1 ∧ Deleted cfg g g1 t

/-- The section of `CoDelTask` of a task without a mutex. -/
theorem delete_section (h : Stable cfg s g cur) (hc : cur ≠ 0) (hf : FlagOk cfg s g F)
    (hlive : Live cfg g t) (h0 : t ≠ 0) (hm : s.mutexID t = INVALID_ID)
    (hmx : ∀ m, g.tcb.loc t ≠ some (.mtx m)) (hw : ¬ s.Wild t) :
    DeleteSection cfg s g cur t (match s.state t with
      | .READY => removeFromTCBRdyList cfg (osSchedLock s) t
      | .WAITING => leaveWaiting cfg (osSchedLock s) t
      | _ => some (osSchedLock s)) := by
  have hd := h.coh.not_dormant hlive
  have hp := h.enter
  have hend : ∀ {x : Option Kernel} {s0 s1 : Kernel} {g1 : Ghost}, x = some s0 →
      Pending cfg s1 g1 cur → g1.tcb.loc t = none →
      ({ s0 with state := update s0.state t .DORMANT, TaskSchedReq := true } : Kernel) =
        { s1 with state := update s1.state t .DORMANT, TaskSchedReq := true } →
      s1.OSSchedLock = s.OSSchedLock + 1 → s1.aside = s.aside.dropFlag t →
      g1.evt = ((s.data g).delete t).evt → (∀ u, u ≠ t → s1.state u = s.state u) →
      (∀ u, u ≠ t → g1.tcb.loc u = g.tcb.loc u) →
      (∀ m, g1.tcb.lst (.mtx m) = g.tcb.lst (.mtx m)) → DeleteSection cfg s g cur t x := by
    intro x s0 s1 g1 i0 i1 i2 i3 i4 i5 i6 i7 i8 i9
    obtain ⟨T, e1, e2, e3⟩ := release_body i1 hlive i2 h0 i3 i4 i5 i6 i7 i8 i9
    exact ⟨s0, _, g1.release t, T, i0, rfl, e1, e2, e3⟩
  have hne : ∀ u, u ≠ t → update s.state t .WAITING u = s.state u := fun u hu =>
    Function.update_of_ne hu ..
  cases hst : s.state t with
  | READY =>
    dsimp only
    have hloc := (h.coh.ready_iff hlive).mpr hst
    obtain ⟨T, h1, h2⟩ := hp.remove hloc h0
    have he := ((h.coh.task t hlive).rdy hloc).2
    have hev : (g.unready t).evt = ((s.data g).delete t).evt := @delete_family cfg s g t h.coh he
    refine hend h1 h2 (Family.take_loc_self ..) ?_ rfl ?_ hev hne
      (fun u hu => Family.take_loc_ne _ _ hu) (fun m => Family.take_lst_ne _ _ (fun e => nomatch e))
    · congr 1
      exact (Function.update_idem ..).symm
    · rw [dropFlag_off hf (by rw [hst]; decide)]
      exact unreadied_aside (osSchedLock s) ((osSchedLock s).rdyLinks.unlink t) T
  | RUNNING =>
    dsimp only
    obtain rfl := h.eq_of_running hlive hst
    obtain ⟨ho, he⟩ := h.coh.loc_of_running hlive hst
    refine hend rfl (hp.block hc hst) ho ?_ rfl ?_ (delete_family h.coh he) hne (fun _ _ => rfl)
      (fun _ => rfl)
    · congr 1
      exact (Function.update_idem ..).symm
    · rw [dropFlag_off hf (by rw [hst]; decide)]
      rfl
  | WAITING =>
    dsimp only
    have hloc : g.tcb.loc t = none ∨ g.tcb.loc t = some .dly := by
      cases hl : g.tcb.loc t with
      | none => exact Or.inl rfl
      | some k =>
        cases k with
        | rdy =>
          have e := ((h.coh.task t hlive).rdy hl).1
          rw [hst] at e
          exact nomatch e
        | dly => exact Or.inr rfl
        | free => exact absurd hl hlive.2
        | mtx m => exact absurd hl (hmx m)
    obtain ⟨g2, e1, e2, e3, e4, e5, -⟩ := hp.undelay hlive hst hloc
    obtain ⟨k1, k2, k3⟩ := undelay_keeps (osSchedLock s) t
    let s1 := if (osSchedLock s).delayTick t ≠ INVALID_VALUE then removeDelayList (osSchedLock s) t
      else osSchedLock s
    have hlive2 : Live cfg g2 t := ⟨hlive.1, by rw [e2]; exact fun e => nomatch e⟩
    have h2 := e1.leave hlive2
    obtain ⟨l1, -, -, l4, l5⟩ := leave_keeps s1 t
    let s2 := if s1.eventID t ≠ INVALID_ID then removeEventWaittingList s1 t else s1
    obtain ⟨v1, v2, v3⟩ := dropFlagNode_keeps s2 t
    have h3 : Pending cfg (dropFlagNode s2 t) (g2.leave t) cur :=
      h2.congr v1 v2 v3 (dropFlagNode_late _ t).mpr
    have ha : s2.aside = s.aside := l4.trans k1
    have hst3 : (dropFlagNode s2 t).state = s.state := (congrArg KView.state v1).trans (l1.trans k3)
    have hmx3 : ¬ (dropFlagNode s2 t).mutexID t ≠ INVALID_ID := by
      have e1 : (dropFlagNode s2 t).mutexID = s2.mutexID := congrArg KView.mutexID v1
      have e2 : s2.mutexID = s.mutexID := congrArg Aside.mutexID ha
      rw [e1, e2]
      exact fun e => e hm
    have hcode : leaveWaiting cfg (osSchedLock s) t = some (dropFlagNode s2 t) := by
      unfold leaveWaiting
      change (unlinkFlagNode s2 t).bind _ = _
      rw [unlinkFlagNode_eq fun e => hw ⟨h0, hst,
        (congrFun (congrArg Aside.pnode ha) t).symm.trans e⟩]
      exact if_neg hmx3
    obtain ⟨ht1, -⟩ := g2.leave_tcb t
    refine hend hcode h3 (by rw [ht1]; exact e2) rfl ?_ ?_ ?_ ?_ ?_ ?_
    · exact congrArg Cpu.OSSchedLock (v2.trans (l5.trans k2))
    · rw [dropFlagNode_aside, ha]
    · refine (leave_family e1.coh t).trans ?_
      unfold Data.delete Data.expire
      rw [show ((if (osSchedLock s).delayTick t ≠ INVALID_VALUE then removeDelayList
        (osSchedLock s) t
        else osSchedLock s).data g2).evt = g.evt from e3]
      rfl
    · intro u _
      rw [hst3]
    · intro u hu
      rw [ht1]
      exact e4 u hu
    · intro m
      rw [ht1]
      exact e5 (.mtx m) fun e => nomatch e
  | DORMANT => exact absurd hst hd

/-- **CoDelTask** of a task without a mutex -/
theorem coDelTask_ends (h : Stable cfg s g cur) (hc : cur ≠ 0) (hf : FlagOk cfg s g F)
    (hlive : Live cfg g t) (hm : s.mutexID t = INVALID_ID) (hmx : ∀ m, g.tcb.loc t ≠ some (.mtx m))
    (hw : ¬ s.Wild t) : Ends cfg s cur (coDelTask cfg s t) fun st d g1 =>
      (d = s.data g ∧ g1 = g ∧ st ≠ .E_OK) ∨
        (st = .E_OK ∧ Deleted cfg g g1 t ∧ d = (s.data g).delete t) := by
  have hd := h.coh.not_dormant hlive
  by_cases h0 : t = 0
  · refine Or.inl ⟨s, g, .E_PROTECTED_TASK, ?_, h, Or.inl ⟨rfl, rfl, fun e => nomatch e⟩⟩
    unfold coDelTask
    rw [if_neg (Nat.not_le_of_lt hlive.1), if_neg hd, if_pos h0]
  obtain ⟨s1, s2, g1, T, e1, rfl, e2, e3, e4⟩ := delete_section h hc hf hlive h0 hm hmx hw
  rw [coDelTask_eq hlive hd h0 h.lock hm, e1, Option.bind_some]
  dsimp only at e2 ⊢
  rw [e2, Option.bind_some, bind_pair]
  exact Or.inr ⟨_, _, _, _, rfl, e3, Or.inr ⟨rfl, e4, rfl⟩⟩

/-- **CoExitTask** -/
theorem coExitTask_eq (h : Stable cfg s g cur) : coExitTask cfg s = coDelTask cfg s cur := by
  unfold coExitTask
  rw [h.running]

end Delete

/-! ## Priorities -/

section Priority

variable {cfg : Env} {s : Kernel} {g : Ghost} {cur t p : Nat}

theorem Stable.move {s' : Kernel} {g' : Ghost} (h : Stable cfg s g cur) (hcoh : Coh cfg s' g')
    (hcpu : s'.cpu = s.cpu) (hst : s'.state = s.state) (hreq : s'.TaskSchedReq = s.TaskSchedReq)
    (htcb : g'.tcb = g.tcb) (hdly : g'.dly = g.dly)
    (hfirst : ∀ u ∈ g.tcb.lst .rdy, s'.prio cur ≤ s'.prio u) : Stable cfg s' g' cur := by
  refine ⟨hcoh, (congrArg Cpu.OSSchedLock hcpu).trans h.lock,
    (congrArg Cpu.TCBRunning hcpu).trans h.running,
      ⟨(congrArg Cpu.TCBNext hcpu).trans h.picked.next, ⟨h.picked.live.1, ?_⟩, ?_, ?_⟩, ?_, ?_, ?_⟩
  · rw [htcb]
    exact h.picked.live.2
  · rw [hst]
    exact h.picked.running
  · rw [htcb]
    exact hfirst
  · rw [hreq, htcb]
    exact h.req
  · rw [hdly]
    exact h.ticks
  · exact h.idle.keep (by rw [htcb]) (congrFun hst 0)

/-- The new priority, before the lists are put in order. -/
def Kernel.reprio (s : Kernel) (T : PriTable) (t p : Nat) : Kernel :=
  { s.setPriTable T with prio := update s.prio t p }

theorem Stable.reprio (h : Stable cfg s g cur) (hlive : Live cfg g t) (hw : s.state t = .WAITING)
    (hp : p < 256) : ∃ T, changeTaskPri cfg s (s.prio t) p = some (s.setPriTable T) ∧
      Stable cfg (s.reprio T t p) g cur := by
  have hloc : g.tcb.loc t ≠ some .rdy := by
    intro e
    have := ((h.coh.task t hlive).rdy e).1
    rw [hw] at this
    exact nomatch this
  have htc : cur ≠ t := by
    rintro rfl
    rw [h.picked.running] at hw
    exact nomatch hw
  obtain ⟨T, h1, h2⟩ := h.coh.setPrio hlive hloc hp
  refine ⟨T, h1, h.move h2 rfl rfl rfl rfl rfl fun u hu => ?_⟩
  have hut : u ≠ t := fun e => hloc (e ▸ (h.coh.rep.tcb.mem .rdy u).mp hu)
  change update s.prio t p cur ≤ update s.prio t p u
  rw [Function.update_of_ne htc, Function.update_of_ne hut]
  exact h.picked.first u hu

theorem Data.setPrio_off (d : Data) (he : d.evt.loc t = none) :
    d.setPrio t p = { d with aside := { d.aside with prio := update d.aside.prio t p } } := by
  unfold Data.setPrio
  rw [he]

/-- `CoSetPriority` of a task without a mutex, after its checks. -/
theorem coSetPriority_eq (hlive : Live cfg g t) (hd : s.state t ≠ .DORMANT) (h0 : t ≠ 0)
    (hp : p ≤ cfg.lowestPrio) (hne : s.prio t ≠ p) (hm : s.mutexID t = INVALID_ID) :
    coSetPriority cfg s t p = (changeTaskPri cfg s (s.prio t) p).bind fun s1 =>
      let s2 : Kernel := { s1 with prio := update s1.prio t p }
      match s2.state t with
      | .READY => (reorderReady cfg (osSchedLock s2) t).bind fun s =>
          (osSchedUnlock cfg s).bind fun s => some (s, .E_OK)
      | .RUNNING =>
        if prioOf cfg s2 s2.TCBRdy < s2.prio t then
          (osSchedUnlock cfg { osSchedLock s2 with TaskSchedReq := true }).bind fun s =>
            some (s, .E_OK)
        else some (s2, .E_OK)
      | _ =>
        (if s2.eventID t ≠ INVALID_ID then reorderWaiting cfg s2 t else some s2).bind fun s =>
          some (s, .E_OK) := by
  have hh : ¬ holdsMutex s t := fun e => e.1 hm
  have hmid : ¬ s.mutexID t ≠ INVALID_ID := fun e => e hm
  unfold coSetPriority coSetPriorityN
  rw [if_neg h0, if_neg (Nat.not_le_of_lt hlive.1), if_neg hd, if_neg (Nat.not_lt_of_le hp),
    if_neg hne]
  simp only [if_neg hh, if_neg (fun e : holdsMutex s t ∧ s.prio t < p => hh e.1), if_neg hmid,
    Option.bind_eq_bind, Option.bind_some]
  congr 1
  funext s1
  cases s1.state t with
  | READY => rfl
  | RUNNING => rfl
  | WAITING => exact ite_bind (y := some _)
  | DORMANT => exact ite_bind (y := some _)

/-- A ready task is moved to the place of its new priority. -/
theorem reorderReady_body (h : Stable cfg s g cur) (hord : cfg.orderListScheduleEn = true)
    (hlive : Live cfg g t) (hst : s.state t = .READY) (h0 : t ≠ 0) (hp : p < 256) :
    ∃ s1 g1, reorderReady cfg (osSchedLock { s with prio := update s.prio t p }) t = some s1 ∧
      Body cfg s g1 cur ((s.data g).setPrio t p) s1 g1 ∧ Calm g g1 ∧
        s1.state cur = s.state cur := by
  have hloc := (h.coh.ready_iff hlive).mpr hst
  have he := ((h.coh.task t hlive).rdy hloc).2
  have htc : t ≠ cur := by
    rintro rfl
    rw [h.picked.running] at hst
    exact nomatch hst
  have hrem : ∀ k : Kernel,
    removeFromTCBRdyList cfg k t = some (k.setRdyLinks (k.rdyLinks.unlink t)) :=
    fun k => if_pos hord
  have hpri : ∀ (k : Kernel) (a b : Nat), changeTaskPri cfg k a b = some k :=
    fun k a b => if_pos hord
  -- the task leaves the list with its old priority, then it gets the new one
  obtain ⟨T, h1, h2⟩ := h.enter.remove hloc h0
  rw [hrem] at h1
  have e1 := Option.some.inj h1
  let k1 : Kernel := { (osSchedLock s).setRdyLinks ((osSchedLock s).rdyLinks.unlink t) with
    state := update s.state t .WAITING }
  have hk1 : Pending cfg k1 (g.unready t) cur := by
    have : k1 = { (osSchedLock s).unreadied ((osSchedLock s).rdyLinks.unlink t) T with
        state := update s.state t .WAITING } :=
      congrArg (fun k : Kernel => { k with state := update s.state t .WAITING }) e1
    rw [this]
    exact h2
  have ho : (g.unready t).tcb.loc t = none := Family.take_loc_self ..
  have hlive1 : Live cfg (g.unready t) t := ⟨hlive.1, by rw [ho]; exact fun e => nomatch e⟩
  obtain ⟨T2, i1, i2⟩ := hk1.setPrio hlive1 (by rw [ho]; exact fun e => nomatch e) hp
    fun e => absurd e htc
  rw [hpri] at i1
  let k2 : Kernel := { k1 with prio := update s.prio t p }
  have hk2 : Pending cfg k2 (g.unready t) cur := by
    have : k2 = { k1.setPriTable T2 with prio := update k1.prio t p } :=
      congrArg (fun k : Kernel => { k with prio := update s.prio t p }) (Option.some.inj i1)
    rw [this]
    exact i2
  obtain ⟨L, T3, ct, req, j1, j2⟩ := hk2.insert hlive1 ho he htc
  have hcalm : Calm g ((g.unready t).mkReady k2.prio t) :=
    (calm_unready hloc).trans (calm_mkReady ho)
  have hcode : insertToTCBRdyList cfg
    ((osSchedLock { s with prio := update s.prio t p }).setRdyLinks
      ((osSchedLock { s with prio := update s.prio t p }).rdyLinks.unlink t)) t =
      some (k2.readied t L T3 ct req) := (insertToTCBRdyList_state cfg _ t .WAITING).symm.trans j1
  refine ⟨k2.readied t L T3 ct req, _, ?_, ⟨j2, rfl, Calm.refl _, ?_, ?_, fun u => ?_, fun u => ?_⟩,
    hcalm, (Function.update_of_ne (Ne.symm htc) ..).trans (Function.update_of_ne (Ne.symm htc) ..)⟩
  · unfold reorderReady
    rw [hrem]
    exact hcode
  · rw [readied_aside, Data.setPrio_off _ (show (s.data g).evt.loc t = none from he)]
    rfl
  · rw [Data.setPrio_off _ (show (s.data g).evt.loc t = none from he)]
    rfl
  · rw [Data.setPrio_off _ (show (s.data g).evt.loc t = none from he)]
    change update (update s.state t .WAITING) t .READY u = .WAITING ↔ s.state u = .WAITING
    rw [Function.update_idem, waits_wake (by decide) u]
    refine ⟨fun e => e.2, fun e => ⟨fun hut => ?_, e⟩⟩
    rw [hut, hst] at e
    exact nomatch e
  · rw [Data.setPrio_off _ (show (s.data g).evt.loc t = none from he),
      (rdyFrame_mkReady ho).loc u .dly (by decide), (rdyFrame_unready hloc).loc u .dly (by decide)]
    exact Iff.rfl

/-- A task that waits in a list ordered by priority is moved. -/
theorem reorderWaiting_link (h : Stable cfg s g cur) (hlive : Live cfg g t) (h0 : t ≠ 0) {e : Nat}
    (he : g.evt.loc t = some e) (hsort : s.eventSortType e = sortPrio) :
    ∃ (s1 : Kernel) (g1 : Ghost), linkWaiting cfg { osSchedLock (removeEventWaittingList s t) with
        eventID := update (removeEventWaittingList s t).eventID t e } e t = some s1 ∧
      Body cfg s g1 cur ((s.data g).requeue e t)
        { s1 with state := update s1.state t .WAITING, TaskSchedReq := true } g1 ∧
      Calm g g1 ∧ s1.state = s.state := by
  obtain ⟨hw, hloc⟩ := h.coh.waits hlive he
  have hlt := (h.coh.rep.evLt t e he).2
  have hne : s.eventID t ≠ INVALID_ID := (h.coh.eventID_iff hlive).mpr ⟨e, he⟩
  have hcoh := h.coh.leave hlive
  rw [if_pos hne] at hcoh
  obtain ⟨htcb, hdly⟩ := g.leave_tcb t
  have hs :=
    @Stable.move cfg s g cur (removeEventWaittingList s t) (g.leave t) h hcoh rfl rfl rfl htcb
    hdly h.picked.first
  have hlv : g.leave t = g.leaveEvent e t := by
    unfold Ghost.leave
    rw [he]
  rw [hlv] at hs
  have hoff : (g.leaveEvent e t).evt.loc t = none := Family.take_loc_self ..
  obtain ⟨L, e1, e2⟩ := hs.enter.join hlive hloc hoff h0 hlt (Or.inr hsort)
  have ha := setEvtLinks_aside { osSchedLock (removeEventWaittingList s t) with
    eventID := update (removeEventWaittingList s t).eventID t e } L e
  have hins : waitInsert (s.eventSortType e) s.prio t ((g.leaveEvent e t).evt.lst e) =
      insertKey s.prio t ((g.evt.lst e).erase t) := by
    unfold waitInsert
    rw [hsort, if_neg (by decide)]
    exact congrArg _ (Family.take_lst_self ..)
  refine ⟨_, _, e1, ⟨e2, rfl, Calm.refl _, ha, ?_, fun u => ?_, fun u => Iff.rfl⟩,
    calm_of_tcb rfl, rfl⟩
  · change ((g.leaveEvent e t).evt.put e t
      (waitInsert (s.eventSortType e) s.prio t ((g.leaveEvent e t).evt.lst e))) = _
    rw [hins]
    rfl
  · change update s.state t .WAITING u = .WAITING ↔ s.state u = .WAITING
    rw [waits_block u]
    refine ⟨fun i => ?_, Or.inr⟩
    rcases i with rfl | i
    · exact hw
    · exact i

theorem reorderWaiting_body (h : Stable cfg s g cur) (hlive : Live cfg g t) (h0 : t ≠ 0) {e : Nat}
    (he : g.evt.loc t = some e) (hsort : s.eventSortType e = sortPrio) :
    ∃ s1 g1, reorderWaiting cfg s t = osSchedUnlock cfg s1 ∧
      Body cfg s g1 cur ((s.data g).requeue e t) s1 g1 ∧ Calm g g1 := by
  have hid : s.eventID t = e := by
    have := (h.coh.task t hlive).ev
    rw [he] at this
    exact this
  obtain ⟨s1, g1, e1, e2, e3, -⟩ := reorderWaiting_link h hlive h0 he hsort
  refine ⟨_, g1, ?_, e2, e3⟩
  unfold reorderWaiting
  dsimp only
  rw [hid, if_pos hsort]
  unfold eventTaskToWait
  exact congrArg (Option.bind · _) e1

/-- **CoSetPriority** of a task without a mutex; a ready task is moved in the ordered build only. -/
theorem coSetPriority_ends (h : Stable cfg s g cur) (hc : cur ≠ 0) (hlive : Live cfg g t)
    (hm : s.mutexID t = INVALID_ID)
    (hb : cfg.orderListScheduleEn = true ∨ s.state t ≠ .READY) (p : Nat) :
    Ends cfg s cur (coSetPriority cfg s t p) fun _ d g1 =>
      Calm g g1 ∧ ((d = s.data g ∧ (t = 0 ∨ cfg.lowestPrio < p ∨ s.prio t = p)) ∨
        (p ≤ cfg.lowestPrio ∧ t ≠ 0 ∧ s.prio t ≠ p ∧ d = (s.data g).setPrio t p)) := by
  have hd := h.coh.not_dormant hlive
  by_cases h0 : t = 0
  · refine Or.inl ⟨s, g, .E_PROTECTED_TASK, if_pos h0, h, Calm.refl _, Or.inl ⟨rfl, Or.inl h0⟩⟩
  by_cases hlp : cfg.lowestPrio < p
  · refine Or.inl ⟨s, g, .E_INVALID_ID, ?_, h, Calm.refl _, Or.inl ⟨rfl, Or.inr (Or.inl hlp)⟩⟩
    exact (if_neg h0).trans
      ((if_neg (Nat.not_le_of_lt hlive.1)).trans ((if_neg hd).trans (if_pos hlp)))
  by_cases hpe : s.prio t = p
  · refine Or.inl ⟨s, g, .E_OK, ?_, h, Calm.refl _, Or.inl ⟨rfl, Or.inr (Or.inr hpe)⟩⟩
    exact (if_neg h0).trans ((if_neg (Nat.not_le_of_lt hlive.1)).trans ((if_neg hd).trans
      ((if_neg hlp).trans (if_pos hpe))))
  have hle := Nat.le_of_not_lt hlp
  have hp : p < 256 := by
    have := cfg.lowestPrio_le
    omega
  rw [coSetPriority_eq hlive hd h0 hle hpe hm]
  cases hst : s.state t with
  | READY =>
    have hord := hb.resolve_right fun e => e hst
    obtain ⟨s1, g1, e1, e2, e3, -⟩ := reorderReady_body h hord hlive hst h0 hp
    rw [show changeTaskPri cfg s (s.prio t) p = some s from if_pos hord, Option.bind_some]
    dsimp only
    rw [hst]
    dsimp only
    rw [e1, Option.bind_some, bind_pair]
    exact Or.inr ⟨s1, g1, _, _, rfl, e2, e3, Or.inr ⟨hle, h0, hpe, rfl⟩⟩
  | RUNNING =>
    obtain rfl := h.eq_of_running hlive hst
    obtain ⟨ho, he⟩ := h.coh.loc_of_running hlive hst
    have hloc : g.tcb.loc t ≠ some .rdy := by
      rw [ho]
      exact fun e => nomatch e
    obtain ⟨T, e1, e2⟩ := h.coh.setPrio hlive hloc hp
    rw [e1, Option.bind_some]
    dsimp only
    rw [show (s.setPriTable T).state t = .RUNNING from hst]
    dsimp only
    have hdat : (s.data g).setPrio t p = (s.reprio T t p).data g :=
      Data.setPrio_off _ (show (s.data g).evt.loc t = none from he)
    change Ends cfg s t (if prioOf cfg (s.reprio T t p) (s.reprio T t p).TCBRdy <
      (s.reprio T t p).prio t then _ else _) _
    by_cases hlt : prioOf cfg (s.reprio T t p) (s.reprio T t p).TCBRdy < (s.reprio T t p).prio t
    · rw [if_pos hlt, bind_pair]
      refine Or.inr ⟨_, g, _, (s.data g).setPrio t p, rfl, ⟨?_, rfl, Calm.refl _, ?_⟩, Calm.refl _,
        Or.inr ⟨hle, h0, hpe, rfl⟩⟩
      · exact ⟨e2.congr rfl, h.picked.live.1, h.running, h.picked.next, Nat.succ_pos _, Or.inl rfl,
          fun _ => h.ticks, h.idle⟩
      · rw [hdat]
        exact ⟨rfl, rfl, (fun _ => Iff.rfl), fun _ => Iff.rfl⟩
    · rw [if_neg hlt]
      refine Or.inl ⟨s.reprio T t p, g, _, rfl, h.move e2 rfl rfl rfl rfl rfl ?_, Calm.refl _,
        Or.inr ⟨hle, h0, hpe, hdat.symm⟩⟩
      -- the head of the ready list is no more urgent, and it is the most urgent one
      intro u hu
      have hut : u ≠ t := fun e => hloc (e ▸ (h.coh.rep.tcb.mem .rdy u).mp hu)
      have hhead : s.TCBRdy = (g.tcb.lst .rdy).head? := head_rdy h.coh.rep
      cases hl : g.tcb.lst .rdy with
      | nil =>
        rw [hl] at hu
        exact absurd hu List.not_mem_nil
      | cons x l =>
        rw [hl] at hhead hu
        have hsort := h.coh.rep.sorted
        rw [hl] at hsort
        have hxt : x ≠ t := by
          rintro rfl
          exact hloc ((h.coh.rep.tcb.mem .rdy x).mp (by rw [hl]; exact List.mem_cons_self))
        have hx : p ≤ s.prio x := by
          have := Nat.le_of_not_lt hlt
          rw [show (s.reprio T t p).TCBRdy = some x from hhead] at this
          change update s.prio t p t ≤ update s.prio t p x at this
          rwa [Function.update_self, Function.update_of_ne hxt] at this
        change update s.prio t p t ≤ update s.prio t p u
        rw [Function.update_self, Function.update_of_ne hut]
        rcases List.mem_cons.mp hu with rfl | hu'
        · exact hx
        · exact Nat.le_trans hx ((List.pairwise_cons.mp hsort).1 u hu')
  | WAITING =>
    obtain ⟨T, e1, e2⟩ := h.reprio hlive hst hp
    rw [e1, Option.bind_some]
    dsimp only
    rw [show (s.setPriTable T).state t = .WAITING from hst]
    dsimp only
    change Ends cfg s cur ((if (s.reprio T t p).eventID t ≠ INVALID_ID then
      reorderWaiting cfg (s.reprio T t p) t else some (s.reprio T t p)).bind _) _
    cases he : g.evt.loc t with
    | none =>
      have hid : ¬ (s.reprio T t p).eventID t ≠ INVALID_ID := by
        rw [show (s.reprio T t p).eventID t = s.eventID t from rfl, h.coh.eventID_iff hlive, he]
        exact fun e => nomatch e.choose_spec
      have hdat : (s.data g).setPrio t p = (s.reprio T t p).data g :=
        Data.setPrio_off _ (show (s.data g).evt.loc t = none from he)
      rw [if_neg hid]
      exact Or.inl ⟨_, g, _, rfl, e2, Calm.refl _, Or.inr ⟨hle, h0, hpe, hdat.symm⟩⟩
    | some e =>
      have hid : (s.reprio T t p).eventID t ≠ INVALID_ID := (h.coh.eventID_iff hlive).mpr ⟨e, he⟩
      rw [if_pos hid]
      by_cases hs : s.eventSortType e = sortPrio
      · obtain ⟨s1, g1, f1, f2, f3⟩ := reorderWaiting_body e2 hlive h0 he hs
        rw [f1, bind_pair]
        refine Or.inr ⟨s1, g1, _, _, rfl, ⟨f2.pend, f2.lock, f2.calm, f2.data⟩, f3,
          Or.inr ⟨hle, h0, hpe, ?_⟩⟩
        unfold Data.setPrio
        rw [show (s.data g).evt.loc t = some e from he]
        dsimp only
        rw [if_pos (show (s.data g).aside.eventSortType e = sortPrio from hs)]
        rfl
      · have hid' : (s.reprio T t p).eventID t = e := by
          have := (h.coh.task t hlive).ev
          rw [he] at this
          exact this
        have hcode : reorderWaiting cfg (s.reprio T t p) t = some (s.reprio T t p) := by
          unfold reorderWaiting
          dsimp only
          rw [hid']
          exact if_neg hs
        rw [hcode, Option.bind_some]
        refine Or.inl ⟨_, g, _, rfl, e2, Calm.refl _, Or.inr ⟨hle, h0, hpe, ?_⟩⟩
        unfold Data.setPrio
        rw [show (s.data g).evt.loc t = some e from he]
        dsimp only
        rw [if_neg (show ¬ (s.data g).aside.eventSortType e = sortPrio from hs)]
        rfl
  | DORMANT => exact absurd hst hd

end Priority

end CoOS
