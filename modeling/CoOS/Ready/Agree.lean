/-
  The two builds of the ready list agree.

  A run creates tasks, takes ready tasks out of the ready list, puts them back and deletes
  them; no priority changes after creation. `runOps cfg s ops` is such a run in the build
  `cfg`. Proved: the binary-scheduling build and the ordered-list build of one configuration
  have the same `TCBRdy`, the same links and the same `TaskSchedReq` after every run, hence
  after every step of one (`ready_builds_agree`).

  The relation carried along is `Agree`: equal links and priorities, and a priority table of
  the binary build that fits the ready list.
-/
import Mathlib.Data.Finset.Card
import Mathlib.Data.Finset.Range
import CoOS.Ready.Order

namespace CoOS

open Function (update)
open DList KeyOrder

/-! ## Runs -/

inductive ReadyOp where
  | create (t prio : Nat)
  | remove (t : Nat)
  | reinsert (t : Nat)
  | delete (t : Nat)
  | schedDone
  deriving DecidableEq, Repr

/-- The configuration with `CFG_ORDER_LIST_SCHEDULE_EN` set to `b`. -/
def Env.build (cfg : Env) (b : Bool) : Env := { cfg with orderListScheduleEn := b }

/-- The part of `CreateTask`, `CoSuspendTask`, `CoAwakeTask` and `CoDelTask` that concerns the
    ready list; `schedDone` is the reset of `TaskSchedReq` in `Schedule`. -/
def ReadyOp.run (cfg : Env) (s : Kernel) : ReadyOp → Option Kernel
  | .create t prio => do
    let s := { s with
      prio := update s.prio t prio
      TCBnext := update s.TCBnext t none
      TCBprev := update s.TCBprev t none }
    let s ← if cfg.orderListScheduleEn then some s else activeTaskPri s prio
    insertToTCBRdyList cfg s t
  | .remove t => do
    let s ← removeFromTCBRdyList cfg s t
    some { s with state := update s.state t .WAITING }
  | .reinsert t => insertToTCBRdyList cfg s t
  | .delete t => do
    let s ← if s.state t = .READY then removeFromTCBRdyList cfg s t else some s
    let s := { s with state := update s.state t .DORMANT }
    if cfg.orderListScheduleEn then some s else deleteTaskPri s (s.prio t)
  | .schedDone => some { s with TaskSchedReq := false }

def runOps (cfg : Env) (s : Kernel) : List ReadyOp → Option Kernel
  | [] => some s
  | op :: ops => do
    let s ← op.run cfg s
    runOps cfg s ops

/-- Where a task is. -/
inductive Place where
  | absent | ready | removed
  deriving DecidableEq, Repr

/-- The operations that a caller may issue. A priority is a byte. -/
def Legal (n : Nat) (place : Nat → Place) : ReadyOp → Prop
  | .create t prio => t < n ∧ prio < 256 ∧ place t = .absent
  | .remove t => place t = .ready
  | .reinsert t => place t = .removed
  | .delete t => place t ≠ .absent
  | .schedDone => True

instance (n : Nat) (place : Nat → Place) : (op : ReadyOp) → Decidable (Legal n place op)
  | .create _ _ => inferInstanceAs (Decidable (_ ∧ _))
  | .remove _ => inferInstanceAs (Decidable (_ = _))
  | .reinsert _ => inferInstanceAs (Decidable (_ = _))
  | .delete _ => inferInstanceAs (Decidable (_ ≠ _))
  | .schedDone => inferInstanceAs (Decidable True)

def Place.after (place : Nat → Place) : ReadyOp → Nat → Place
  | .create t _ => update place t .ready
  | .remove t => update place t .removed
  | .reinsert t => update place t .ready
  | .delete t => update place t .absent
  | .schedDone => place

def LegalOps (n : Nat) (place : Nat → Place) : List ReadyOp → Prop
  | [] => True
  | op :: ops => Legal n place op ∧ LegalOps n (Place.after place op) ops

instance decLegalOps (n : Nat) : (ops : List ReadyOp) → (place : Nat → Place) →
    Decidable (LegalOps n place ops)
  | [], _ => inferInstanceAs (Decidable True)
  | _ :: ops, _ =>
    have := decLegalOps n ops
    inferInstanceAs (Decidable (_ ∧ _))

/-- The places of the tasks after a run. -/
def Place.afterOps (place : Nat → Place) : List ReadyOp → Nat → Place
  | [] => place
  | op :: ops => Place.afterOps (Place.after place op) ops

/-! ## Counting the tasks of a priority -/

/-- The number of tasks of priority `p` that exist. -/
def liveCount (n : Nat) (place : Nat → Place) (prio : Nat → Nat) (p : Nat) : Nat :=
  ((Finset.range n).filter fun u => place u ≠ .absent ∧ prio u = p).card

section Count

variable {n t p0 : Nat} {place : Nat → Place} {prio : Nat → Nat}

theorem liveCount_le (p : Nat) : liveCount n place prio p ≤ n := by
  have := Finset.card_filter_le (Finset.range n) fun u => place u ≠ .absent ∧ prio u = p
  rwa [Finset.card_range] at this

theorem liveCount_pos {p : Nat} :
    0 < liveCount n place prio p ↔ ∃ u, u < n ∧ place u ≠ .absent ∧ prio u = p := by
  unfold liveCount
  rw [Finset.card_pos]
  constructor
  · intro h
    obtain ⟨u, hu⟩ := h
    simp only [Finset.mem_filter, Finset.mem_range] at hu
    exact ⟨u, hu⟩
  · intro h
    obtain ⟨u, hu⟩ := h
    exact ⟨u, by simpa using hu⟩

/-- Tasks that stay in existence keep the counts. -/
theorem liveCount_congr {place' : Nat → Place} (h : ∀ u, place' u = .absent ↔ place u = .absent) :
    liveCount n place' prio = liveCount n place prio := by
  funext p
  unfold liveCount
  congr 1
  refine Finset.filter_congr fun u _ => ?_
  rw [Ne, h u]

theorem liveCount_create {pl : Place} (ht : t < n) (hpl : place t = .absent)
    (hne : pl ≠ .absent) : liveCount n (update place t pl) (update prio t p0) =
      update (liveCount n place prio) p0 (liveCount n place prio p0 + 1) := by
  funext p
  -- the tasks other than `t` are counted as before
  have hrest : ∀ u, u ≠ t → (update place t pl u ≠ .absent ∧ update prio t p0 u = p ↔
      place u ≠ .absent ∧ prio u = p) := by
    intro u hu
    rw [Function.update_of_ne hu, Function.update_of_ne hu]
  by_cases hp : p = p0
  · rw [hp] at hrest ⊢
    rw [Function.update_self]
    unfold liveCount
    rw [← Finset.card_insert_of_notMem (a := t) (by simp [hpl])]
    congr 1
    ext u
    simp only [Finset.mem_filter, Finset.mem_range, Finset.mem_insert]
    by_cases hu : u = t
    · simp [hu, ht, hne]
    · simp only [hu, false_or, hrest u hu]
  · rw [Function.update_of_ne hp]
    unfold liveCount
    congr 1
    refine Finset.filter_congr fun u _ => ?_
    by_cases hu : u = t
    · rw [hu, Function.update_self, Function.update_self]
      simp [hpl, Ne.symm hp]
    · exact hrest u hu

theorem liveCount_delete (ht : t < n) (hpl : place t ≠ .absent) :
    liveCount n (update place t .absent) prio =
      update (liveCount n place prio) (prio t) (liveCount n place prio (prio t) - 1) := by
  -- creating `t` again undoes the deletion
  have key : liveCount n (update (update place t .absent) t (place t)) (update prio t (prio t)) =
      _ := liveCount_create ht (Function.update_self ..) hpl
  rw [Function.update_idem, Function.update_eq_self, Function.update_eq_self] at key
  rw [key]
  funext p
  by_cases hp : p = prio t
  · simp [hp]
  · simp [hp]

end Count

/-! ## Agreement -/

/-- Two states with the same ready list, priorities and request. -/
structure SameReady (sb so : Kernel) : Prop where
  links : so.rdyLinks = sb.rdyLinks
  prio : so.prio = sb.prio
  state : so.state = sb.state
  req : so.TaskSchedReq = sb.TaskSchedReq

/-- The binary build in state `sb` and the ordered-list build in state `so` agree on the ready
    list `rdy`, and the table of `sb` fits it. -/
structure Agree (cfg : Env) (place : Nat → Place) (sb so : Kernel) (rdy : List Nat) : Prop where
  same : SameReady sb so
  ready : Ready (cfg.build false) sb rdy
  indexed : Indexed sb (liveCount cfg.tasks place sb.prio) rdy
  mem : ∀ t, t ∈ rdy ↔ place t = .ready
  isReady : ∀ t, place t = .ready → sb.state t = .READY
  removed : ∀ t, place t = .removed →
    sb.state t = .WAITING ∧ sb.TCBnext t = none ∧ sb.TCBprev t = none
  live : ∀ t, place t ≠ .absent → t < cfg.tasks ∧ sb.prio t < 256

theorem lastWith_congr {α : Type} {key key' : α → Nat} {l : List α}
    (h : ∀ a ∈ l, key' a = key a) (p : Nat) : lastWith key' l p = lastWith key l p := by
  unfold lastWith
  rw [List.filter_congr fun a ha => by rw [h a ha]]

section Step

variable {cfg : Env} {place : Nat → Place} {sb so : Kernel} {rdy : List Nat} {t : Nat}
  {cnt : Nat → Nat}

/-- Where both builds start: no ready task and an empty table. -/
theorem agree_start {s : Kernel} (hr : s.TCBRdy = none) (hn : s.PriNum = 0) :
    Agree cfg (fun _ => .absent) s s [] := by
  have hcnt : ∀ p, ¬ 0 < liveCount cfg.tasks (fun _ => .absent) s.prio p := by
    intro p hp
    obtain ⟨u, -, hu, -⟩ := liveCount_pos.mp hp
    exact hu rfl
  refine ⟨⟨rfl, rfl, rfl, rfl⟩, ⟨isDList_nil hr, List.Pairwise.nil, by simp⟩,
    ⟨⟨?_, ?_, ?_, ?_, ?_, ?_⟩, by simp, fun p hp => absurd hp (hcnt p)⟩, by simp, by simp,
    by simp, by simp⟩
  · intro i j _ hj
    omega
  · intro i hi
    omega
  · intro i hi
    omega
  · intro p hp
    exact absurd hp (hcnt p)
  · intro i hi
    omega
  · intro i hi
    omega

/-- The ready list seen from the ordered-list build. -/
theorem SameReady.ready (h : SameReady sb so) (hr : Ready (cfg.build false) sb rdy) :
    Ready (cfg.build true) so rdy := by
  refine ⟨?_, ?_, hr.lt⟩
  · rw [h.links]
    exact hr.links
  · rw [h.prio]
    exact hr.sorted

/-- **InsertToTCBRdyList** in both builds. -/
theorem insert_same (h : SameReady sb so) (hr : Ready (cfg.build false) sb rdy)
    (hx : Indexed sb cnt rdy) (ht : t < cfg.tasks) (hc : 0 < cnt (sb.prio t)) (hmem : t ∉ rdy)
    (hn : sb.TCBnext t = none) (hp : sb.TCBprev t = none) :
    ∃ sb' so', insertToTCBRdyList (cfg.build false) sb t = some sb' ∧
      insertToTCBRdyList (cfg.build true) so t = some so' ∧ SameReady sb' so' ∧
      Ready (cfg.build false) sb' (insertKey sb.prio t rdy) ∧
      Indexed sb' cnt (insertKey sb.prio t rdy) ∧ sb'.prio = sb.prio ∧
      sb'.state = update sb.state t .READY ∧
      ∀ a, a ∉ rdy → a ≠ t → sb'.TCBnext a = sb.TCBnext a ∧ sb'.TCBprev a = sb.TCBprev a := by
  obtain ⟨T, ct, h1, h2⟩ := insertToTCBRdyList_eq hr (fun _ => hx) ht hc
  obtain ⟨T', ct', h3, -⟩ := insertToTCBRdyList_eq (h.ready hr)
    (@fits_ordered (cfg.build true) so rdy (fun _ => 1) rfl) ht Nat.one_pos
  have hpl : rdyPlace so rdy t = rdyPlace sb rdy t := by
    unfold rdyPlace
    rw [h.prio]
  refine ⟨_, _, h1, h3, ⟨?_, h.prio, ?_, ?_⟩,
    hr.readied ht (isDList_linkAfter hr hmem hn hp), ?_, rfl, rfl, fun a => linkAfter_frame hr⟩
  · change linkAfter so.rdyLinks (rdyPlace so rdy t) t = linkAfter sb.rdyLinks (rdyPlace sb rdy t) t
    rw [hpl, h.links]
  · change update so.state t .READY = update sb.state t .READY
    rw [h.state]
  · change (so.TaskSchedReq || _) = (sb.TaskSchedReq || _)
    rw [h.req, hpl]
  · refine ⟨(h2 rfl).congr rfl rfl rfl rfl rfl, ?_, hx.byte⟩
    intro u hu
    rcases mem_insertKey.mp hu with rfl | hu
    · exact hc
    · exact hx.pos u hu

/-- **RemoveFromTCBRdyList** in both builds. -/
theorem remove_same {l1 l2 : List Nat} (h : SameReady sb so)
    (hr : Ready (cfg.build false) sb (l1 ++ t :: l2)) (hx : Indexed sb cnt (l1 ++ t :: l2)) :
    ∃ sb' so', removeFromTCBRdyList (cfg.build false) sb t = some sb' ∧
      removeFromTCBRdyList (cfg.build true) so t = some so' ∧ SameReady sb' so' ∧
      Ready (cfg.build false) sb' (l1 ++ l2) ∧ Indexed sb' cnt (l1 ++ l2) ∧
      sb'.prio = sb.prio ∧ sb'.state = sb.state ∧
      (sb'.TCBnext t = none ∧ sb'.TCBprev t = none) ∧
      ∀ a, a ∉ l1 ++ t :: l2 → sb'.TCBnext a = sb.TCBnext a ∧ sb'.TCBprev a = sb.TCBprev a := by
  obtain ⟨T, h1, h2⟩ := removeFromTCBRdyList_spec hr (fun _ => hx)
  obtain ⟨T', h3, -⟩ :=
    removeFromTCBRdyList_spec (h.ready hr) (@fits_ordered (cfg.build true) so _ cnt rfl)
  refine ⟨_, _, h1, h3, ⟨?_, h.prio, h.state, h.req⟩, hr.unreadied, (h2 rfl).congr rfl rfl, rfl,
    rfl, unlink_links hr.links, fun a ha => unlink_frame hr.links ha⟩
  change so.rdyLinks.unlink t = sb.rdyLinks.unlink t
  rw [h.links]

/-- The step of `Agree` for an operation. -/
def StepAgrees (cfg : Env) (place : Nat → Place) (sb so : Kernel) (op : ReadyOp) : Prop :=
  ∃ sb' so' rdy', op.run (cfg.build false) sb = some sb' ∧ op.run (cfg.build true) so = some so' ∧
    Agree cfg (Place.after place op) sb' so' rdy'

/-- Both builds put a task without links into the ready list. -/
theorem agree_insert (h : SameReady sb so) (hr : Ready (cfg.build false) sb rdy)
    (hx : Indexed sb (liveCount cfg.tasks (update place t .ready) sb.prio) rdy)
    (ht : t < cfg.tasks) (hlt : sb.prio t < 256) (hmem : t ∉ rdy) (hn : sb.TCBnext t = none)
    (hp : sb.TCBprev t = none) (hrdy : ∀ u, u ≠ t → (u ∈ rdy ↔ place u = .ready))
    (hst : ∀ u, u ≠ t → place u = .ready → sb.state u = .READY)
    (hrem : ∀ u, u ≠ t → place u = .removed →
      sb.state u = .WAITING ∧ sb.TCBnext u = none ∧ sb.TCBprev u = none)
    (hlive : ∀ u, u ≠ t → place u ≠ .absent → u < cfg.tasks ∧ sb.prio u < 256) :
    ∃ sb' so' rdy', insertToTCBRdyList (cfg.build false) sb t = some sb' ∧
      insertToTCBRdyList (cfg.build true) so t = some so' ∧
      Agree cfg (update place t .ready) sb' so' rdy' := by
  have hc : 0 < liveCount cfg.tasks (update place t .ready) sb.prio (sb.prio t) :=
    liveCount_pos.mpr ⟨t, ht, by simp, rfl⟩
  obtain ⟨sb', so', h1, h2, hs, hr', hx', hpr, hstate, hfr⟩ := insert_same h hr hx ht hc hmem hn hp
  refine ⟨sb', so', _, h1, h2, hs, hr', by rw [hpr]; exact hx', ?_, ?_, ?_, ?_⟩
  · intro u
    rw [mem_insertKey]
    by_cases hu : u = t
    · simp [hu]
    · rw [Function.update_of_ne hu, ← hrdy u hu]
      simp [hu]
  · intro u hu
    rw [hstate]
    by_cases hut : u = t
    · rw [hut, Function.update_self]
    · rw [Function.update_of_ne hut] at hu ⊢
      exact hst u hut hu
  · intro u hu
    have hut : u ≠ t := by
      intro e
      rw [e, Function.update_self] at hu
      exact nomatch hu
    rw [Function.update_of_ne hut] at hu
    have hur : u ∉ rdy := fun e => by
      rw [(hrdy u hut).mp e] at hu
      exact nomatch hu
    obtain ⟨e1, e2⟩ := hfr u hur hut
    rw [hstate, Function.update_of_ne hut, e1, e2]
    exact hrem u hut hu
  · intro u hu
    rw [hpr]
    by_cases hut : u = t
    · rw [hut]
      exact ⟨ht, hlt⟩
    · rw [Function.update_of_ne hut] at hu
      exact hlive u hut hu

/-- The table gets one task more: `t`, of priority `p0`. -/
theorem activeTaskPri_agree {place : Nat → Place} {s s0 : Kernel} {p0 : Nat} {pl : Place}
    (hx : Indexed s (liveCount cfg.tasks place s.prio) rdy) (ht : t < cfg.tasks) (hlt : p0 < 256)
    (hpl : place t = .absent) (hne : pl ≠ .absent)
    (hrdy : ∀ u ∈ rdy, u < cfg.tasks ∧ u ≠ t ∧ place u ≠ .absent)
    (hs0 : s0.priTable = s.priTable) :
    ∃ T, activeTaskPri s0 p0 = some (s0.setPriTable T) ∧
      ∀ s1 : Kernel, s1.priTable = T → s1.prio = update s.prio t p0 →
        Indexed s1 (liveCount cfg.tasks (update place t pl) s1.prio) rdy := by
  simp only [Kernel.priTable, PriTable.mk.injEq] at hs0
  obtain ⟨e1, e2, e3, e4, e5⟩ := hs0
  have htab : TableOk s0 (liveCount cfg.tasks place s.prio) (lastReady s.prio rdy) :=
    hx.table.congr e1 e2 e3 e4 e5
  have hnone : liveCount cfg.tasks place s.prio p0 = 0 → lastReady s.prio rdy p0 = INVALID_ID := by
    intro h0
    unfold lastReady
    cases hl : lastWith s.prio rdy p0 with
    | none => rfl
    | some u =>
      obtain ⟨hu, hup⟩ := lastWith_mem hl
      have := hx.pos u hu
      rw [hup, h0] at this
      exact absurd this (Nat.lt_irrefl 0)
  have hle : liveCount cfg.tasks place s.prio p0 + 1 < 256 := by
    have := @liveCount_le cfg.tasks place s.prio p0
    have := tasks_le cfg
    omega
  obtain ⟨T, hT, hTok⟩ := activeTaskPri_spec htab hnone hle
  refine ⟨T, hT, fun s1 hs1 hp1 => ?_⟩
  have hupd : ∀ u, u ≠ t → s1.prio u = s.prio u := by
    intro u hu
    rw [hp1]
    exact Function.update_of_ne hu ..
  have hlast : lastReady s1.prio rdy = lastReady s.prio rdy := by
    funext p
    unfold lastReady
    rw [lastWith_congr fun u hu => hupd u (hrdy u hu).2.1]
  refine ⟨?_, ?_, ?_⟩
  · rw [hlast, hp1, liveCount_create ht hpl hne]
    rw [← hs1] at hTok
    exact hTok.congr rfl rfl rfl rfl rfl
  · intro u hu
    obtain ⟨h1, h2, h3⟩ := hrdy u hu
    refine liveCount_pos.mpr ⟨u, h1, ?_, rfl⟩
    rwa [Function.update_of_ne h2]
  · intro p hp
    obtain ⟨u, hun, hu, rfl⟩ := liveCount_pos.mp hp
    by_cases hut : u = t
    · rw [hut, hp1, Function.update_self]
      exact hlt
    · rw [Function.update_of_ne hut] at hu
      rw [hupd u hut]
      exact hx.byte _ (liveCount_pos.mpr ⟨u, hun, hu, rfl⟩)

/-- The table loses one task of the priority of `t`, which is not ready. -/
theorem deleteTaskPri_agree {place : Nat → Place} {s : Kernel} (hx : Indexed s cnt rdy)
    (hcnt : cnt = liveCount cfg.tasks place s.prio) (ht : t < cfg.tasks)
    (hpl : place t ≠ .absent) (hrdy : ∀ u ∈ rdy, u < cfg.tasks ∧ u ≠ t ∧ place u ≠ .absent) :
    ∃ T, deleteTaskPri s (s.prio t) = some (s.setPriTable T) ∧
      Indexed (s.setPriTable T) (liveCount cfg.tasks (update place t .absent) s.prio) rdy := by
  have hpos : 0 < cnt (s.prio t) := by
    rw [hcnt]
    exact liveCount_pos.mpr ⟨t, ht, hpl, rfl⟩
  have hlt : cnt (s.prio t) < 256 := by
    have := @liveCount_le cfg.tasks place s.prio (s.prio t)
    have := tasks_le cfg
    rw [hcnt]
    omega
  obtain ⟨T, h1, h2⟩ := deleteTaskPri_spec hx.table hpos hlt
  refine ⟨T, h1, ?_, ?_, ?_⟩
  · rw [liveCount_delete ht hpl, ← hcnt]
    exact h2
  · intro u hu
    obtain ⟨e1, e2, e3⟩ := hrdy u hu
    exact liveCount_pos.mpr ⟨u, e1, by rwa [Function.update_of_ne e2], rfl⟩
  · intro p hp
    obtain ⟨u, hu, hpu, he⟩ := liveCount_pos.mp hp
    refine hx.byte p ?_
    rw [hcnt]
    refine liveCount_pos.mpr ⟨u, hu, ?_, he⟩
    intro e
    by_cases hut : u = t
    · exact hpl (hut ▸ e)
    · rw [Function.update_of_ne hut] at hpu
      exact hpu e

theorem agree_create (h : Agree cfg place sb so rdy) {prio : Nat} (ht : t < cfg.tasks)
    (hlt : prio < 256) (hpl : place t = .absent) :
    StepAgrees cfg place sb so (.create t prio) := by
  have hmem : t ∉ rdy := by
    rw [h.mem t, hpl]
    exact fun e => nomatch e
  have hne : ∀ u ∈ rdy, u ≠ t := fun u hu e => hmem (e ▸ hu)
  let sb0 : Kernel := { sb with
    prio := update sb.prio t prio
    TCBnext := update sb.TCBnext t none
    TCBprev := update sb.TCBprev t none }
  have hprio : ∀ u ∈ rdy, sb0.prio u = sb.prio u := fun u hu => Function.update_of_ne (hne u hu) ..
  have hr0 : Ready (cfg.build false) sb0 rdy := h.ready.congr rfl
    (fun u hu => ⟨Function.update_of_ne (hne u hu) .., Function.update_of_ne (hne u hu) ..⟩) hprio
  have hrdy : ∀ u ∈ rdy, u < cfg.tasks ∧ u ≠ t ∧ place u ≠ .absent := by
    intro u hu
    refine ⟨h.ready.lt u hu, hne u hu, ?_⟩
    rw [(h.mem u).mp hu]
    exact fun e => nomatch e
  obtain ⟨T, hT, hTok⟩ :=
    @activeTaskPri_agree cfg rdy t place sb sb0 prio .ready h.indexed ht hlt hpl
    (by decide) hrdy rfl
  have hx1 : Indexed (sb0.setPriTable T)
      (liveCount cfg.tasks (update place t .ready) (update sb.prio t prio)) rdy :=
    hTok (sb0.setPriTable T) rfl rfl
  let so0 : Kernel := { so with
    prio := update so.prio t prio
    TCBnext := update so.TCBnext t none
    TCBprev := update so.TCBprev t none }
  have hl := h.same.links
  simp only [Kernel.rdyLinks, Links.mk.injEq] at hl
  have hsame : SameReady (sb0.setPriTable T) so0 := by
    refine ⟨?_, ?_, h.same.state, h.same.req⟩
    · change Links.mk so.TCBRdy (update so.TCBnext t none) (update so.TCBprev t none) =
        Links.mk sb.TCBRdy (update sb.TCBnext t none) (update sb.TCBprev t none)
      rw [hl.1, hl.2.1, hl.2.2]
    · change update so.prio t prio = update sb.prio t prio
      rw [h.same.prio]
  have ht0 : (sb0.setPriTable T).prio t = prio := Function.update_self ..
  have hupd : ∀ u, u ≠ t → (sb0.setPriTable T).prio u = sb.prio u := fun u hu =>
    Function.update_of_ne hu ..
  have hrem : ∀ u, u ≠ t → place u = .removed → sb.state u = .WAITING ∧
      sb0.TCBnext u = none ∧ sb0.TCBprev u = none := by
    intro u hu hpu
    obtain ⟨e1, e2, e3⟩ := h.removed u hpu
    exact ⟨e1, (Function.update_of_ne hu ..).trans e2, (Function.update_of_ne hu ..).trans e3⟩
  have hlive : ∀ u, u ≠ t → place u ≠ .absent →
      u < cfg.tasks ∧ (sb0.setPriTable T).prio u < 256 := by
    intro u hu hpu
    rw [hupd u hu]
    exact h.live u hpu
  obtain ⟨sb', so', rdy', h1, h2, h3⟩ := agree_insert hsame ⟨hr0.links, hr0.sorted, hr0.lt⟩ hx1 ht
    (by rw [ht0]; exact hlt) hmem (Function.update_self ..) (Function.update_self ..)
    (fun u _ => h.mem u) (fun u _ => h.isReady u) hrem hlive
  refine ⟨sb', so', rdy', ?_, h2, h3⟩
  change (activeTaskPri sb0 prio).bind _ = _
  rw [hT]
  exact h1

theorem agree_reinsert (h : Agree cfg place sb so rdy) (hpl : place t = .removed) :
    StepAgrees cfg place sb so (.reinsert t) := by
  obtain ⟨-, hn, hp⟩ := h.removed t hpl
  obtain ⟨ht, hlt⟩ := h.live t (by rw [hpl]; exact fun e => nomatch e)
  have hcnt : liveCount cfg.tasks (update place t .ready) sb.prio =
      liveCount cfg.tasks place sb.prio := by
    refine liveCount_congr fun u => ?_
    by_cases hu : u = t
    · simp [hu, hpl]
    · rw [Function.update_of_ne hu]
  exact agree_insert h.same h.ready (by rw [hcnt]; exact h.indexed) ht hlt
    (by rw [h.mem t, hpl]; exact fun e => nomatch e) hn hp (fun u _ => h.mem u)
    (fun u _ => h.isReady u) (fun u _ => h.removed u) (fun u _ => h.live u)

/-- The ready list without `t`, in a state that has just removed it. -/
theorem agree_removed {pl : Place} {l1 l2 : List Nat} {sb' so' : Kernel} {w : TaskState}
    (h : Agree cfg place sb so (l1 ++ t :: l2)) (hpl : pl ≠ .ready)
    (hs : SameReady sb' so') (hr : Ready (cfg.build false) sb' (l1 ++ l2))
    (hx : Indexed sb' (liveCount cfg.tasks (update place t pl) sb'.prio) (l1 ++ l2))
    (hpr : sb'.prio = sb.prio) (hst : sb'.state = update sb.state t w)
    (hlk : sb'.TCBnext t = none ∧ sb'.TCBprev t = none)
    (hfr : ∀ a, a ∉ l1 ++ t :: l2 → sb'.TCBnext a = sb.TCBnext a ∧ sb'.TCBprev a = sb.TCBprev a)
    (hrem : pl = .removed → w = .WAITING) : Agree cfg (update place t pl) sb' so' (l1 ++ l2) := by
  have hnd := h.ready.links.nodup
  have htl : t ∉ l1 ++ l2 := by
    rw [List.mem_append, not_or]
    exact ⟨nodup_split_left hnd, nodup_split_right hnd⟩
  refine ⟨hs, hr, hx, ?_, ?_, ?_, ?_⟩
  · intro u
    by_cases hu : u = t
    · rw [hu, Function.update_self]
      exact ⟨fun e => absurd e htl, fun e => absurd e hpl⟩
    · rw [Function.update_of_ne hu, ← h.mem u]
      simp [hu]
  · intro u hu
    have hut : u ≠ t := by
      intro e
      rw [e, Function.update_self] at hu
      exact hpl hu
    rw [Function.update_of_ne hut] at hu
    rw [hst, Function.update_of_ne hut]
    exact h.isReady u hu
  · intro u hu
    by_cases hut : u = t
    · rw [hut, Function.update_self] at hu
      rw [hst, hut, Function.update_self]
      exact ⟨hrem hu, hlk⟩
    · rw [Function.update_of_ne hut] at hu
      have hur : u ∉ l1 ++ t :: l2 := by
        rw [h.mem u, hu]
        exact fun e => nomatch e
      rw [hst, Function.update_of_ne hut, (hfr u hur).1, (hfr u hur).2]
      exact h.removed u hu
  · intro u hu
    rw [hpr]
    by_cases hut : u = t
    · refine h.live u ?_
      rw [hut, (h.mem t).mp (by simp)]
      exact fun e => nomatch e
    · rw [Function.update_of_ne hut] at hu
      exact h.live u hu

theorem agree_remove (h : Agree cfg place sb so rdy) (hpl : place t = .ready) :
    StepAgrees cfg place sb so (.remove t) := by
  obtain ⟨l1, l2, rfl⟩ := List.append_of_mem ((h.mem t).mpr hpl)
  obtain ⟨sb', so', h1, h2, hs, hr, hx, hpr, hst, hlk, hfr⟩ := remove_same h.same h.ready h.indexed
  refine ⟨{ sb' with state := update sb'.state t .WAITING },
    { so' with state := update so'.state t .WAITING }, l1 ++ l2, ?_, ?_, ?_⟩
  · simp only [ReadyOp.run, h1, Option.bind_eq_bind, Option.bind_some]
  · simp only [ReadyOp.run, h2, Option.bind_eq_bind, Option.bind_some]
  · have hcnt : liveCount cfg.tasks (update place t .removed) sb'.prio =
        liveCount cfg.tasks place sb.prio := by
      rw [hpr]
      refine liveCount_congr fun u => ?_
      by_cases hu : u = t
      · simp [hu, hpl]
      · rw [Function.update_of_ne hu]
    refine agree_removed (w := .WAITING) h (by decide) ⟨hs.links, hs.prio, ?_, hs.req⟩
      ⟨hr.links, hr.sorted, hr.lt⟩ ?_ hpr ?_ hlk hfr (fun _ => rfl)
    · change update so'.state t .WAITING = update sb'.state t .WAITING
      rw [hs.state]
    · change Indexed _ (liveCount cfg.tasks (update place t .removed) sb'.prio) _
      rw [hcnt]
      exact hx.congr rfl rfl
    · change update sb'.state t .WAITING = _
      rw [hst]

theorem agree_delete (h : Agree cfg place sb so rdy) (hpl : place t ≠ .absent) :
    StepAgrees cfg place sb so (.delete t) := by
  obtain ⟨ht, -⟩ := h.live t hpl
  have hlive : ∀ u ∈ rdy, place u ≠ .absent := by
    intro u hu
    rw [(h.mem u).mp hu]
    exact fun e => nomatch e
  by_cases hrd : place t = .ready
  · obtain ⟨l1, l2, rfl⟩ := List.append_of_mem ((h.mem t).mpr hrd)
    have hnd := h.ready.links.nodup
    obtain ⟨sb', so', h1, h2, hs, hr, hx, hpr, hst, hlk, hfr⟩ :=
      remove_same h.same h.ready h.indexed
    obtain ⟨T, hT, hxT⟩ := @deleteTaskPri_agree cfg _ t _ place
      { sb' with state := update sb'.state t .DORMANT } (hx.congr rfl rfl)
      (by rw [← hpr]) ht hpl (by
        intro u hu
        have hu' : u ∈ l1 ++ t :: l2 := by
          rcases List.mem_append.mp hu with hu | hu
          · exact List.mem_append_left _ hu
          · exact List.mem_append_right _ (List.mem_cons_of_mem _ hu)
        refine ⟨hr.lt u hu, ?_, hlive u hu'⟩
        rintro rfl
        rcases List.mem_append.mp hu with hu | hu
        · exact nodup_split_left hnd hu
        · exact nodup_split_right hnd hu)
    have hsb : sb.state t = .READY := h.isReady t hrd
    have hso : so.state t = .READY := by rw [h.same.state, hsb]
    refine ⟨Kernel.setPriTable { sb' with state := update sb'.state t .DORMANT } T,
      { so' with state := update so'.state t .DORMANT }, l1 ++ l2, ?_, ?_, ?_⟩
    · simp only [ReadyOp.run, hsb, if_true, h1, Option.bind_eq_bind, Option.bind_some]
      exact hT
    · simp only [ReadyOp.run, hso, if_true, h2, Option.bind_eq_bind, Option.bind_some]
      rfl
    · refine agree_removed (w := .DORMANT) h (by decide) ⟨hs.links, hs.prio, ?_, hs.req⟩
        ⟨hr.links, hr.sorted, hr.lt⟩ hxT hpr ?_ hlk hfr (fun e => nomatch e)
      · change update so'.state t .DORMANT = update sb'.state t .DORMANT
        rw [hs.state]
      · change update sb'.state t .DORMANT = _
        rw [hst]
  · have hrm : place t = .removed := by
      cases hp : place t with
      | absent => exact absurd hp hpl
      | ready => exact absurd hp hrd
      | removed => rfl
    have htl : t ∉ rdy := fun e => hrd ((h.mem t).mp e)
    obtain ⟨T, hT, hxT⟩ := @deleteTaskPri_agree cfg _ t _ place
      { sb with state := update sb.state t .DORMANT } (h.indexed.congr rfl rfl) rfl ht hpl
      (fun u hu => ⟨h.ready.lt u hu, fun e => htl (e ▸ hu), hlive u hu⟩)
    obtain ⟨hsb, -⟩ := h.removed t hrm
    have hso : so.state t = .WAITING := by rw [h.same.state, hsb]
    refine ⟨Kernel.setPriTable { sb with state := update sb.state t .DORMANT } T,
      { so with state := update so.state t .DORMANT }, rdy, ?_, ?_, ?_⟩
    · simp only [ReadyOp.run, hsb, reduceCtorEq, if_false, Option.bind_eq_bind, Option.bind_some]
      exact hT
    · simp only [ReadyOp.run, hso, reduceCtorEq, if_false, Option.bind_eq_bind, Option.bind_some]
      rfl
    · have hstay : ∀ u, Place.after place (.delete t) u ≠ .absent → u ≠ t ∧ place u ≠ .absent ∧
          Place.after place (.delete t) u = place u := by
        intro u hu
        have hut : u ≠ t := by
          intro e
          rw [e] at hu
          exact hu (Function.update_self ..)
        have e : Place.after place (.delete t) u = place u := Function.update_of_ne hut ..
        exact ⟨hut, e ▸ hu, e⟩
      refine ⟨⟨h.same.links, h.same.prio, ?_, h.same.req⟩,
        ⟨h.ready.links, h.ready.sorted, h.ready.lt⟩, hxT, ?_, ?_, ?_, ?_⟩
      · change update so.state t .DORMANT = update sb.state t .DORMANT
        rw [h.same.state]
      · intro u
        by_cases hut : u = t
        · rw [hut]
          refine ⟨fun e => absurd e htl, fun e => ?_⟩
          rw [show Place.after place (.delete t) t = .absent from Function.update_self ..] at e
          exact nomatch e
        · rw [show Place.after place (.delete t) u = place u from Function.update_of_ne hut ..]
          exact h.mem u
      · intro u hu
        obtain ⟨hut, -, e⟩ := hstay u (by rw [hu]; exact fun e => nomatch e)
        exact (Function.update_of_ne hut ..).trans (h.isReady u (e ▸ hu))
      · intro u hu
        obtain ⟨hut, -, e⟩ := hstay u (by rw [hu]; exact fun e => nomatch e)
        obtain ⟨e1, e2⟩ := h.removed u (e ▸ hu)
        exact ⟨(Function.update_of_ne hut ..).trans e1, e2⟩
      · intro u hu
        exact h.live u (hstay u hu).2.1

/-- One step in both builds. -/
theorem agree_step (h : Agree cfg place sb so rdy) {op : ReadyOp} (hop : Legal cfg.tasks place op) :
    StepAgrees cfg place sb so op := by
  cases op with
  | create t prio => exact agree_create h hop.1 hop.2.1 hop.2.2
  | remove t => exact agree_remove h hop
  | reinsert t => exact agree_reinsert h hop
  | delete t => exact agree_delete h hop
  | schedDone =>
    exact ⟨_, _, rdy, rfl, rfl, ⟨h.same.links, h.same.prio, h.same.state, rfl⟩,
      ⟨h.ready.links, h.ready.sorted, h.ready.lt⟩, h.indexed.congr rfl rfl, h.mem, h.isReady,
      h.removed, h.live⟩

/-- A whole run in both builds. -/
theorem agree_run {ops : List ReadyOp} (h : Agree cfg place sb so rdy)
    (hops : LegalOps cfg.tasks place ops) :
    ∃ sb' so' rdy', runOps (cfg.build false) sb ops = some sb' ∧
      runOps (cfg.build true) so ops = some so' ∧
      Agree cfg (Place.afterOps place ops) sb' so' rdy' := by
  induction ops generalizing place sb so rdy with
  | nil => exact ⟨sb, so, rdy, rfl, rfl, h⟩
  | cons op ops ih =>
    obtain ⟨sb1, so1, rdy1, h1, h2, h3⟩ := agree_step h hops.1
    obtain ⟨sb', so', rdy', e1, e2, e3⟩ := ih h3 hops.2
    refine ⟨sb', so', rdy', ?_, ?_, e3⟩
    · rw [runOps, h1]
      exact e1
    · rw [runOps, h2]
      exact e2

end Step

/-- **The two builds agree.** From a kernel without ready tasks and with an empty table, every
    sequence of creations, removals, reinsertions and deletions runs through in both builds and
    leaves the same ready list, in which are exactly the tasks made ready, and the same
    `TaskSchedReq`. -/
theorem ready_builds_agree (cfg : Env) (s : Kernel) (hr : s.TCBRdy = none) (hn : s.PriNum = 0)
    (ops : List ReadyOp) (hops : LegalOps cfg.tasks (fun _ => .absent) ops) :
    ∃ sb so rdy, runOps (cfg.build false) s ops = some sb ∧
    runOps (cfg.build true) s ops = some so ∧
      IsDList sb.rdyLinks rdy ∧ IsDList so.rdyLinks rdy ∧
      (∀ t, t ∈ rdy ↔ Place.afterOps (fun _ => .absent) ops t = .ready) ∧
      so.TCBRdy = sb.TCBRdy ∧ so.TCBnext = sb.TCBnext ∧ so.TCBprev = sb.TCBprev ∧
      so.TaskSchedReq = sb.TaskSchedReq := by
  obtain ⟨sb, so, rdy, h1, h2, h⟩ := agree_run (agree_start hr hn) hops
  have hl := h.same.links
  refine ⟨sb, so, rdy, h1, h2, h.ready.links, by rw [hl]; exact h.ready.links, h.mem, ?_⟩
  simp only [Kernel.rdyLinks, Links.mk.injEq] at hl
  exact ⟨hl.1, hl.2.1, hl.2.2, h.same.req⟩

/-- Three tasks of two priorities, one of them taken out and put back, another deleted. -/
theorem ready_builds_agree_shipped :
    ∃ sb so rdy,
      runOps (shippedEnv.build false) Kernel.zero [.create 1 5, .create 2 3, .create 3 5, .remove 1,
        .schedDone, .reinsert 1, .delete 2] = some sb ∧
      runOps (shippedEnv.build true) Kernel.zero [.create 1 5, .create 2 3, .create 3 5, .remove 1,
        .schedDone, .reinsert 1, .delete 2] = some so ∧
      IsDList sb.rdyLinks rdy ∧ IsDList so.rdyLinks rdy ∧ 1 ∈ rdy ∧ 2 ∉ rdy := by
  obtain ⟨sb, so, rdy, h1, h2, h3, h4, hmem, -⟩ := ready_builds_agree shippedEnv Kernel.zero rfl rfl
    [.create 1 5, .create 2 3, .create 3 5, .remove 1, .schedDone, .reinsert 1, .delete 2]
    (by decide)
  exact ⟨sb, so, rdy, h1, h2, h3, h4, (hmem 1).mpr (by decide), fun e => by
    have := (hmem 2).mp e
    exact absurd this (by decide)⟩

end CoOS
