/-
  The table of priorities counts the tasks that are not DORMANT, and the ready list is in order:
  what insertions, removals and the scheduler do to the two (`Lists`, `Section.schedule`).
-/
import CoOS.Static.Code

namespace CoOS

open Function (update)
open DList KeyOrder

namespace Static

/-! ## The ready list and the table -/

/-- The columns that `Lists` reads. -/
structure View where
  links : Links Nat
  table : PriTable
  prio : Nat → Nat
  state : Nat → TaskState
  hasStk : Nat → Bool
  delayTick : Nat → Nat
  eventID : Nat → Nat
  pnode : Nat → PNode
  OSIntNesting : Nat
  IsrReq : Bool
  DlyList : Option Nat
  TmrList : Option Nat

def view (s : Kernel) : View where
  links := s.rdyLinks
  table := s.priTable
  prio := s.prio
  state := s.state
  hasStk := s.hasStk
  delayTick := s.delayTick
  eventID := s.eventID
  pnode := s.pnode
  OSIntNesting := s.OSIntNesting
  IsrReq := s.IsrReq
  DlyList := s.DlyList
  TmrList := s.tmr.TmrList

/-- `rdy` is the ready list. Its table has `cnt p` tasks of the priority `p`, and every task that
    is not DORMANT has its priority in it. No task waits for a time, an event or a flag. -/
structure Lists (cfg : Env) (B : List Nat) (s : Kernel) (cnt : Nat → Nat) (rdy : List Nat) :
    Prop where
  binary : cfg.orderListScheduleEn = false
  ready : Ready cfg s rdy
  indexed : Indexed s cnt rdy
  mem : ∀ t, t ∈ rdy ↔ t ∈ B ∧ s.state t = .READY
  off : ∀ t ∈ B, t ∉ rdy → s.TCBnext t = none ∧ s.TCBprev t = none
  live : ∀ t ∈ B, s.state t ≠ .DORMANT → 0 < cnt (s.prio t)
  lt : ∀ t ∈ B, t < cfg.tasks
  stk : ∀ t ∈ B, s.hasStk t = true
  quiet : ∀ t ∈ B, s.delayTick t = INVALID_VALUE ∧ s.eventID t = INVALID_ID ∧ s.pnode t = .null
  nest : s.OSIntNesting = 0
  isr : s.IsrReq = false
  dly : s.DlyList = none
  tmr : s.tmr.TmrList = none

section Lists

variable {cfg : Env} {B rdy l1 l2 : List Nat} {s s' : Kernel} {cnt : Nat → Nat} {t : Nat}

theorem Lists.congr (h : Lists cfg B s cnt rdy) (hv : view s' = view s) :
    Lists cfg B s' cnt rdy := by
  have e1 : s'.rdyLinks = s.rdyLinks := congrArg View.links hv
  have e2 : s'.priTable = s.priTable := congrArg View.table hv
  have e3 : s'.prio = s.prio := congrArg View.prio hv
  have e4 : s'.state = s.state := congrArg View.state hv
  have e5 : s'.TCBnext = s.TCBnext := congrArg Links.next e1
  have e6 : s'.TCBprev = s.TCBprev := congrArg Links.prev e1
  refine ⟨h.binary, h.ready.congr (congrArg Links.head e1) (fun a _ => ?_) fun a _ => congrFun e3 a,
    h.indexed.congr e2 e3, ?_, ?_, ?_, h.lt, ?_, ?_, (congrArg View.OSIntNesting hv).trans h.nest,
    (congrArg View.IsrReq hv).trans h.isr, (congrArg View.DlyList hv).trans h.dly,
    (congrArg View.TmrList hv).trans h.tmr⟩
  · rw [e5, e6]
    exact ⟨rfl, rfl⟩
  · rw [e4]
    exact h.mem
  · rw [e5, e6]
    exact h.off
  · rw [e3, e4]
    exact h.live
  · rw [show s'.hasStk = s.hasStk from congrArg View.hasStk hv]
    exact h.stk
  · rw [show s'.delayTick = s.delayTick from congrArg View.delayTick hv,
      show s'.eventID = s.eventID from congrArg View.eventID hv,
      show s'.pnode = s.pnode from congrArg View.pnode hv]
    exact h.quiet

/-- Whoever is not DORMANT has its priority in the table. -/
theorem Lists.listed (h : Lists cfg B s cnt rdy) (ht : t ∈ B) (hs : s.state t ≠ .DORMANT) :
    Listed s t := h.indexed.table.mem _ (h.live t ht hs)

/-- `InsertToTCBRdyList` of a task whose priority is in the table. -/
theorem Lists.insert (h : Lists cfg B s cnt rdy) (ht : t ∈ B) (hn : t ∉ rdy)
    (hc : 0 < cnt (s.prio t)) :
    ∃ L T ct req, insertToTCBRdyList cfg s t = some (s.readied t L T ct req) ∧
      Lists cfg B (s.readied t L T ct req) cnt (insertKey s.prio t rdy) ∧
      (s.TaskSchedReq = true → req = true) := by
  obtain ⟨h1, h2⟩ := h.off t ht hn
  have hlt := h.lt t ht
  obtain ⟨L, T, ct, e1, e2, e3, e4⟩ :=
    insertToTCBRdyList_spec h.ready (fun _ => h.indexed) hlt hc hn h1 h2
  refine ⟨L, T, ct, _, e1, ⟨h.binary, h.ready.readied hlt e2, (e4 h.binary).congr rfl rfl,
    fun u => ?_,
    fun u hu hnu => ?_, fun u hu hs => ?_, h.lt, h.stk, h.quiet, h.nest, h.isr, h.dly, h.tmr⟩,
      fun hr => ?_⟩
  · rw [mem_insertKey]
    change _ ↔ u ∈ B ∧ update s.state t .READY u = .READY
    by_cases hut : u = t
    · rw [hut, Function.update_self]
      exact ⟨fun _ => ⟨ht, rfl⟩, fun _ => Or.inl rfl⟩
    · rw [Function.update_of_ne hut, ← h.mem u]
      exact or_iff_right hut
  · rw [mem_insertKey, not_or] at hnu
    obtain ⟨f1, f2⟩ := e3 u hnu.2 hnu.1
    obtain ⟨g1, g2⟩ := h.off u hu hnu.2
    exact ⟨f1.trans g1, f2.trans g2⟩
  · change 0 < cnt (s.prio u)
    by_cases hut : u = t
    · rw [hut]
      exact hc
    · exact h.live u hu fun e => hs ((Function.update_of_ne hut ..).trans e)
  · rw [hr]
    rfl

/-- `RemoveFromTCBRdyList`, in a state with the links and the table of `s`. -/
theorem Lists.remove (h : Lists cfg B s cnt (l1 ++ t :: l2)) (s0 : Kernel)
    (e1 : s0.rdyLinks = s.rdyLinks)
    (e2 : s0.priTable = s.priTable) (e3 : s0.prio = s.prio) :
    ∃ T, removeFromTCBRdyList cfg s0 t = some (s0.unreadied (s.rdyLinks.unlink t) T) ∧
      Indexed (s.setPriTable T) cnt (l1 ++ l2) := by
  have hr : Ready cfg s0 (l1 ++ t :: l2) := by
    refine h.ready.congr (congrArg Links.head e1) (fun a _ => ⟨?_, ?_⟩) fun a _ => congrFun e3 a
    · exact congrFun (congrArg Links.next e1) a
    · exact congrFun (congrArg Links.prev e1) a
  obtain ⟨T, f1, f2⟩ := removeFromTCBRdyList_spec hr fun _ => h.indexed.congr e2 e3
  rw [e1] at f1
  exact ⟨T, f1, (f2 h.binary).congr rfl e3.symm⟩

/-- The task `t` has left the ready list and is in the state `st`. -/
theorem Lists.taken (h : Lists cfg B s cnt (l1 ++ t :: l2)) {T : PriTable}
    (hx : Indexed (s.setPriTable T) cnt (l1 ++ l2)) (st : TaskState) (hst : st ≠ .READY)
    (hv : view s' = view
      { s.unreadied (s.rdyLinks.unlink t) T with state := update s.state t st }) :
    Lists cfg B s' cnt (l1 ++ l2) := by
  have hmem : ∀ u, u ∈ l1 ++ l2 ↔ u ∈ l1 ++ t :: l2 ∧ u ≠ t := by
    have h1 := nodup_split_left h.ready.links.nodup
    have h2 := nodup_split_right h.ready.links.nodup
    intro u
    rw [List.mem_append, List.mem_append, List.mem_cons]
    refine ⟨fun hu => ⟨?_, ?_⟩, fun ⟨hu, hut⟩ => ?_⟩
    · exact hu.imp id Or.inr
    · rintro rfl
      exact hu.elim h1 h2
    · exact hu.imp id fun e => e.resolve_left hut
  have ht : t ∈ l1 ++ t :: l2 := List.mem_append_right _ List.mem_cons_self
  obtain ⟨htB, htr⟩ := (h.mem t).mp ht
  refine Lists.congr
    (s := { s.unreadied (s.rdyLinks.unlink t) T with state := update s.state t st })
    ⟨h.binary, (h.ready.unreadied (T := T)).congr rfl (fun _ _ => ⟨rfl, rfl⟩) fun _ _ => rfl,
      hx.congr rfl rfl, fun u => ?_, fun u hu hnu => ?_, fun u hu hs => h.live u hu fun e =>
        hs ?_, h.lt,
      h.stk, h.quiet, h.nest, h.isr, h.dly, h.tmr⟩ hv
  · rw [hmem, h.mem]
    change _ ↔ u ∈ B ∧ update s.state t st u = .READY
    by_cases hut : u = t
    · rw [hut, Function.update_self]
      exact ⟨fun e => absurd rfl e.2, fun e => absurd e.2 hst⟩
    · rw [Function.update_of_ne hut]
      exact and_iff_left hut
  · change (s.rdyLinks.unlink t).next u = none ∧ (s.rdyLinks.unlink t).prev u = none
    by_cases hut : u = t
    · rw [hut]
      exact unlink_links h.ready.links
    · have hn : u ∉ l1 ++ t :: l2 := fun e => hnu ((hmem u).mpr ⟨e, hut⟩)
      obtain ⟨f1, f2⟩ := unlink_frame h.ready.links hn
      obtain ⟨g1, g2⟩ := h.off u hu hn
      exact ⟨f1.trans g1, f2.trans g2⟩
  · have hut : u ≠ t := by
      rintro rfl
      rw [htr] at e
      exact nomatch e
    exact (Function.update_of_ne hut ..).trans e

/-- A task that is not ready changes its state. -/
theorem Lists.aside (h : Lists cfg B s cnt rdy) (hn : t ∉ rdy) (st : TaskState) (hst : st ≠ .READY)
    (hd : t ∈ B → s.state t ≠ .DORMANT)
    (hv : view s' = view { s with state := update s.state t st }) :
    Lists cfg B s' cnt rdy := by
  refine Lists.congr (s := { s with state := update s.state t st })
    ⟨h.binary, h.ready.congr rfl (fun _ _ => ⟨rfl, rfl⟩) fun _ _ => rfl,
    h.indexed.congr rfl rfl, fun u => ?_, h.off, fun u hu hs => h.live u hu fun e =>
      hs ?_, h.lt, h.stk,
    h.quiet, h.nest, h.isr, h.dly, h.tmr⟩ hv
  · rw [h.mem]
    change _ ↔ u ∈ B ∧ update s.state t st u = .READY
    by_cases hut : u = t
    · rw [hut, Function.update_self]
      exact ⟨fun e => absurd ((h.mem t).mpr e) hn, fun e => absurd e.2 hst⟩
    · rw [Function.update_of_ne hut]
  · have hut : u ≠ t := by
      rintro rfl
      exact hd hu e
    exact (Function.update_of_ne hut ..).trans e

/-! ## The counts -/

/-- The tasks that the count is about. -/
def place (B : List Nat) (k : Kernel) (t : Nat) : Place :=
  if t ∈ B ∧ k.state t ≠ .DORMANT then .removed else .absent

theorem place_absent {k : Kernel} : place B k t ≠ .absent ↔ t ∈ B ∧ k.state t ≠ .DORMANT := by
  unfold place
  split
  · next h => exact ⟨fun _ => h, fun _ => nofun⟩
  · next h => exact ⟨fun e => absurd rfl e, fun e => absurd e h⟩

theorem activated_eq (cfg : Env) {k : Kernel} {pl : Nat → Place}
    (h : ∀ t, t < cfg.tasks → (pl t ≠ .absent ↔ t ∈ B ∧ k.state t ≠ .DORMANT)) :
    activated cfg B k = liveCount cfg.tasks pl k.prio := by
  funext p
  unfold activated liveCount
  congr 1
  refine Finset.filter_congr fun t ht => ?_
  rw [h t (Finset.mem_range.mp ht)]

theorem activated_pos {k : Kernel} (hlt : t < cfg.tasks) (ht : t ∈ B) (hs : k.state t ≠ .DORMANT) :
    0 < activated cfg B k (k.prio t) := by
  rw [activated_eq cfg fun _ _ => place_absent]
  exact liveCount_pos.mpr ⟨t, hlt, place_absent.mpr ⟨ht, hs⟩, rfl⟩

/-- The same tasks are DORMANT, and no priority has changed. -/
structure Kept (B : List Nat) (s s' : Kernel) : Prop where
  prio : s'.prio = s.prio
  dormant : ∀ t ∈ B, s'.state t = .DORMANT ↔ s.state t = .DORMANT

theorem Kept.activated (h : Kept B s s') : activated cfg B s' = Static.activated cfg B s := by
  funext p
  unfold Static.activated
  congr 1
  refine Finset.filter_congr fun t _ => ?_
  rw [h.prio]
  refine and_congr_left fun _ => and_congr_right fun ht => ?_
  exact not_congr (h.dormant t ht)

theorem Lists.counted (h : Lists cfg B s (activated cfg B s) rdy) : Counted cfg B s :=
  ⟨h.indexed.table.num, fun _ => h.listed⟩

/-- `DeleteTaskPri` for a task that has just become DORMANT, since the state `k`. -/
theorem Lists.delete {k : Kernel} (h : Lists cfg B s (activated cfg B k) rdy) (ht : t ∈ B)
    (hk : k.state t ≠ .DORMANT) (hs : s.state = update k.state t .DORMANT) (hp : s.prio = k.prio) :
    ∃ T, deleteTaskPri s (s.prio t) = some (s.setPriTable T) ∧
      Lists cfg B (s.setPriTable T) (activated cfg B s) rdy := by
  have hcnt : activated cfg B k = liveCount cfg.tasks (place B k) s.prio := by
    rw [hp]
    exact activated_eq cfg fun _ _ => place_absent
  have hrdy : ∀ u ∈ rdy, u < cfg.tasks ∧ u ≠ t ∧ place B k u ≠ .absent := by
    intro u hu
    obtain ⟨h1, h2⟩ := (h.mem u).mp hu
    rw [hs] at h2
    have hut : u ≠ t := by
      rintro rfl
      rw [Function.update_self] at h2
      exact nomatch h2
    rw [Function.update_of_ne hut] at h2
    refine ⟨h.lt u h1, hut, place_absent.mpr ⟨h1, ?_⟩⟩
    rw [h2]
    exact nofun
  obtain ⟨T, e1, e2⟩ :=
    deleteTaskPri_agree h.indexed hcnt (h.lt t ht) (place_absent.mpr ⟨ht, hk⟩) hrdy
  have hact : activated cfg B s = liveCount cfg.tasks (update (place B k) t .absent) s.prio := by
    refine activated_eq cfg fun u _ => ?_
    rw [hs]
    by_cases hut : u = t
    · rw [hut, Function.update_self, Function.update_self]
      exact ⟨fun e => absurd rfl e, fun e => absurd rfl e.2⟩
    · rw [Function.update_of_ne hut, Function.update_of_ne hut]
      exact place_absent
  rw [← hact] at e2
  exact ⟨T, e1, h.binary, h.ready.congr rfl (fun _ _ => ⟨rfl, rfl⟩) fun _ _ => rfl, e2,
    h.mem, h.off,
    fun u hu hu' => activated_pos (h.lt u hu) hu hu', h.lt, h.stk, h.quiet, h.nest, h.isr,
      h.dly, h.tmr⟩

end Lists

/-! ## The scheduler -/

/-- Inside a locked section of the task `r`, which may have stopped running. -/
structure Section (cfg : Env) (B : List Nat) (s : Kernel) (cnt : Nat → Nat) (rdy : List Nat)
    (r : Nat) : Prop where
  lists : Lists cfg B s cnt rdy
  mem : r ∈ B
  running : s.TCBRunning = some r
  next : s.TCBNext = some r
  only : ∀ t ∈ B, s.state t = .RUNNING → t = r
  idle : 0 ∈ B ∧ (s.state 0 = .READY ∨ s.state 0 = .RUNNING)
  lock : s.OSSchedLock = 1
  req : s.state r = .RUNNING ∨ s.TaskSchedReq = true

/-- The task `r` is picked. -/
structure Chosen (cfg : Env) (B : List Nat) (s : Kernel) (cnt : Nat → Nat) (rdy : List Nat)
    (r : Nat) : Prop where
  lists : Lists cfg B s cnt rdy
  mem : r ∈ B
  next : s.TCBNext = some r
  state : s.state r = .RUNNING
  only : ∀ t ∈ B, s.state t = .RUNNING → t = r
  idle : 0 ∈ B ∧ (s.state 0 = .READY ∨ s.state 0 = .RUNNING)

section Sched

variable {cfg : Env} {B rdy : List Nat} {s : Kernel} {cnt : Nat → Nat} {r hd : Nat} {l : List Nat}

/-- Nobody runs, and the task `t` of the ready list gets the CPU. -/
theorem Lists.dispatch {l1 l2 : List Nat} {t : Nat} (h : Lists cfg B s cnt (l1 ++ t :: l2))
    (s' : Kernel)
    {T : PriTable} (hx : Indexed (s.setPriTable T) cnt (l1 ++ l2))
    (hno : ∀ t ∈ B, s.state t ≠ .RUNNING)
    (h0 : 0 ∈ B ∧ s.state 0 = .READY)
    (hv : view s' = view
      { s.unreadied (s.rdyLinks.unlink t) T with state := update s.state t .RUNNING })
    (hn : s'.TCBNext = some t) : Chosen cfg B s' cnt (l1 ++ l2) t ∧ Kept B s s' := by
  obtain ⟨hB, hrdy⟩ := (h.mem t).mp (List.mem_append_right _ List.mem_cons_self)
  have hs : s'.state = update s.state t .RUNNING := congrArg View.state hv
  refine ⟨⟨h.taken hx .RUNNING nofun hv, hB, hn, ?_, fun u hu e => ?_, h0.1, ?_⟩,
    congrArg View.prio hv, fun u _ => ?_⟩
  · rw [hs, Function.update_self]
  · by_contra hut
    rw [hs, Function.update_of_ne hut] at e
    exact hno u hu e
  · rw [hs]
    by_cases h0t : 0 = t
    · rw [h0t, Function.update_self]
      exact Or.inr rfl
    · rw [Function.update_of_ne h0t]
      exact Or.inl h0.2
  · rw [hs]
    by_cases hut : u = t
    · rw [hut, Function.update_self, hrdy]
      exact ⟨nofun, nofun⟩
    · rw [Function.update_of_ne hut]

/-- Somebody is picked. -/
def Turns (cfg : Env) (B : List Nat) (s : Kernel) (cnt : Nat → Nat) (x : Option Kernel) : Prop :=
  ∃ s' rdy' r', x = some s' ∧ Chosen cfg B s' cnt rdy' r' ∧ Kept B s s'

/-- The running task has stopped: the head of the ready list takes its place. -/
theorem Section.replace (h : Section cfg B s cnt (hd :: l) r) (hr : s.state r ≠ .RUNNING) :
    Turns cfg B s cnt ((removeFromTCBRdyList cfg { s with
      TaskSchedReq := false, TCBNext := some hd, state := update s.state hd .RUNNING } hd).map
      fun s => resetCheckTime cfg s hd) := by
  let s0 : Kernel := { s with
    TaskSchedReq := false
    TCBNext := some hd
    state := update s.state hd .RUNNING }
  have hl : Lists cfg B s cnt ([] ++ hd :: l) := h.lists
  obtain ⟨T, e1, e2⟩ := hl.remove s0 rfl rfl rfl
  obtain ⟨ct, hct⟩ := resetCheckTime_eq cfg (s0.unreadied (s.rdyLinks.unlink hd) T) hd
  have hno : ∀ t ∈ B, s.state t ≠ .RUNNING := by
    intro t ht e
    rw [h.only t ht e] at e
    exact hr e
  obtain ⟨h1, h2⟩ :=
    hl.dispatch { s0.unreadied (s.rdyLinks.unlink hd) T with OSCheckTime := ct } e2 hno
    ⟨h.idle.1, h.idle.2.resolve_right (hno 0 h.idle.1)⟩ rfl rfl
  exact ⟨_, l, hd,
    (congrArg (Option.map fun s => resetCheckTime cfg s hd) e1).trans (congrArg some hct),
    h1, h2⟩

/-- The running task goes back to the ready list and its head gets the CPU. -/
theorem Section.preempt (h : Section cfg B s cnt (hd :: l) r) (hr : s.state r = .RUNNING) :
    Turns cfg B s cnt (CoOS.preempt cfg { s with TaskSchedReq := false } r hd) := by
  let s0 : Kernel := { s with TaskSchedReq := false, TCBNext := some hd }
  have hl : Lists cfg B s0 cnt (hd :: l) := h.lists.congr rfl
  have hn : r ∉ hd :: l := by
    intro e
    have := ((h.lists.mem r).mp e).2
    rw [hr] at this
    exact nomatch this
  have hc : 0 < cnt (s.prio r) := h.lists.live r h.mem (by rw [hr]; exact nofun)
  obtain ⟨L, T, ct, req, e1, e2, -⟩ := hl.insert h.mem hn hc
  let s1 := s0.readied r L T ct req
  have hst : s1.state = update s.state r .READY := rfl
  -- nobody runs now
  have hno : ∀ t ∈ B, s1.state t ≠ .RUNNING := by
    intro t ht e
    rw [hst] at e
    by_cases htr : t = r
    · rw [htr, Function.update_self] at e
      exact nomatch e
    · rw [Function.update_of_ne htr] at e
      exact htr (h.only t ht e)
  have h0 : s1.state 0 = .READY := by
    rw [hst]
    by_cases h0r : 0 = r
    · rw [h0r, Function.update_self]
    · rw [Function.update_of_ne h0r]
      exact h.idle.2.resolve_right fun e => h0r (h.only 0 h.idle.1 e)
  obtain ⟨l1, l2, hl12⟩ := List.append_of_mem
    (show hd ∈ insertKey s.prio r (hd :: l) from mem_insertKey.mpr (Or.inr List.mem_cons_self))
  have e2' : Lists cfg B s1 cnt (l1 ++ hd :: l2) := hl12 ▸ e2
  obtain ⟨T', f1, f2⟩ := e2'.remove s1 rfl rfl rfl
  let s2 : Kernel :=
    { s1.unreadied (s1.rdyLinks.unlink hd) T' with state := update s1.state hd .RUNNING }
  obtain ⟨ct', hct⟩ := resetCheckTime_eq cfg s2 hd
  obtain ⟨h1, h2⟩ := e2'.dispatch { s2 with OSCheckTime := ct' } f2 hno ⟨h.idle.1, h0⟩ rfl rfl
  refine ⟨_, _, hd, ?_, h1, h2.prio, fun t ht => (h2.dormant t ht).trans ?_⟩
  · unfold CoOS.preempt
    change (insertToTCBRdyList cfg s0 r).bind _ = _
    rw [e1]
    change (removeFromTCBRdyList cfg s1 hd).bind _ = _
    rw [f1]
    exact congrArg some hct
  · rw [hst]
    by_cases htr : t = r
    · rw [htr, Function.update_self, hr]
      exact ⟨nofun, nofun⟩
    · rw [Function.update_of_ne htr]

/-- `Schedule`; only the running task is inserted. -/
theorem Section.schedule (h : Section cfg B s cnt rdy r) :
    Turns cfg B s cnt (CoOS.schedule cfg s) ∧ ∀ x ∈ scheduleInserts cfg s, Listed x.1 x.2 := by
  have hstays : s.state r = .RUNNING → ∀ b, Turns cfg B s cnt (some { s with TaskSchedReq := b }) :=
    fun hr b => ⟨_, rdy, r, rfl, ⟨h.lists.congr rfl, h.mem, h.next, hr, h.only, h.idle⟩, rfl,
      fun _ _ => Iff.rfl⟩
  have hhead : s.TCBRdy = rdy.head? := h.lists.ready.links.head
  cases rdy with
  | nil =>
    -- the idle task is the one that runs
    have h0 : s.state 0 = .RUNNING :=
      h.idle.2.resolve_left fun e => List.not_mem_nil ((h.lists.mem 0).mpr ⟨h.idle.1, e⟩)
    have hr : s.state r = .RUNNING := h.only 0 h.idle.1 h0 ▸ h0
    unfold CoOS.schedule scheduleInserts
    rw [hhead]
    exact ⟨hstays hr s.TaskSchedReq, fun x hx => absurd hx List.not_mem_nil⟩
  | cons hd l =>
    have hlock : s.OSSchedLock ≤ 1 := Nat.le_of_eq h.lock
    have hcond : ¬ (s.TCBRunning ≠ s.TCBNext ∨ 1 < s.OSSchedLock ∨ 0 < s.OSIntNesting) := by
      rw [h.running, h.next, h.lists.nest, h.lock]
      simp
    refine ⟨?_, fun x hx => ?_⟩
    · rw [schedule_eq hhead h.running h.next hlock h.lists.nest]
      split
      · next hr => exact h.replace hr
      · next hr =>
        rw [not_not] at hr
        split
        · exact h.preempt hr
        · split
          · exact h.preempt hr
          · exact hstays hr false
    · unfold scheduleInserts at hx
      rw [hhead, h.running] at hx
      dsimp only [List.head?_cons] at hx
      rw [← h.running, if_neg hcond] at hx
      split at hx
      · exact absurd hx List.not_mem_nil
      · next hr =>
        rw [not_not] at hr
        split at hx
        · rw [List.mem_singleton.mp hx]
          exact h.lists.listed h.mem (by rw [hr]; exact nofun)
        · exact absurd hx List.not_mem_nil

/-- Between two operations: the task `r` runs. -/
structure Between (cfg : Env) (B : List Nat) (s : Kernel) (cnt : Nat → Nat) (rdy : List Nat)
    (r : Nat) : Prop where
  chosen : Chosen cfg B s cnt rdy r
  running : s.TCBRunning = some r
  lock : s.OSSchedLock = 0

theorem Chosen.congr {s' : Kernel} (h : Chosen cfg B s cnt rdy r) (hv : view s' = view s)
    (hn : s'.TCBNext = s.TCBNext) : Chosen cfg B s' cnt rdy r := by
  have hs : s'.state = s.state := congrArg View.state hv
  refine ⟨h.lists.congr hv, h.mem, hn.trans h.next, ?_, ?_, ?_⟩
  all_goals rw [hs]
  · exact h.state
  · exact h.only
  · exact h.idle

theorem Chosen.take (h : Chosen cfg B s cnt rdy r) (hl : s.OSSchedLock = 0) :
    Between cfg B (takeSwitch s) cnt rdy r ∧ view (takeSwitch s) = view s := by
  unfold takeSwitch
  split
  · next e => exact ⟨⟨h, e.trans h.next, hl⟩, rfl⟩
  · exact ⟨⟨h.congr rfl rfl, h.next, rfl⟩, rfl⟩

theorem Kept.congr {s' s'' : Kernel} (h : Kept B s s') (hv : view s'' = view s') :
    Kept B s s'' := by
  refine ⟨(congrArg View.prio hv).trans h.prio, fun t ht => ?_⟩
  rw [show s''.state = s'.state from congrArg View.state hv]
  exact h.dormant t ht

/-- `OsSchedUnlock` and the context switch. -/
theorem Section.unlock (h : Section cfg B s cnt rdy r) :
    ∃ s' rdy' r', osSchedUnlock cfg s = some s' ∧ Between cfg B (takeSwitch s') cnt rdy' r' ∧
      Kept B s (takeSwitch s') ∧ ∀ x ∈ unlockInserts cfg s, Listed x.1 x.2 := by
  -- the lock is released and the switch taken
  have hends : ∀ s1 rdy' r', Chosen cfg B s1 cnt rdy' r' → Kept B s s1 →
      Between cfg B (takeSwitch { s1 with OSSchedLock := 0 }) cnt rdy' r' ∧
        Kept B s (takeSwitch { s1 with OSSchedLock := 0 }) := by
    intro s1 rdy' r' h1 h2
    have hc : Chosen cfg B { s1 with OSSchedLock := 0 } cnt rdy' r' := h1.congr rfl rfl
    obtain ⟨g1, g2⟩ := hc.take rfl
    exact ⟨g1, (h2.congr rfl).congr g2⟩
  rw [osSchedUnlock_eq cfg h.lists.isr, if_pos h.lock]
  unfold unlockInserts
  cases hreq : s.TaskSchedReq with
  | true =>
    obtain ⟨⟨s1, rdy', r', e1, e2, e3⟩, e4⟩ := h.schedule
    rw [if_pos rfl, if_pos ⟨h.lock, rfl⟩, e1]
    obtain ⟨g1, g2⟩ := hends s1 rdy' r' e2 e3
    exact ⟨_, rdy', r', rfl, g1, g2, e4⟩
  | false =>
    have hr : s.state r = .RUNNING := h.req.resolve_right (by rw [hreq]; exact nofun)
    rw [if_neg Bool.false_ne_true, if_neg fun e => Bool.false_ne_true e.2]
    obtain ⟨g1, g2⟩ := hends s rdy r ⟨h.lists, h.mem, h.next, hr, h.only, h.idle⟩
      ⟨rfl, fun _ _ => Iff.rfl⟩
    exact ⟨_, rdy, r, rfl, g1, g2, fun x hx => absurd hx List.not_mem_nil⟩

end Sched

end Static

end CoOS
