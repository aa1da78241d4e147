/-
  The lists of the kernel, and what they have to do with the tasks.

  A ghost state names the lists: the ready list, the delay list (with the remaining ticks), the
  free list and the waiting list of each mutex, which share `TCBnext` and `TCBprev`, and the
  waiting list of each event in `waitNext` and `waitPrev`. `Rep s g` says that the links of
  `s` hold exactly the lists of `g`; `Coh s g` adds what the list a task is in says about its
  state, its delay and its event.

  `Coh` holds in the middle of the kernel's functions as well as between calls: it does not
  say that the running task is RUNNING, since a task that blocks changes its state before
  `Schedule` picks the next one.
-/
import CoOS.Lib.Shared
import CoOS.Lib.Delta
import CoOS.Ready.Agree
import CoOS.Kernel.Timer

namespace CoOS

open Function (update)
open DList KeyOrder

/-! ## The ghost state -/

/-- The lists in `TCBnext` and `TCBprev`. -/
inductive Kind where
  | rdy | dly | free
  | mtx (m : Nat)
  deriving DecidableEq, Repr

/-- The free list and the mutex lists are read along `TCBnext` only. -/
def Kind.double : Kind → Bool
  | .rdy => true
  | .dly => true
  | .free => false
  | .mtx _ => false

def Kernel.tcbHead (s : Kernel) : Kind → Option Nat
  | .rdy => s.TCBRdy
  | .dly => s.DlyList
  | .free => s.FreeTCB
  | .mtx m => s.waittingList m

def Kernel.tcbCols (s : Kernel) : Cols Kind Nat := ⟨s.tcbHead, s.TCBnext, s.TCBprev⟩

def Kernel.evtCols (s : Kernel) : Cols Nat Nat := ⟨s.eventTCBList, s.waitNext, s.waitPrev⟩

/-- `dly` is the delay list with the remaining ticks. -/
structure Ghost where
  tcb : Family Kind Nat
  evt : Family Nat Nat
  dly : List (Nat × Nat)

/-- A task that exists: its TCB is not in the free list. -/
def Live (cfg : Env) (g : Ghost) (t : Nat) : Prop := t < cfg.tasks ∧ g.tcb.loc t ≠ some .free

def Ghost.place (g : Ghost) (t : Nat) : Place :=
  if g.tcb.loc t = some .free then .absent else .removed

/-- The number of tasks of each priority, which the table of the binary build counts. -/
def Ghost.count (cfg : Env) (g : Ghost) (prio : Nat → Nat) : Nat → Nat :=
  liveCount cfg.tasks g.place prio

theorem Ghost.place_absent (g : Ghost) (t : Nat) :
    g.place t = .absent ↔ g.tcb.loc t = some .free := by
  unfold Ghost.place
  split
  · simp [*]
  · simp [*]

theorem Ghost.count_pos {cfg : Env} {g : Ghost} {t : Nat} (h : Live cfg g t) (prio : Nat → Nat) :
    0 < g.count cfg prio (prio t) := by
  refine liveCount_pos.mpr ⟨t, h.1, ?_, rfl⟩
  rw [Ne, g.place_absent]
  exact h.2

/-- The count depends on who exists only. -/
theorem Ghost.count_congr {cfg : Env} {g g' : Ghost}
    (h : ∀ a, g'.tcb.loc a = some .free ↔ g.tcb.loc a = some .free) (prio : Nat → Nat) :
    g'.count cfg prio = g.count cfg prio := by
  refine liveCount_congr fun a => ?_
  rw [g'.place_absent, g.place_absent]
  exact h a

/-- The links of `s` hold the lists of `g`. -/
structure Rep (cfg : Env) (s : Kernel) (g : Ghost) : Prop where
  tcb : Shared Kind.double s.tcbCols g.tcb
  evt : Shared (fun _ => true) s.evtCols g.evt
  sorted : SortedKey s.prio (g.tcb.lst .rdy)
  fits : Fits cfg s (g.count cfg s.prio) (g.tcb.lst .rdy)
  dly : g.tcb.lst .dly = g.dly.map Prod.fst
  deltas : Deltas s.delayTick 0 g.dly
  dlyLt : ∀ x ∈ g.dly, x.2 < 2 ^ 31
  lt : ∀ t k, g.tcb.loc t = some k → t < cfg.tasks
  evLt : ∀ t e, g.evt.loc t = some e → t < cfg.tasks ∧ e < cfg.maxEvent

/-- What the lists say about a task that exists. -/
structure TaskOk (s : Kernel) (g : Ghost) (t : Nat) : Prop where
  ev : s.eventID t = (g.evt.loc t).getD INVALID_ID
  tick : g.tcb.loc t ≠ some .dly → s.delayTick t = INVALID_VALUE
  rdy : g.tcb.loc t = some .rdy → s.state t = .READY ∧ g.evt.loc t = none
  dly : g.tcb.loc t = some .dly → s.state t = .WAITING
  mtx : ∀ m, g.tcb.loc t = some (.mtx m) →
    s.state t = .WAITING ∧ s.mutexID t = m ∧ g.evt.loc t = none
  off : g.tcb.loc t = none →
    s.state t = .WAITING ∨ (s.state t = .RUNNING ∧ g.evt.loc t = none)

/-- The state of a TCB in the free list. `CreateTCBList` does not write the last one, so that
    it is READY until its first use. -/
def Kernel.spareState (cfg : Env) (s : Kernel) (t : Nat) : TaskState :=
  if t + 1 < cfg.tasks ∨ s.hasStk t = true then .DORMANT else .READY

structure Coh (cfg : Env) (s : Kernel) (g : Ghost) : Prop where
  rep : Rep cfg s g
  task : ∀ t, Live cfg g t → TaskOk s g t
  free : ∀ t, g.tcb.loc t = some .free → g.evt.loc t = none ∧ s.state t = s.spareState cfg t
  run : ∀ t, Live cfg g t → s.state t = .RUNNING → s.TCBNext = some t
  nest : s.OSIntNesting = 0
  tmr : s.tmr.TmrList = none
  stk : ∀ t, Live cfg g t → s.hasStk t = true
  spare : ∀ t, g.tcb.loc t = some .free → s.hasStk t = true → s.delayTick t = INVALID_VALUE

theorem spareState_ne_running (cfg : Env) (s : Kernel) (t : Nat) :
    s.spareState cfg t ≠ .RUNNING := by
  unfold Kernel.spareState
  split
  · exact fun e => nomatch e
  · exact fun e => nomatch e

theorem Kernel.spareState_congr (cfg : Env) {s s' : Kernel} {t : Nat}
    (h : s'.hasStk t = s.hasStk t) :
    s'.spareState cfg t = s.spareState cfg t := by
  unfold Kernel.spareState
  rw [h]

theorem Coh.free_not_running {cfg : Env} {s : Kernel} {g : Ghost} {t : Nat} (h : Coh cfg s g)
    (ht : g.tcb.loc t = some .free) : s.state t ≠ .RUNNING := by
  rw [(h.free t ht).2]
  exact spareState_ne_running cfg s t

/-! ## What it depends on -/

/-- The columns that `Coh` reads. -/
structure KView where
  tcb : Cols Kind Nat
  evt : Cols Nat Nat
  table : PriTable
  prio : Nat → Nat
  delayTick : Nat → Nat
  eventID : Nat → Nat
  state : Nat → TaskState
  mutexID : Nat → Nat
  TCBNext : Option Nat
  OSIntNesting : Nat
  TmrList : Option Nat
  hasStk : Nat → Bool

def Kernel.view (s : Kernel) : KView where
  tcb := s.tcbCols
  evt := s.evtCols
  table := s.priTable
  prio := s.prio
  delayTick := s.delayTick
  eventID := s.eventID
  state := s.state
  mutexID := s.mutexID
  TCBNext := s.TCBNext
  OSIntNesting := s.OSIntNesting
  TmrList := s.tmr.TmrList
  hasStk := s.hasStk

/-- Columns that the functions of the ready list, the delay list and the event lists do not
    write: priorities, mails, flags, and what belongs to events and mutexes apart from their
    lists. -/
structure Aside where
  prio : Nat → Nat
  mutexID : Nat → Nat
  pmail : Nat → Nat
  eventPtr : Nat → EventPtr
  eventType : Nat → EventType
  eventSortType : Nat → Nat
  eventCounter : Nat → Nat
  initialEventCounter : Nat → Nat
  FreeEventList : Option Nat
  qBuf : Nat → Nat → Nat
  qHead : Nat → Nat
  qTail : Nat → Nat
  qMaxSize : Nat → Nat
  qSize : Nat → Nat
  QueueIDVessel : Nat → Bool
  moves : List Move
  answers : List (SQC × StatusType)
  originalPrio : Nat → Nat
  mutexOccupied : Nat → Bool
  mutexTaskID : Nat → Nat
  hipriTaskID : Nat → Nat
  MutexFreeID : Nat
  flagRdy : BitVec 32
  resetOpt : BitVec 32
  flagActive : BitVec 32
  waitFlags : Nat → BitVec 32
  waitType : Nat → Nat
  pnode : Nat → PNode
  nextNode : Nat → Option Nat
  prevNode : Nat → Option Nat
  headNode : Option Nat
  tailNode : Option Nat
  IsrReq : Bool
  TimeReq : Bool
  TimerReq : Bool
  ServiceReq : SRQ

def Kernel.aside (s : Kernel) : Aside where
  prio := s.prio
  mutexID := s.mutexID
  pmail := s.pmail
  eventPtr := s.eventPtr
  eventType := s.eventType
  eventSortType := s.eventSortType
  eventCounter := s.eventCounter
  initialEventCounter := s.initialEventCounter
  FreeEventList := s.FreeEventList
  qBuf := s.qBuf
  qHead := s.qHead
  qTail := s.qTail
  qMaxSize := s.qMaxSize
  qSize := s.qSize
  QueueIDVessel := s.QueueIDVessel
  moves := s.moves
  answers := s.answers
  originalPrio := s.originalPrio
  mutexOccupied := s.mutexOccupied
  mutexTaskID := s.mutexTaskID
  hipriTaskID := s.hipriTaskID
  MutexFreeID := s.MutexFreeID
  flagRdy := s.flagRdy
  resetOpt := s.resetOpt
  flagActive := s.flagActive
  waitFlags := s.waitFlags
  waitType := s.waitType
  pnode := s.pnode
  nextNode := s.nextNode
  prevNode := s.prevNode
  headNode := s.headNode
  tailNode := s.tailNode
  IsrReq := s.IsrReq
  TimeReq := s.TimeReq
  TimerReq := s.TimerReq
  ServiceReq := s.ServiceReq

/-- Who has the CPU, and whether the scheduler is locked. -/
structure Cpu where
  TCBRunning : Option Nat
  TCBNext : Option Nat
  OSSchedLock : Nat

def Kernel.cpu (s : Kernel) : Cpu := ⟨s.TCBRunning, s.TCBNext, s.OSSchedLock⟩

section Writes

variable (s : Kernel) (L : Links Nat) (T : PriTable) (D : Delta Nat) (t e ct : Nat) (req : Bool)

@[simp] theorem setRdyLinks_aside : (s.setRdyLinks L).aside = s.aside := rfl
@[simp] theorem setRdyLinks_cpu : (s.setRdyLinks L).cpu = s.cpu := rfl
@[simp] theorem setPriTable_aside : (s.setPriTable T).aside = s.aside := rfl
@[simp] theorem setPriTable_cpu : (s.setPriTable T).cpu = s.cpu := rfl
@[simp] theorem setEvtLinks_aside : (s.setEvtLinks e L).aside = s.aside := rfl

@[simp] theorem setDlyLinks_aside : (s.setDlyLinks L).aside = s.aside := rfl
@[simp] theorem setDlyLinks_cpu : (s.setDlyLinks L).cpu = s.cpu := rfl

@[simp] theorem setDly_aside : (s.setDly D).aside = s.aside :=
  (show (s.setDly D).aside = (s.setDlyLinks D.toLinks).aside from rfl).trans (setDlyLinks_aside ..)

@[simp] theorem setDly_cpu : (s.setDly D).cpu = s.cpu :=
  (show (s.setDly D).cpu = (s.setDlyLinks D.toLinks).cpu from rfl).trans (setDlyLinks_cpu ..)

@[simp] theorem unreadied_aside : (s.unreadied L T).aside = s.aside := by
  unfold Kernel.unreadied
  rw [setRdyLinks_aside, setPriTable_aside]

@[simp] theorem unreadied_cpu : (s.unreadied L T).cpu = s.cpu := by
  unfold Kernel.unreadied
  rw [setRdyLinks_cpu, setPriTable_cpu]

@[simp] theorem readied_aside : (s.readied t L T ct req).aside = s.aside :=
  (show (s.readied t L T ct req).aside = (s.unreadied L T).aside from rfl).trans
    (unreadied_aside ..)

@[simp] theorem readied_cpu : (s.readied t L T ct req).cpu = s.cpu :=
  (show (s.readied t L T ct req).cpu = (s.unreadied L T).cpu from rfl).trans (unreadied_cpu ..)

end Writes

section View

variable {cfg : Env} {s s' : Kernel} {g : Ghost}

theorem Rep.congr (h : Rep cfg s g) (e1 : s'.tcbCols = s.tcbCols) (e2 : s'.evtCols = s.evtCols)
    (e3 : s'.priTable = s.priTable) (e4 : s'.prio = s.prio) (e5 : s'.delayTick = s.delayTick) :
    Rep cfg s' g := by
  refine ⟨?_, ?_, ?_, ?_, h.dly, ?_, h.dlyLt, h.lt, h.evLt⟩
  · rw [e1]
    exact h.tcb
  · rw [e2]
    exact h.evt
  · rw [e4]
    exact h.sorted
  · rw [e4]
    exact h.fits.congr e3 e4
  · rw [e5]
    exact h.deltas

/-- Nothing about the task `t` changes that `TaskOk` speaks of. -/
structure SameTask (s s' : Kernel) (g g' : Ghost) (t : Nat) : Prop where
  eventID : s'.eventID t = s.eventID t
  tick : g.tcb.loc t ≠ some .dly → s'.delayTick t = s.delayTick t
  state : s'.state t = s.state t
  mutexID : s'.mutexID t = s.mutexID t
  tcb : g'.tcb.loc t = g.tcb.loc t
  evt : g'.evt.loc t = g.evt.loc t

theorem TaskOk.congr {g' : Ghost} {t : Nat} (h : TaskOk s g t) (hs : SameTask s s' g g' t) :
    TaskOk s' g' t := by
  refine ⟨?_, ?_, ?_, ?_, ?_, ?_⟩
  · rw [hs.eventID, hs.evt]
    exact h.ev
  · intro hloc
    rw [hs.tcb] at hloc
    rw [hs.tick hloc]
    exact h.tick hloc
  · rw [hs.state, hs.tcb, hs.evt]
    exact h.rdy
  · rw [hs.state, hs.tcb]
    exact h.dly
  · rw [hs.state, hs.mutexID, hs.tcb, hs.evt]
    exact h.mtx
  · rw [hs.state, hs.tcb, hs.evt]
    exact h.off

theorem Coh.congr (h : Coh cfg s g) (hv : s'.view = s.view) : Coh cfg s' g := by
  have e1 : s'.eventID = s.eventID := congrArg KView.eventID hv
  have e3 : s'.delayTick = s.delayTick := congrArg KView.delayTick hv
  have e4 : s'.state = s.state := congrArg KView.state hv
  have e5 : s'.mutexID = s.mutexID := congrArg KView.mutexID hv
  have e6 : s'.TCBNext = s.TCBNext := congrArg KView.TCBNext hv
  have e8 : s'.OSIntNesting = s.OSIntNesting := congrArg KView.OSIntNesting hv
  have e9 : s'.tmr.TmrList = s.tmr.TmrList := congrArg KView.TmrList hv
  have e10 : s'.hasStk = s.hasStk := congrArg KView.hasStk hv
  refine ⟨h.rep.congr (congrArg KView.tcb hv) (congrArg KView.evt hv) (congrArg KView.table hv)
    (congrArg KView.prio hv) e3, ?_, fun t ht => ?_, ?_, e8.trans h.nest, e9.trans h.tmr, ?_, ?_⟩
  · intro t ht
    exact (h.task t ht).congr ⟨congrFun e1 t, fun _ => congrFun e3 t, congrFun e4 t,
      congrFun e5 t, rfl, rfl⟩
  · rw [e4, Kernel.spareState_congr cfg (congrFun e10 t)]
    exact h.free t ht
  · rw [e4, e6]
    exact h.run
  · rw [e10]
    exact h.stk
  · rw [e3, e10]
    exact h.spare

end View

/-! ## One task changes -/

section OneTask

variable {cfg : Env} {s s' : Kernel} {g g' : Ghost} {t : Nat}

theorem taskOk_off (h1 : s.eventID t = (g.evt.loc t).getD INVALID_ID)
    (h3 : s.delayTick t = INVALID_VALUE) (hloc : g.tcb.loc t = none)
    (hst : s.state t = .WAITING ∨ (s.state t = .RUNNING ∧ g.evt.loc t = none)) : TaskOk s g t := by
  refine ⟨h1, fun _ => h3, ?_, ?_, ?_, fun _ => hst⟩
  · rw [hloc]
    exact fun e => nomatch e
  · rw [hloc]
    exact fun e => nomatch e
  · intro m
    rw [hloc]
    exact fun e => nomatch e

theorem taskOk_in {k : Kind} (h1 : s.eventID t = (g.evt.loc t).getD INVALID_ID)
    (hloc : g.tcb.loc t = some k)
    (h3 : k ≠ .dly → s.delayTick t = INVALID_VALUE)
    (hrdy : k = .rdy → s.state t = .READY ∧ g.evt.loc t = none)
    (hdly : k = .dly → s.state t = .WAITING)
    (hmtx : ∀ m, k = .mtx m → s.state t = .WAITING ∧ s.mutexID t = m ∧ g.evt.loc t = none) :
    TaskOk s g t := by
  have hk : ∀ {k'}, g.tcb.loc t = some k' → k = k' := fun e => Option.some.inj (hloc.symm.trans e)
  refine ⟨h1, fun e => h3 fun hd => e (hd ▸ hloc), fun e => hrdy (hk e), fun e => hdly (hk e),
    fun m e => hmtx m (hk e), fun e => ?_⟩
  rw [hloc] at e
  exact nomatch e

/-- `Coh` is kept when only the task `t` changes and is in order afterwards. -/
theorem Coh.retask (h : Coh cfg s g) (hrep : Rep cfg s' g') (hlive : Live cfg g t)
    (hfree : ∀ a, g'.tcb.loc a = some .free ↔ g.tcb.loc a = some .free)
    (hsame : ∀ a, a ≠ t → SameTask s s' g g' a) (ht : TaskOk s' g' t)
    (hrun : s'.state t = .RUNNING → s'.TCBNext = some t)
    (hnx : s'.TCBNext = s.TCBNext ∨ ∀ a, Live cfg g a → a ≠ t → s.state a ≠ .RUNNING)
    (hnest : s'.OSIntNesting = s.OSIntNesting)
    (htmr : s'.tmr.TmrList = s.tmr.TmrList) (hstk : s'.hasStk = s.hasStk) : Coh cfg s' g' := by
  have hl : ∀ a, Live cfg g' a ↔ Live cfg g a := fun a => by
    unfold Live
    rw [Ne, hfree a]
  refine ⟨hrep, ?_, ?_, ?_, hnest.trans h.nest, htmr.trans h.tmr, fun a ha => ?_, fun a ha hs => ?_⟩
  · intro a ha
    by_cases hat : a = t
    · rw [hat]
      exact ht
    · exact (h.task a ((hl a).mp ha)).congr (hsame a hat)
  · intro a ha
    have haf := (hfree a).mp ha
    have hat : a ≠ t := fun e => hlive.2 (e ▸ haf)
    rw [(hsame a hat).evt, (hsame a hat).state, Kernel.spareState_congr cfg (congrFun hstk a)]
    exact h.free a haf
  · intro a ha hst
    by_cases hat : a = t
    · rw [hat] at hst ⊢
      exact hrun hst
    · rw [(hsame a hat).state] at hst
      rcases hnx with e | e
      · rw [e]
        exact h.run a ((hl a).mp ha) hst
      · exact absurd hst (e a ((hl a).mp ha) hat)
  · rw [hstk]
    exact h.stk a ((hl a).mp ha)
  · have haf := (hfree a).mp ha
    have hat : a ≠ t := fun e => hlive.2 (e ▸ haf)
    rw [(hsame a hat).tick (by rw [haf]; exact fun e => nomatch e)]
    exact h.spare a haf (by rw [← hstk]; exact hs)

end OneTask

/-! ## Reading the lists off -/

section Read

variable {cfg : Env} {s : Kernel} {g : Ghost} {t : Nat}

theorem Rep.ready (h : Rep cfg s g) : Ready cfg s (g.tcb.lst .rdy) :=
  ⟨h.tcb.double .rdy rfl, h.sorted, fun t ht => h.lt t .rdy ((h.tcb.mem .rdy t).mp ht)⟩

theorem Rep.isDelta (h : Rep cfg s g) : IsDelta s.dly g.dly := by
  refine ⟨?_, h.deltas, h.dlyLt⟩
  rw [← h.dly]
  exact h.tcb.double .dly rfl

theorem Rep.mem_dly (h : Rep cfg s g) : t ∈ g.dly.map Prod.fst ↔ g.tcb.loc t = some .dly := by
  rw [← h.dly]
  exact h.tcb.mem .dly t

theorem Rep.tcb_length (h : Rep cfg s g) (k : Kind) : (g.tcb.lst k).length ≤ cfg.tasks :=
  length_le_of_lt (h.tcb.single k).nodup fun t ht => h.lt t k ((h.tcb.mem k t).mp ht)

theorem Rep.dly_length (h : Rep cfg s g) : g.dly.length ≤ cfg.tasks := by
  have hlen := h.tcb_length .dly
  rwa [h.dly, List.length_map] at hlen

/-- The state of a task says where it can be. -/
theorem Coh.loc_of_running (h : Coh cfg s g) (hl : Live cfg g t) (hr : s.state t = .RUNNING) :
    g.tcb.loc t = none ∧ g.evt.loc t = none := by
  have ht := h.task t hl
  cases hloc : g.tcb.loc t with
  | none =>
    refine ⟨rfl, ?_⟩
    rcases ht.off hloc with e | e
    · rw [hr] at e
      exact nomatch e
    · exact e.2
  | some k =>
    exfalso
    cases k with
    | rdy =>
      have e := (ht.rdy hloc).1
      rw [hr] at e
      exact nomatch e
    | dly =>
      have e := ht.dly hloc
      rw [hr] at e
      exact nomatch e
    | free => exact hl.2 hloc
    | mtx m =>
      have e := (ht.mtx m hloc).1
      rw [hr] at e
      exact nomatch e

theorem Coh.ready_iff (h : Coh cfg s g) (hl : Live cfg g t) :
    g.tcb.loc t = some .rdy ↔ s.state t = .READY := by
  have ht := h.task t hl
  constructor
  · intro hloc
    exact (ht.rdy hloc).1
  · intro hr
    cases hloc : g.tcb.loc t with
    | none =>
      rcases ht.off hloc with e | e
      · rw [hr] at e
        exact nomatch e
      · rw [hr] at e
        exact nomatch e.1
    | some k =>
      cases k with
      | rdy => rfl
      | dly =>
        have e := ht.dly hloc
        rw [hr] at e
        exact nomatch e
      | free => exact absurd hloc hl.2
      | mtx m =>
        have e := (ht.mtx m hloc).1
        rw [hr] at e
        exact nomatch e

theorem Rep.delayTick_lt (h : Rep cfg s g) (hloc : g.tcb.loc t = some .dly) :
    s.delayTick t ≠ INVALID_VALUE := by
  obtain ⟨x, hx, rfl⟩ := List.mem_map.mp (h.mem_dly.mpr hloc)
  obtain ⟨l1, l2, e⟩ := List.append_of_mem hx
  have hd := h.deltas
  rw [e] at hd
  have hc : s.delayTick x.1 = _ := (deltas_append.mp hd).2.2.1
  have := h.dlyLt x hx
  rw [hc]
  unfold INVALID_VALUE
  omega

theorem Coh.delayTick_iff (h : Coh cfg s g) (hl : Live cfg g t) :
    s.delayTick t ≠ INVALID_VALUE ↔ g.tcb.loc t = some .dly := by
  constructor
  · intro hne
    by_contra hloc
    exact hne ((h.task t hl).tick hloc)
  · exact h.rep.delayTick_lt

theorem Coh.eventID_iff (h : Coh cfg s g) (hl : Live cfg g t) :
    s.eventID t ≠ INVALID_ID ↔ ∃ e, g.evt.loc t = some e := by
  rw [(h.task t hl).ev]
  cases he : g.evt.loc t with
  | none => simp
  | some e =>
    have := (h.rep.evLt t e he).2
    have := cfg.maxEvent_le
    refine ⟨fun _ => ⟨e, rfl⟩, fun _ => ?_⟩
    change e ≠ 0xff
    omega

end Read

end CoOS
