/-
  Before `CoStartOS` the scheduler is locked and nobody runs: the lists that `CreateTCBList` leaves,
  what creating a task does there (`createTask_locked`), and what holds of the events, the queue
  blocks and the flags that have been created so far (`Fresh`).
-/
import CoOS.Lib.Mask
import CoOS.Run.Inv

namespace CoOS

open Function (update)
open DList KeyOrder

/-! ## The lists after `CreateTCBList` -/

def Ghost.start (cfg : Env) : Ghost where
  tcb := ⟨fun k => if k = .free then List.range cfg.tasks else [],
    fun t => if t < cfg.tasks then some .free else none⟩
  evt := ⟨fun _ => [], fun _ => none⟩
  dly := []

/-- The state in which `CoInitOS` creates the idle task. -/
def Kernel.start (cfg : Env) : Kernel :=
  osSchedLock (createEventList cfg (createTCBList cfg Kernel.zero))

section Start

variable (cfg : Env)

theorem start_next {t : Nat} (h : t < cfg.tasks) :
    (Kernel.start cfg).TCBnext t = if t + 1 < cfg.tasks then some (t + 1) else none := by
  change (if t < cfg.tasks - 1 then some (t + 1) else if t = cfg.tasks - 1 then none else none) = _
  by_cases h1 : t + 1 < cfg.tasks
  · rw [if_pos h1, if_pos (by omega)]
  · rw [if_neg h1, if_neg (by omega), ite_self]

theorem start_shared : Shared Kind.double (Kernel.start cfg).tcbCols (Ghost.start cfg).tcb := by
  have hpos : 0 < cfg.tasks := Nat.succ_pos _
  have hlst : ∀ k, k ≠ .free → (Ghost.start cfg).tcb.lst k = [] := fun k hk => if_neg hk
  have hfree : (Ghost.start cfg).tcb.lst .free = List.range cfg.tasks := rfl
  refine ⟨fun k => ?_, fun k hk => ?_, fun k t => ?_, fun t ht => ?_⟩
  · by_cases hk : k = .free
    · subst hk
      rw [hfree]
      refine ⟨?_, List.nodup_range, fun t ht => ?_⟩
      · change some 0 = _
        rw [show cfg.tasks = (cfg.tasks - 1) + 1 by omega, List.range_succ_eq_map]
        rfl
      · have hlt := List.mem_range.mp ht
        rw [nextIn_range hlt]
        exact start_next cfg hlt
    · rw [hlst k hk]
      refine isSList_nil ?_
      cases k with
      | rdy => rfl
      | dly => rfl
      | free => exact absurd rfl hk
      | mtx m => rfl
  · have hkf : k ≠ .free := by
      rintro rfl
      exact nomatch hk
    rw [hlst k hkf]
    refine isDList_nil ?_
    cases k with
    | rdy => rfl
    | dly => rfl
    | free => exact absurd rfl hkf
    | mtx m => rfl
  · change _ ↔ (if t < cfg.tasks then some Kind.free else none) = some k
    by_cases hk : k = .free
    · rw [hk, hfree, List.mem_range]
      by_cases ht : t < cfg.tasks
      · rw [if_pos ht]
        exact ⟨fun _ => rfl, fun _ => ht⟩
      · rw [if_neg ht]
        exact ⟨fun e => absurd e ht, fun e => nomatch e⟩
    · rw [hlst k hk]
      refine ⟨fun e => absurd e List.not_mem_nil, fun e => ?_⟩
      split at e
      · exact absurd (Option.some.inj e).symm hk
      · exact nomatch e
  · have hlt : ¬ t < cfg.tasks := by
      intro hlt
      rw [show (Ghost.start cfg).tcb.loc t = some .free from if_pos hlt] at ht
      exact nomatch ht
    refine ⟨?_, rfl⟩
    change (if t < cfg.tasks - 1 then some (t + 1) else if t = cfg.tasks - 1 then none else none) =
      _
    rw [if_neg (by omega), ite_self]

theorem start_evt : Shared (fun _ => true) (Kernel.start cfg).evtCols (Ghost.start cfg).evt :=
  ⟨fun _ => isSList_nil rfl, fun _ _ => isDList_nil rfl,
    fun _ _ => ⟨fun e => absurd e List.not_mem_nil, fun e => nomatch e⟩, fun _ _ => ⟨rfl, rfl⟩⟩

theorem start_not_live (t : Nat) : ¬ Live cfg (Ghost.start cfg) t := fun h => h.2 (if_pos h.1)

theorem start_coh : Coh cfg (Kernel.start cfg) (Ghost.start cfg) := by
  have hcount : ∀ p, ¬ 0 < (Ghost.start cfg).count cfg (Kernel.start cfg).prio p := by
    intro p h
    obtain ⟨t, h1, h2, -⟩ := liveCount_pos.mp h
    rw [Ne, Ghost.place_absent] at h2
    exact h2 (if_pos h1)
  have hnil : (Ghost.start cfg).tcb.lst .rdy = [] := rfl
  refine ⟨⟨start_shared cfg, start_evt cfg, ?_, fun _ => ?_, ?_, ?_, ?_, ?_, ?_⟩,
    fun t ht => absurd ht (start_not_live cfg t), fun t _ => ⟨rfl, ?_⟩,
    fun t ht => absurd ht (start_not_live cfg t), rfl, rfl,
    (fun t ht => absurd ht (start_not_live cfg t)), fun t _ ht => nomatch ht⟩
  · rw [hnil]
    exact List.Pairwise.nil
  · rw [hnil]
    exact ⟨⟨fun _ _ _ hj => absurd hj (Nat.not_lt_zero _), fun _ h => absurd h (Nat.not_lt_zero _),
      fun _ h => absurd h (Nat.not_lt_zero _), fun p h => absurd h (hcount p),
      fun _ h => absurd h (Nat.not_lt_zero _), fun _ h => absurd h (Nat.not_lt_zero _)⟩,
      fun _ h => absurd h List.not_mem_nil, fun p h => absurd h (hcount p)⟩
  · rfl
  · trivial
  · exact fun _ h => absurd h List.not_mem_nil
  · intro t k h
    change (if t < cfg.tasks then some Kind.free else none) = some k at h
    by_contra hn
    rw [if_neg hn] at h
    exact nomatch h
  · exact fun _ _ h => nomatch h
  · change (if t < cfg.tasks - 1 then TaskState.DORMANT else TaskState.READY) =
      if t + 1 < cfg.tasks ∨ false = true then .DORMANT else .READY
    refine if_congr ⟨fun h => Or.inl ?_, fun h => ?_⟩ rfl rfl
    · omega
    · have := h.resolve_right Bool.false_ne_true
      omega

end Start

/-! ## Creation with the scheduler locked -/

section Create

variable {cfg : Env} {k : Kernel} {g : Ghost} {t : Nat} {l : List Nat}

theorem assignTCB_locked (hl : k.OSSchedLock ≠ 0) (hi : k.IsrReq = false) :
    assignTCB cfg k = some (match k.FreeTCB with
      | none => (k, none)
      | some t => ({ k with FreeTCB := k.TCBnext t }, some t)) := by
  unfold assignTCB
  dsimp only
  rw [show (osSchedLock k).FreeTCB = k.FreeTCB from rfl]
  cases k.FreeTCB with
  | none =>
    dsimp only
    rw [lock_unlock hi (Or.inl hl)]
    rfl
  | some t =>
    dsimp only
    have := @lock_unlock cfg { k with FreeTCB := k.TCBnext t } hi (Or.inl hl)
    rw [show ({ osSchedLock k with FreeTCB := (osSchedLock k).TCBnext t } : Kernel) =
      osSchedLock { k with FreeTCB := k.TCBnext t } from rfl, this]
    rfl

/-- What `CreateTask` leaves of a state with the scheduler locked. -/
structure New (cfg : Env) (k k' : Kernel) (g g' : Ghost) (t p : Nat) : Prop where
  coh : Coh cfg k' g'
  cpu : k'.cpu = k.cpu
  aside : k'.aside = ((k.data g).create t p true).aside
  evt : g'.evt = g.evt
  dly : g'.dly = g.dly
  mtx : ∀ m, g'.tcb.lst (.mtx m) = g.tcb.lst (.mtx m)
  loc : ∀ u, u ≠ t → g'.tcb.loc u = g.tcb.loc u
  req : k.TaskSchedReq = true → k'.TaskSchedReq = true
  live : Live cfg g' t

/-- One task more. -/
theorem New.live_iff {cfg : Env} {k k' : Kernel} {g g' : Ghost} {t p : Nat}
    (h : New cfg k k' g g' t p)
    (u : Nat) : Live cfg g' u ↔ u = t ∨ Live cfg g u := by
  by_cases hu : u = t
  · rw [hu]
    exact ⟨fun _ => Or.inl rfl, fun _ => h.live⟩
  · unfold Live
    rw [h.loc u hu]
    exact ⟨Or.inr, fun e => e.resolve_left hu⟩

theorem createTask_locked (h : Coh cfg k g) (hl : k.OSSchedLock ≠ 0) (hi : k.IsrReq = false)
    {task stk parameter : Nat} (ht : task ≠ 0) (hs : stk ≠ 0)
    (hp : parameter &&& 0xff ≤ cfg.lowestPrio) (hsz : 20 ≤ (parameter &&& 0xfff00) >>> 8)
    (hfree : g.tcb.lst .free = t :: l) :
    ∃ k' g', createTask cfg k task stk parameter = some (k', t) ∧
      New cfg k k' g g' t (parameter &&& 0xff) ∧
      (parameter >>> 31 = 0 → g'.tcb.loc t = some .rdy ∧
        (g.tcb.lst .rdy = [] → k'.TaskSchedReq = true)) := by
  have hbad : ¬ (task = 0 ∨ stk = 0 ∨ cfg.lowestPrio < parameter &&& 0xff ∨
      (parameter &&& 0xfff00) >>> 8 < 20) := by
    rintro (e | e | e | e)
    · exact ht e
    · exact hs e
    · exact absurd hp (Nat.not_le_of_lt e)
    · exact absurd hsz (Nat.not_le_of_lt e)
  have hlt : parameter &&& 0xff < 256 := Nat.lt_succ_of_le Nat.and_le_right
  have hloc : g.tcb.loc t = some .free := (h.rep.tcb.mem .free t).mp (by rw [hfree]; simp)
  have hev := (h.free t hloc).1
  have hhead : k.FreeTCB = some t := by
    have := (h.rep.tcb.single .free).head
    rw [hfree] at this
    exact this
  let slice := if (parameter &&& 0x7fff0000) >>> 20 = 0 then cfg.defaultSlice
    else (parameter &&& 0x7fff0000) >>> 20
  obtain ⟨T, h1, h2, h3⟩ := @Coh.alloc cfg k g t h l hfree (parameter &&& 0xff) slice hlt
  have ho : (g.alloc t l).tcb.loc t = none := Family.take_loc_self ..
  have hmtx : ∀ m, (g.alloc t l).tcb.lst (.mtx m) = g.tcb.lst (.mtx m) := fun m =>
    Family.take_lst_ne _ _ fun e => nomatch e
  have hother : ∀ u, u ≠ t → (g.alloc t l).tcb.loc u = g.tcb.loc u := fun u hu =>
    Family.take_loc_ne _ _ hu
  have hrdy : (g.alloc t l).tcb.lst .rdy = g.tcb.lst .rdy := Family.take_lst_ne _ _ (by decide)
  let k1 := (k.assigned t (parameter &&& 0xff) slice).setPriTable T
  have hcode : createTask cfg k task stk parameter =
      if parameter >>> 31 = 0 then
        (insertToTCBRdyList cfg (osSchedLock k1) t).bind fun s =>
          (osSchedUnlock cfg s).bind fun s => some (s, t)
      else some ({ k1 with state := update k1.state t .WAITING }, t) := by
    unfold createTask
    dsimp only
    rw [if_neg hbad, assignTCB_locked hl hi, hhead, Option.bind_eq_bind, Option.bind_some]
    dsimp only
    simp only [Option.bind_eq_bind]
    rw [ite_bind]
    refine (congrArg (fun o => Option.bind o _) h1).trans ?_
    rw [Option.bind_some]
  by_cases hw : parameter >>> 31 = 0
  · rw [hcode, if_pos hw]
    let k2 : Kernel := osSchedLock { k1 with state := update k.state t .WAITING }
    have hk2 : Coh cfg k2 (g.alloc t l) := h2.congr rfl
    obtain ⟨L, T', ct, e1, e2⟩ := hk2.mkReady h3 ho hev
    have e1' := (insertToTCBRdyList_state cfg (osSchedLock k1) t .WAITING).symm.trans e1
    generalize hreq : (k2.TaskSchedReq ||
      decide ((insertKey k2.prio t ((g.alloc t l).tcb.lst .rdy)).head? = some t)) = req at e1'
    have hnest : osSchedUnlock cfg (k2.readied t L T' ct req) =
        some { k2.readied t L T' ct req with
          OSSchedLock := (k2.readied t L T' ct req).OSSchedLock - 1 } := by
      refine osSchedUnlock_nested cfg ?_
      change k.OSSchedLock + 1 ≠ 1
      omega
    rw [e1', Option.bind_some, hnest, Option.bind_some]
    refine ⟨_, _, rfl, ⟨(e2 req).congr rfl, rfl, readied_aside k2 L T' t ct req, rfl, rfl,
      fun m => ?_, fun u hu => ?_,
      fun hr => ?_, ?_⟩, fun _ => ⟨Family.put_loc_self .., fun hn => ?_⟩⟩
    · exact (Family.put_lst_ne _ _ (show Kind.mtx m ≠ .rdy from fun e => nomatch e)).trans (hmtx m)
    · exact (Family.put_loc_ne _ _ hu).trans (hother u hu)
    · change req = true
      rw [← hreq, show k2.TaskSchedReq = k.TaskSchedReq from rfl, hr]
      rfl
    · exact ((rdyFrame_mkReady ho).live t).mpr h3
    · change req = true
      rw [← hreq, hrdy, hn, Bool.or_eq_true]
      exact Or.inr (decide_eq_true rfl)
  · rw [hcode, if_neg hw]
    exact ⟨_, _, rfl, ⟨h2, rfl, rfl, rfl, rfl, hmtx, hother, fun hr => hr, h3⟩,
      fun e => absurd e hw⟩

end Create

/-! ## What is created -/

/-- Only active flags are ready or reset themselves. -/
structure MasksOk (a : Aside) : Prop where
  rdy : Mask.Within a.flagRdy a.flagActive
  reset : Mask.Within a.resetOpt a.flagActive

/-- An event as `CoCreateSem`, `CoCreateMbox` or `CoCreateQueue` leaves it. -/
def Made (a : Aside) (e : Nat) : Prop :=
  match a.eventType e with
  | .sem => a.eventCounter e ≤ a.initialEventCounter e ∧ a.initialEventCounter e < 65536
  | .mbox => a.eventCounter e = 0 ∧ a.eventPtr e = .null
  | .queue =>
    ∃ q, a.eventPtr e = .qcb q ∧ a.QueueIDVessel q = true ∧ a.qHead q = 0 ∧ a.qTail q = 0 ∧
    a.qSize q = 0 ∧ 0 < a.qMaxSize q ∧ a.qMaxSize q < 65536
  | .invalid => True

/-- The objects when `n` events have been created, and nothing has been used. -/
structure Fresh (cfg : Env) (a : Aside) (n : Nat) : Prop where
  cnt : a.ServiceReq.cnt = 0
  head : a.ServiceReq.head = 0
  req : a.IsrReq = false
  time : a.TimeReq = false
  timer : a.TimerReq = false
  moves : a.moves = []
  answers : a.answers = []
  pmail : ∀ t, a.pmail t = 0
  pnode : ∀ t, a.pnode t = .null
  headNode : a.headNode = none
  tailNode : a.tailNode = none
  masks : MasksOk a
  le : n ≤ cfg.maxEvent
  list : a.FreeEventList = if n < cfg.maxEvent then some n else none
  chain : ∀ e, n ≤ e → e + 1 < cfg.maxEvent → a.eventPtr e = .ecb (e + 1)
  last : n < cfg.maxEvent → a.eventPtr (cfg.maxEvent - 1) = .null
  raw : ∀ e, n ≤ e → a.eventType e = .invalid
  made : ∀ e, e < n → Made a e
  sort : ∀ e, a.eventType e ≠ .invalid → a.eventSortType e = sortFifo ∨ a.eventSortType e = sortPrio
  queues : ∀ e e' q, a.eventType e = .queue → a.eventType e' = .queue → a.eventPtr e = .qcb q →
    a.eventPtr e' = .qcb q → e = e'

/-- Before `CoStartOS`. -/
structure Before (cfg : Env) (k : Kernel) (g : Ghost) (n : Nat) : Prop where
  coh : Coh cfg k g
  running : k.TCBRunning = none
  next : k.TCBNext = none
  lock : k.OSSchedLock = 1
  dly : g.dly = []
  evt : g.evt = ⟨fun _ => [], fun _ => none⟩
  mtx : ∀ m, g.tcb.lst (.mtx m) = []
  mutex : ∀ t, Live cfg g t → k.mutexID t = INVALID_ID
  fresh : Fresh cfg k.aside n

/-- The arguments that the creating functions rely on: counters and sizes are 16-bit, and the
    sort type of a mailbox or a queue, of which 4 bits are kept, is one of the two. -/
def Setup.Valid : Setup → Prop
  | .sem _ maxCnt _ => maxCnt < 65536
  | .mbox sortType => sortType % 16 = sortFifo ∨ sortType % 16 = sortPrio
  | .queue _ size sortType => size < 65536 ∧ (sortType % 16 = sortFifo ∨ sortType % 16 = sortPrio)
  | .flag auto init => auto ≤ 1 ∧ init ≤ 1
  | _ => True

instance (u : Setup) : Decidable u.Valid :=
  match u with
  | .sem .. => inferInstanceAs (Decidable (_ < _))
  | .mbox _ => inferInstanceAs (Decidable (_ ∨ _))
  | .queue .. => inferInstanceAs (Decidable (_ ∧ _))
  | .flag .. => inferInstanceAs (Decidable (_ ∧ _))
  | .task .. | .mutex => inferInstanceAs (Decidable True)

/-- Nothing about the event `e` has changed. -/
structure SameEvent (a a' : Aside) (e : Nat) : Prop where
  type : a'.eventType e = a.eventType e
  ptr : a'.eventPtr e = a.eventPtr e
  cnt : a'.eventCounter e = a.eventCounter e
  init : a'.initialEventCounter e = a.initialEventCounter e
  queue : a.eventType e = .queue → a'.qBuf (a.qcb e) = a.qBuf (a.qcb e) ∧
    a'.qHead (a.qcb e) = a.qHead (a.qcb e) ∧ a'.qTail (a.qcb e) = a.qTail (a.qcb e) ∧
    a'.qMaxSize (a.qcb e) = a.qMaxSize (a.qcb e) ∧ a'.qSize (a.qcb e) = a.qSize (a.qcb e)

section Fresh

variable {cfg : Env} {a : Aside} {n : Nat}

theorem SameEvent.refl (a : Aside) (e : Nat) : SameEvent a a e :=
  ⟨rfl, rfl, rfl, rfl, fun _ => ⟨rfl, rfl, rfl, rfl, rfl⟩⟩

theorem SameEvent.qcb {a' : Aside} {e : Nat} (h : SameEvent a a' e) : a'.qcb e = a.qcb e := by
  unfold Aside.qcb
  rw [h.ptr]

theorem SameEvent.trans {a' a'' : Aside} {e : Nat} (h : SameEvent a a' e)
    (h' : SameEvent a' a'' e) :
    SameEvent a a'' e := by
  refine ⟨h'.type.trans h.type, h'.ptr.trans h.ptr, h'.cnt.trans h.cnt, h'.init.trans h.init,
    fun hq => ?_⟩
  obtain ⟨k1, k2, k3, k4, k5⟩ := h.queue hq
  obtain ⟨l1, l2, l3, l4, l5⟩ := h'.queue (h.type.trans hq)
  rw [h.qcb] at l1 l2 l3 l4 l5
  exact ⟨l1.trans k1, l2.trans k2, l3.trans k3, l4.trans k4, l5.trans k5⟩

theorem Made.congr {a' : Aside} {e : Nat} (h : Made a e) (hp : a'.evtPart = a.evtPart)
    (hv : a'.QueueIDVessel = a.QueueIDVessel) : Made a' e := by
  have e1 : a'.eventType = a.eventType := congrArg EvtPart.eventType hp
  have e2 : a'.eventCounter = a.eventCounter := congrArg EvtPart.eventCounter hp
  have e3 : a'.initialEventCounter = a.initialEventCounter :=
    congrArg EvtPart.initialEventCounter hp
  have e4 : a'.eventPtr = a.eventPtr := congrArg EvtPart.eventPtr hp
  have e5 : a'.qHead = a.qHead := congrArg EvtPart.qHead hp
  have e6 : a'.qTail = a.qTail := congrArg EvtPart.qTail hp
  have e7 : a'.qSize = a.qSize := congrArg EvtPart.qSize hp
  have e8 : a'.qMaxSize = a.qMaxSize := congrArg EvtPart.qMaxSize hp
  unfold Made
  rw [e1, e2, e3, e4, e5, e6, e7, e8, hv]
  exact h

theorem boot_fresh (cfg : Env) : Fresh cfg (Kernel.start cfg).aside 0 := by
  have hpos := cfg.maxEvent_pos
  have hty : ∀ e, (Kernel.start cfg).eventType e = .invalid := fun e => ite_self _
  refine ⟨rfl, rfl, rfl, rfl, rfl, rfl, rfl, fun _ => rfl, fun _ => rfl, rfl, rfl,
    ⟨Mask.within_zero _, Mask.within_zero _⟩, Nat.zero_le _,
    ?_, fun e _ he => ?_, fun _ => ?_, fun e _ => hty e, fun e he => absurd he (Nat.not_lt_zero e),
    fun e he => absurd (hty e) he, fun e _ q he => ?_⟩
  · rw [if_pos hpos]
    rfl
  · exact if_pos (by omega)
  · change (if cfg.maxEvent - 1 < cfg.maxEvent - 1 then _
      else if cfg.maxEvent - 1 = cfg.maxEvent - 1 then EventPtr.null else _) = _
    rw [if_neg (Nat.lt_irrefl _), if_pos rfl]
  · have := hty e
    rw [show (Kernel.start cfg).eventType e = .queue from he] at this
    exact nomatch this

/-- `CreatEvent` in the columns of the events. -/
def Aside.make (a : Aside) (e : Nat) (ty : EventType) (sort : Nat) (ptr : EventPtr) : Aside :=
  { a with
    FreeEventList := match a.eventPtr e with
      | .ecb e' => some e'
      | _ => none
    eventType := update a.eventType e ty
    eventSortType := update a.eventSortType e sort
    eventPtr := update a.eventPtr e ptr }

def Aside.setCounters (a : Aside) (c m : Nat → Nat) : Aside :=
  { a with eventCounter := c, initialEventCounter := m }

theorem Made.other {ty : EventType} {sort e e0 : Nat} {ptr : EventPtr} {c m : Nat → Nat}
    (h : Made a e) (hne : e ≠ e0) (hc : c e = a.eventCounter e)
    (hm : m e = a.initialEventCounter e) :
    Made ((a.make e0 ty sort ptr).setCounters c m) e := by
  have e1 : update a.eventType e0 ty e = a.eventType e := Function.update_of_ne hne ..
  have e2 : update a.eventPtr e0 ptr e = a.eventPtr e := Function.update_of_ne hne ..
  unfold Made Aside.setCounters Aside.make
  dsimp only
  rw [e1, e2, hc, hm]
  exact h

theorem Fresh.make (h : Fresh cfg a n) (hn : n < cfg.maxEvent) {ty : EventType} {sort : Nat}
    {ptr : EventPtr} {c m : Nat → Nat} (hc : ∀ e, e ≠ n → c e = a.eventCounter e)
    (hm : ∀ e, e ≠ n → m e = a.initialEventCounter e) (hsort : sort = sortFifo ∨ sort = sortPrio)
    (hmade : Made ((a.make n ty sort ptr).setCounters c m) n)
    (hq : ∀ q e, ptr = .qcb q → a.eventType e = .queue → a.eventPtr e ≠ .qcb q) :
    Fresh cfg ((a.make n ty sort ptr).setCounters c m) (n + 1) := by
  have hty : ∀ e, e ≠ n → update a.eventType n ty e = a.eventType e := fun e he =>
    Function.update_of_ne he ..
  have hpt : ∀ e, e ≠ n → update a.eventPtr n ptr e = a.eventPtr e := fun e he =>
    Function.update_of_ne he ..
  refine ⟨h.cnt, h.head, h.req, h.time, h.timer, h.moves, h.answers, h.pmail, h.pnode, h.headNode,
    h.tailNode, ⟨h.masks.rdy, h.masks.reset⟩, hn, ?_, fun e h1 h2 => ?_, fun h1 =>
      ?_, fun e he => ?_,
    fun e he => ?_, fun e he => ?_, fun e e' q h1 h2 h3 h4 => ?_⟩
  · change (match a.eventPtr n with | .ecb e' => some e' | _ => none) = _
    by_cases hl : n + 1 < cfg.maxEvent
    · rw [if_pos hl, h.chain n (Nat.le_refl n) hl]
    · have hlast := h.last hn
      rw [show cfg.maxEvent - 1 = n by omega] at hlast
      rw [if_neg hl, hlast]
  · exact (hpt e (by omega)).trans (h.chain e (by omega) h2)
  · exact (hpt _ (by omega)).trans (h.last hn)
  · exact (hty e (by omega)).trans (h.raw e (by omega))
  · by_cases hen : e = n
    · rw [hen]
      exact hmade
    · exact (h.made e (by omega)).other hen (hc e hen) (hm e hen)
  · change update a.eventSortType n sort e = _ ∨ update a.eventSortType n sort e = _
    by_cases hen : e = n
    · rw [hen, Function.update_self]
      exact hsort
    · rw [Function.update_of_ne hen]
      exact h.sort e (by rw [← hty e hen]; exact he)
  · change update a.eventType n ty e = .queue at h1
    change update a.eventType n ty e' = .queue at h2
    change update a.eventPtr n ptr e = .qcb q at h3
    change update a.eventPtr n ptr e' = .qcb q at h4
    by_cases hen : e = n
    · by_cases hen' : e' = n
      · rw [hen, hen']
      · rw [hen, Function.update_self] at h3
        rw [hty e' hen'] at h2
        rw [hpt e' hen'] at h4
        exact absurd h4 (hq q e' h3 h2)
    · rw [hty e hen] at h1
      rw [hpt e hen] at h3
      by_cases hen' : e' = n
      · rw [hen', Function.update_self] at h4
        exact absurd h3 (hq q e h4 h1)
      · rw [hty e' hen'] at h2
        rw [hpt e' hen'] at h4
        exact h.queues e e' q h1 h2 h3 h4

/-- A queue block is taken. -/
def Aside.block (a : Aside) (i size : Nat) : Aside :=
  { a with
    QueueIDVessel := update a.QueueIDVessel i true
    qHead := update a.qHead i 0
    qTail := update a.qTail i 0
    qMaxSize := update a.qMaxSize i size
    qSize := update a.qSize i 0 }

theorem Fresh.block (h : Fresh cfg a n) {i : Nat} (hi : a.QueueIDVessel i = false) (size : Nat) :
    Fresh cfg (a.block i size) n := by
  refine ⟨h.cnt, h.head, h.req, h.time, h.timer, h.moves, h.answers, h.pmail, h.pnode, h.headNode,
    h.tailNode, ⟨h.masks.rdy, h.masks.reset⟩, h.le, h.list, h.chain, h.last, h.raw, fun e he =>
      ?_, h.sort, h.queues⟩
  have hm := h.made e he
  unfold Made at hm ⊢
  change match a.eventType e with | .sem => _ | .mbox => _ | .queue => _ | .invalid => _
  cases hty : a.eventType e with
  | sem =>
    rw [hty] at hm
    exact hm
  | mbox =>
    rw [hty] at hm
    exact hm
  | queue =>
    rw [hty] at hm
    obtain ⟨q, h1, h2, h3⟩ := hm
    have hqi : q ≠ i := by
      rintro rfl
      rw [hi] at h2
      exact nomatch h2
    refine ⟨q, h1, (Function.update_of_ne hqi ..).trans h2, ?_⟩
    change update a.qHead i 0 q = 0 ∧ update a.qTail i 0 q = 0 ∧ update a.qSize i 0 q = 0 ∧
      0 < update a.qMaxSize i size q ∧ update a.qMaxSize i size q < 65536
    rw [Function.update_of_ne hqi, Function.update_of_ne hqi, Function.update_of_ne hqi,
      Function.update_of_ne hqi]
    exact h3
  | invalid => trivial

/-- The queues that exist have other blocks. -/
theorem Fresh.block_same (h : Fresh cfg a n) {i : Nat} (hi : a.QueueIDVessel i = false) (size : Nat)
    {e : Nat} (he : e < n) : SameEvent a (a.block i size) e := by
  refine ⟨rfl, rfl, rfl, rfl, fun hq => ?_⟩
  have hm := h.made e he
  unfold Made at hm
  rw [hq] at hm
  obtain ⟨q, h1, h2, -⟩ := hm
  have hqi : a.qcb e ≠ i := by
    unfold Aside.qcb
    rw [h1]
    rintro rfl
    rw [hi] at h2
    exact nomatch h2
  exact ⟨rfl, Function.update_of_ne hqi .., Function.update_of_ne hqi ..,
    Function.update_of_ne hqi .., Function.update_of_ne hqi ..⟩

theorem make_same {ty : EventType} {sort e e0 : Nat} {ptr : EventPtr} {c m : Nat → Nat}
    (hne : e ≠ e0) (hc : c e = a.eventCounter e) (hm : m e = a.initialEventCounter e) :
    SameEvent a ((a.make e0 ty sort ptr).setCounters c m) e :=
  ⟨Function.update_of_ne hne .., Function.update_of_ne hne .., hc, hm,
    fun _ => ⟨rfl, rfl, rfl, rfl, rfl⟩⟩

end Fresh

end CoOS
