/-
  Start-up: `CoInitOS`, the creation of tasks and objects, and `CoStartOS`. Until `CoStartOS`
  the scheduler is locked and nobody runs (`Before`); after it the invariant of runs holds, and
  the objects are as they were created (`Booted`).
-/
import CoOS.Run.Start

namespace CoOS

open Function (update)
open DList KeyOrder

/-! ## The creating functions -/

section Before

variable {cfg : Env} {k k' : Kernel} {g : Ghost} {n n' : Nat}

theorem Before.congr (h : Before cfg k g n) (hv : k'.view = k.view) (hc : k'.cpu = k.cpu)
    (hf : Fresh cfg k'.aside n') : Before cfg k' g n' := by
  have hm : k'.mutexID = k.mutexID := congrArg KView.mutexID hv
  refine ⟨h.coh.congr hv, (congrArg Cpu.TCBRunning hc).trans h.running,
    (congrArg Cpu.TCBNext hc).trans h.next, (congrArg Cpu.OSSchedLock hc).trans h.lock,
      h.dly, h.evt, h.mtx, ?_, hf⟩
  rw [hm]
  exact h.mutex

theorem Before.locked (h : Before cfg k g n) : k.OSSchedLock ≠ 0 := by
  rw [h.lock]
  decide

theorem Before.lists (h : Before cfg k g n) : k.eventTCBList = fun _ => none := by
  funext e
  have := (h.coh.rep.evt.single e).head
  rw [show g.evt.lst e = [] by rw [h.evt]] at this
  exact this

/-- The `n` events that exist stay as they are; there may be others then. -/
def Adds (k k' : Kernel) (n n' : Nat) : Prop := n ≤ n' ∧ ∀ e, e < n → SameEvent k.aside k'.aside e

theorem adds_refl (k : Kernel) (n : Nat) : Adds k k n n :=
  ⟨Nat.le_refl n, fun e _ => SameEvent.refl _ e⟩

theorem Adds.trans {k'' : Kernel} {n'' : Nat} (h : Adds k k' n n') (h' : Adds k' k'' n' n'') :
    Adds k k'' n n'' :=
  ⟨Nat.le_trans h.1 h'.1, fun e he => (h.2 e he).trans (h'.2 e (Nat.lt_of_lt_of_le he h.1))⟩

/-- A step of the set-up: the state stays as it is, apart from the objects. -/
def Makes (cfg : Env) (k : Kernel) (g : Ghost) (n : Nat) (k' : Kernel) : Prop :=
  k'.TaskSchedReq = k.TaskSchedReq ∧ ∃ n', Before cfg k' g n' ∧ Adds k k' n n'

theorem Before.makes (h : Before cfg k g n) : Makes cfg k g n k := ⟨rfl, n, h, adds_refl k n⟩

def Kernel.make (k : Kernel) (e : Nat) (ty : EventType) (sort : Nat) (ptr : EventPtr) : Kernel :=
  { k with
    FreeEventList := match k.eventPtr e with
      | .ecb e' => some e'
      | _ => none
    eventType := update k.eventType e ty
    eventSortType := update k.eventSortType e sort
    eventPtr := update k.eventPtr e ptr }

theorem creatEvent_locked (h : Before cfg k g n) (ty : EventType) (sort : Nat) (ptr : EventPtr) :
    creatEvent cfg k ty sort ptr =
    some (if n < cfg.maxEvent then (k.make n ty (sort % 16) ptr, some n)
      else (k, none)) := by
  have hfree : k.FreeEventList = if n < cfg.maxEvent then some n else none := h.fresh.list
  unfold creatEvent
  dsimp only
  rw [show (osSchedLock k).FreeEventList = k.FreeEventList from rfl, hfree]
  by_cases hn : n < cfg.maxEvent
  · rw [if_pos hn, if_pos hn]
    dsimp only
    have hu := @lock_unlock cfg { k with FreeEventList := match k.eventPtr n with
      | .ecb e' => some e'
      | _ => none } h.fresh.req (Or.inl h.locked)
    refine (congrArg (fun o => Option.bind o _) hu).trans ?_
    rw [Option.bind_some]
    have hl : update k.eventTCBList n none = k.eventTCBList := by
      rw [h.lists]
      exact Function.update_eq_self n _
    unfold Kernel.make
    rw [hl]
  · rw [if_neg hn, if_neg hn]
    dsimp only
    refine (congrArg (fun o => Option.bind o _)
      (lock_unlock h.fresh.req (Or.inl h.locked))).trans ?_
    rfl

theorem coCreateSem_makes (h : Before cfg k g n) {initCnt maxCnt sort : Nat} (hm : maxCnt < 65536) :
    ∃ k' i, coCreateSem cfg k initCnt maxCnt sort = some (k', i) ∧ Makes cfg k g n k' := by
  unfold coCreateSem
  split
  · exact ⟨k, _, rfl, h.makes⟩
  next hg =>
  rw [not_or] at hg
  rw [creatEvent_locked h]
  by_cases hn : n < cfg.maxEvent
  · rw [if_pos hn]
    have hsort : sort % 16 = sortFifo ∨ sort % 16 = sortPrio := by
      by_contra hc
      refine hg.2 ⟨?_, ?_⟩
      · rintro rfl
        exact hc (Or.inl rfl)
      · rintro rfl
        exact hc (Or.inr rfl)
    have hmade : Made ((k.aside.make n .sem (sort % 16) .null).setCounters
        (update k.eventCounter n initCnt) (update k.initialEventCounter n maxCnt)) n := by
      unfold Made Aside.setCounters Aside.make
      dsimp only
      rw [Function.update_self, Function.update_self, Function.update_self]
      exact ⟨Nat.le_of_not_lt hg.1, hm⟩
    have hf := h.fresh.make hn (fun e he => Function.update_of_ne he ..)
      (fun e he => Function.update_of_ne he ..) hsort hmade (fun q e hp => nomatch hp)
    exact ⟨_, _, rfl, rfl, n + 1, h.congr rfl rfl hf, Nat.le_succ n, fun e he => make_same
      (Nat.ne_of_lt he) (Function.update_of_ne (Nat.ne_of_lt he) ..)
      (Function.update_of_ne (Nat.ne_of_lt he) ..)⟩
  · rw [if_neg hn]
    exact ⟨k, _, rfl, h.makes⟩

theorem coCreateMbox_makes (h : Before cfg k g n) {sort : Nat}
    (hsort : sort % 16 = sortFifo ∨ sort % 16 = sortPrio) :
    ∃ k' i, coCreateMbox cfg k sort = some (k', i) ∧ Makes cfg k g n k' := by
  unfold coCreateMbox
  rw [creatEvent_locked h]
  by_cases hn : n < cfg.maxEvent
  · rw [if_pos hn]
    have hmade : Made ((k.aside.make n .mbox (sort % 16) .null).setCounters
      (update k.eventCounter n 0)
        k.initialEventCounter) n := by
      unfold Made Aside.setCounters Aside.make
      dsimp only
      rw [Function.update_self, Function.update_self, Function.update_self]
      exact ⟨rfl, rfl⟩
    have hf :=
      h.fresh.make hn (fun e he => Function.update_of_ne he ..) (fun e _ => rfl) hsort hmade
      (fun q e hp => nomatch hp)
    exact ⟨_, _, rfl, rfl, n + 1, h.congr rfl rfl hf, Nat.le_succ n, fun e he => make_same
      (Nat.ne_of_lt he) (Function.update_of_ne (Nat.ne_of_lt he) ..) rfl⟩
  · rw [if_neg hn]
    exact ⟨k, _, rfl, h.makes⟩

/-- The queue block `i` as `CoCreateQueue` takes it. -/
def Kernel.block (k : Kernel) (i size : Nat) : Kernel :=
  { k with
    QueueIDVessel := update k.QueueIDVessel i true
    qId := update k.qId i i
    qHead := update k.qHead i 0
    qTail := update k.qTail i 0
    qMaxSize := update k.qMaxSize i size
    qSize := update k.qSize i 0 }

theorem Before.block (h : Before cfg k g n) {i : Nat} (hi : freeQueue k cfg.maxQueue 0 = some i)
    (size : Nat) : Before cfg (k.block i size) g n :=
  h.congr rfl rfl (h.fresh.block (freeQueue_free _ 0 hi) size)

theorem coCreateQueue_locked (h : Before cfg k g n) {qStart size : Nat}
    (hg : ¬ (qStart = 0 ∨ size = 0))
    (sort : Nat) :
    coCreateQueue cfg k qStart size sort = some (match freeQueue k cfg.maxQueue 0 with
      | none => (k, INVALID_ID)
      | some i => if n < cfg.maxEvent then ((k.block i size).make n .queue (sort % 16) (.qcb i), n)
        else (k.block i size, INVALID_ID)) := by
  unfold coCreateQueue
  rw [if_neg hg]
  dsimp only
  rw [show freeQueue (osSchedLock k) cfg.maxQueue 0 = freeQueue k cfg.maxQueue 0 from
    @freeQueue_congr k (osSchedLock k) cfg.maxQueue rfl 0]
  cases hq : freeQueue k cfg.maxQueue 0 with
  | none =>
    dsimp only
    rw [lock_unlock h.fresh.req (Or.inl h.locked)]
    rfl
  | some i =>
    dsimp only
    have hcode : (osSchedUnlock cfg { osSchedLock k with
        QueueIDVessel := update (osSchedLock k).QueueIDVessel i true }) =
        some { k with QueueIDVessel := update k.QueueIDVessel i true } :=
      @lock_unlock cfg { k with QueueIDVessel := update k.QueueIDVessel i true } h.fresh.req
        (Or.inl h.locked)
    rw [hcode]
    change (creatEvent cfg (k.block i size) .queue sort (.qcb i)).bind _ = _
    rw [creatEvent_locked (h.block hq size)]
    split
    · rfl
    · rfl

theorem coCreateQueue_makes (h : Before cfg k g n) {qStart size sort : Nat} (hs : size < 65536)
    (hsort : sort % 16 = sortFifo ∨ sort % 16 = sortPrio) :
    ∃ k' i, coCreateQueue cfg k qStart size sort = some (k', i) ∧ Makes cfg k g n k' := by
  by_cases hg : qStart = 0 ∨ size = 0
  · unfold coCreateQueue
    rw [if_pos hg]
    exact ⟨k, _, rfl, h.makes⟩
  rw [coCreateQueue_locked h hg]
  rw [not_or] at hg
  cases hq : freeQueue k cfg.maxQueue 0 with
  | none => exact ⟨k, _, rfl, h.makes⟩
  | some i =>
    dsimp only
    have hi : k.aside.QueueIDVessel i = false := freeQueue_free _ 0 hq
    let k1 := k.block i size
    have h1 : Before cfg k1 g n := h.block hq size
    by_cases hn : n < cfg.maxEvent
    · rw [if_pos hn]
      have hmade : Made ((k1.aside.make n .queue (sort % 16) (.qcb i)).setCounters k.eventCounter
          k.initialEventCounter) n := by
        unfold Made Aside.setCounters Aside.make
        dsimp only
        rw [Function.update_self, Function.update_self]
        refine ⟨i, rfl, Function.update_self .., Function.update_self .., Function.update_self ..,
          Function.update_self .., ?_⟩
        change 0 < update k.qMaxSize i size i ∧ update k.qMaxSize i size i < 65536
        rw [Function.update_self]
        exact ⟨Nat.pos_of_ne_zero hg.2, hs⟩
      have hnew : ∀ q e, EventPtr.qcb i = .qcb q → k1.aside.eventType e = .queue →
          k1.aside.eventPtr e ≠ .qcb q := by
        intro q e hp ht hpe
        have hen : e < n := by
          by_contra hc
          have := h.fresh.raw e (Nat.le_of_not_lt hc)
          rw [show k.aside.eventType e = .queue from ht] at this
          exact nomatch this
        have hm := h.fresh.made e hen
        unfold Made at hm
        rw [show k.aside.eventType e = .queue from ht] at hm
        obtain ⟨q', e1, e2, -⟩ := hm
        rw [show k.aside.eventPtr e = .qcb q from hpe] at e1
        cases e1
        cases hp
        rw [hi] at e2
        exact nomatch e2
      have hf := h1.fresh.make hn (fun e _ => rfl) (fun e _ => rfl) hsort hmade hnew
      exact ⟨_, _, rfl, rfl, n + 1, h1.congr rfl rfl hf, Nat.le_succ n, fun e he =>
        (h.fresh.block_same hi size he).trans (make_same (Nat.ne_of_lt he) rfl rfl)⟩
    · rw [if_neg hn]
      exact ⟨k1, _, rfl, rfl, n, h1, Nat.le_refl n, fun e he => h.fresh.block_same hi size he⟩

theorem within_addFlag {i b : Nat} (hb : b ≤ 1) (x : BitVec 32) :
    Mask.Within (BitVec.ofNat 32 b <<< i) (x ||| flagBit i) := by
  have h01 : b = 0 ∨ b = 1 := by omega
  rcases h01 with rfl | rfl
  · rw [show BitVec.ofNat 32 0 <<< i = 0 from BitVec.zero_shiftLeft i]
    exact Mask.within_zero _
  · exact Mask.within_or x (flagBit i)

theorem MasksOk.addFlag {d : Data} (h : MasksOk d.aside) {auto init : Nat} (ha : auto ≤ 1)
    (hi : init ≤ 1) (i : Nat) : MasksOk (d.addFlag i auto init).aside :=
  ⟨(h.rdy.or_right _).or (within_addFlag hi _), (h.reset.or_right _).or (within_addFlag ha _)⟩

theorem Fresh.addFlag (h : Fresh cfg k.aside n) {auto init : Nat} (ha : auto ≤ 1) (hi : init ≤ 1)
    (i : Nat) : Fresh cfg ((k.data g).addFlag i auto init).aside n :=
  ⟨h.cnt, h.head, h.req, h.time, h.timer, h.moves, h.answers, h.pmail, h.pnode, h.headNode,
    h.tailNode, MasksOk.addFlag (d := k.data g) h.masks ha hi i, h.le, h.list, h.chain,
      h.last, h.raw, fun e he => (h.made e he).congr rfl rfl, h.sort, h.queues⟩

theorem coCreateFlag_makes (h : Before cfg k g n) {auto init : Nat} (ha : auto ≤ 1)
    (hi : init ≤ 1) :
    ∃ k' i, coCreateFlag cfg k auto init = some (k', i) ∧ Makes cfg k g n k' := by
  unfold coCreateFlag
  dsimp only
  rw [show (osSchedLock k).flagActive = k.flagActive from rfl]
  cases freeFlag k.flagActive FLAG_MAX_NUM 0 with
  | none =>
    dsimp only
    rw [lock_unlock h.fresh.req (Or.inl h.locked)]
    exact ⟨k, _, rfl, h.makes⟩
  | some i =>
    dsimp only
    have hu := @lock_unlock cfg { k with
      flagActive := k.flagActive ||| flagBit i
      flagRdy := k.flagRdy ||| (BitVec.ofNat 32 init <<< i)
      resetOpt := k.resetOpt ||| (BitVec.ofNat 32 auto <<< i) } h.fresh.req (Or.inl h.locked)
    refine ⟨_, i, (congrArg (fun o => Option.bind o _) hu).trans rfl, rfl, n, h.congr rfl rfl ?_,
      Nat.le_refl n, fun e _ => ⟨rfl, rfl, rfl, rfl, fun _ => ⟨rfl, rfl, rfl, rfl, rfl⟩⟩⟩
    exact @Fresh.addFlag cfg k g n h.fresh auto init ha hi i

theorem coCreateMutex_makes (h : Before cfg k g n) :
    ∃ k' i, coCreateMutex cfg k = some (k', i) ∧ Makes cfg k g n k' := by
  unfold coCreateMutex
  dsimp only
  split
  · have hu := @lock_unlock cfg { k with MutexFreeID := k.MutexFreeID + 1 } h.fresh.req
      (Or.inl h.locked)
    have hw : update k.waittingList k.MutexFreeID none = k.waittingList := by
      have hnone : k.waittingList k.MutexFreeID = none := by
        have := (h.coh.rep.tcb.single (.mtx k.MutexFreeID)).head
        rw [h.mtx] at this
        exact this
      conv_lhs => rw [← hnone]
      exact Function.update_eq_self _ _
    refine ⟨_, _, (congrArg (fun o => Option.bind o _) hu).trans rfl, rfl, n, h.congr ?_ rfl ?_,
      Nat.le_refl n, fun e _ => ⟨rfl, rfl, rfl, rfl, fun _ => ⟨rfl, rfl, rfl, rfl, rfl⟩⟩⟩
    · unfold Kernel.view Kernel.tcbCols Kernel.tcbHead
      dsimp only
      rw [hw]
      rfl
    · have hf := h.fresh
      exact ⟨hf.cnt, hf.head, hf.req, hf.time, hf.timer, hf.moves, hf.answers, hf.pmail, hf.pnode,
        hf.headNode, hf.tailNode, ⟨hf.masks.rdy, hf.masks.reset⟩, hf.le, hf.list, hf.chain,
          hf.last, hf.raw, fun e he => (hf.made e he).congr rfl rfl, hf.sort, hf.queues⟩
  · rw [lock_unlock h.fresh.req (Or.inl h.locked)]
    exact ⟨k, _, rfl, h.makes⟩

theorem Fresh.create (h : Fresh cfg k.aside n) (t p : Nat) :
    Fresh cfg ((k.data g).create t p true).aside n := by
  have hu : ∀ {α : Type} {f : Nat → α} {c : α}, (∀ u, f u = c) → ∀ u, update f t c u = c := by
    intro α f c hf u
    by_cases hut : u = t
    · rw [hut, Function.update_self]
    · rw [Function.update_of_ne hut]
      exact hf u
  refine ⟨h.cnt, h.head, h.req, h.time, h.timer, h.moves, h.answers, hu h.pmail,
    hu h.pnode, h.headNode,
    h.tailNode, ⟨h.masks.rdy, h.masks.reset⟩, h.le, h.list, h.chain, h.last, h.raw, fun e he =>
      ?_, h.sort, h.queues⟩
  exact h.made e he

theorem New.before {g' : Ghost} {t p : Nat} (hn : New cfg k k' g g' t p) (h : Before cfg k g n) :
    Before cfg k' g' n := by
  have ha := hn.aside
  have hm : k'.mutexID = update k.mutexID t INVALID_ID := congrArg Aside.mutexID ha
  refine ⟨hn.coh, (congrArg Cpu.TCBRunning hn.cpu).trans h.running,
    (congrArg Cpu.TCBNext hn.cpu).trans h.next, (congrArg Cpu.OSSchedLock hn.cpu).trans h.lock,
    hn.dly.trans h.dly, hn.evt.trans h.evt, fun m => (hn.mtx m).trans (h.mtx m), fun u hu => ?_, ?_⟩
  · rw [hm]
    by_cases hut : u = t
    · rw [hut, Function.update_self]
    · rw [Function.update_of_ne hut]
      refine h.mutex u ⟨hu.1, ?_⟩
      rw [← hn.loc u hut]
      exact hu.2
  · rw [ha]
    exact h.fresh.create t p

/-- The task that a result of `CreateTask` stands for. -/
def newTask (i : Nat) : List Nat := if i = INVALID_ID then [] else [i]

/-- The task that one of the creations makes. -/
def Setup.born (cfg : Env) (k : Kernel) : Setup → List Nat
  | .task entry stk parameter => ((createTask cfg k entry stk parameter).map (newTask ·.2)).getD []
  | _ => []

/-- The tasks that the creations `us` make, from `k` on. -/
def bornIn (cfg : Env) : Kernel → List Setup → List Nat
  | _, [] => []
  | k, u :: us => u.born cfg k ++ ((u.exec cfg k).map fun k => bornIn cfg k us).getD []

/-- The tasks that exist when the run begins: the idle task and those that were created. -/
def bootTasks (cfg : Env) (i : Idle) (us : List Setup) : List Nat :=
  0 :: ((coInitOS cfg.served Kernel.zero i.task i.stk i.stkSz).map fun k =>
    bornIn cfg.served k us).getD []

/-- The idle task has been created. -/
structure Ready0 (k : Kernel) (g : Ghost) : Prop where
  req : k.TaskSchedReq = true
  idle : g.tcb.loc 0 = some .rdy

theorem createTask_makes (h : Before cfg k g n) (h0 : Ready0 k g) (task stk parameter : Nat) :
    ∃ k' i g', createTask cfg k task stk parameter = some (k', i) ∧ Before cfg k' g' n ∧
      Ready0 k' g' ∧ Adds k k' n n ∧ ∀ u, Live cfg g' u ↔ u ∈ newTask i ∨ Live cfg g u := by
  have hnone : ∀ u, Live cfg g u ↔ u ∈ newTask INVALID_ID ∨ Live cfg g u := fun u =>
    ⟨Or.inr, fun e => e.resolve_left List.not_mem_nil⟩
  by_cases hbad : task = 0 ∨ stk = 0 ∨ cfg.lowestPrio < parameter &&& 0xff ∨
      (parameter &&& 0xfff00) >>> 8 < 20
  · exact ⟨k, INVALID_ID, g, if_pos hbad, h, h0, adds_refl k n, hnone⟩
  · have hhead : k.FreeTCB = (g.tcb.lst .free).head? := (h.coh.rep.tcb.single .free).head
    cases hl : g.tcb.lst .free with
    | nil =>
      refine ⟨k, INVALID_ID, g, ?_, h, h0, adds_refl k n, hnone⟩
      unfold createTask
      dsimp only
      rw [if_neg hbad, assignTCB_locked h.locked h.fresh.req, hhead, hl]
      rfl
    | cons t l =>
      simp only [not_or, Nat.not_lt] at hbad
      obtain ⟨b1, b2, b3, b4⟩ := hbad
      obtain ⟨k', g', e1, e2, -⟩ := createTask_locked h.coh h.locked h.fresh.req b1 b2 b3 b4 hl
      have ht0 : (0 : Nat) ≠ t := by
        rintro rfl
        have := (h.coh.rep.tcb.mem .free 0).mp (by rw [hl]; exact List.mem_cons_self)
        rw [h0.idle] at this
        exact nomatch this
      have hti : t ≠ INVALID_ID := by
        have h1 := e2.live.1
        have h2 := cfg.maxUserTasks_le
        unfold Config.tasks at h1
        unfold INVALID_ID
        omega
      refine ⟨k', t, g', e1, e2.before h, ⟨e2.req h0.req, (e2.loc 0 ht0).trans h0.idle⟩,
        ⟨Nat.le_refl n, fun e _ => ?_⟩, fun u => ?_⟩
      · rw [e2.aside]
        exact ⟨rfl, rfl, rfl, rfl, fun _ => ⟨rfl, rfl, rfl, rfl, rfl⟩⟩
      · rw [e2.live_iff, newTask, if_neg hti, List.mem_singleton]

theorem Setup.exec_makes (h : Before cfg k g n) (h0 : Ready0 k g) {u : Setup} (hu : u.Valid) :
    ∃ k' g' n', u.exec cfg k = some k' ∧ Before cfg k' g' n' ∧ Ready0 k' g' ∧ Adds k k' n n' ∧
      ∀ t, Live cfg g' t ↔ t ∈ u.born cfg k ∨ Live cfg g t := by
  have hend : ∀ {res : Option (Kernel × Nat)}, (∃ k' i, res = some (k', i) ∧ Makes cfg k g n k') →
      ∃ k' g' n', res.map Prod.fst = some k' ∧ Before cfg k' g' n' ∧ Ready0 k' g' ∧ Adds k k' n n' ∧
        ∀ t, Live cfg g' t ↔ t ∈ ([] : List Nat) ∨ Live cfg g t := by
    rintro res ⟨k', i, rfl, e1, n', e2, e3⟩
    exact ⟨k', g, n', rfl, e2, ⟨e1.trans h0.req, h0.idle⟩, e3,
      fun t => ⟨Or.inr, fun e => e.resolve_left List.not_mem_nil⟩⟩
  cases u with
  | task entry stk parameter =>
    obtain ⟨k', i, g', e1, e2, e3, e4, e5⟩ := createTask_makes h h0 entry stk parameter
    refine ⟨k', g', n, congrArg (Option.map Prod.fst) e1, e2, e3, e4, fun t => ?_⟩
    have hb : (Setup.task entry stk parameter).born cfg k = newTask i :=
      congrArg (fun o => (o.map (newTask ·.2)).getD []) e1
    rw [hb]
    exact e5 t
  | sem initCnt maxCnt sort => exact hend (coCreateSem_makes h hu)
  | mbox sort => exact hend (coCreateMbox_makes h hu)
  | queue qStart size sort => exact hend (coCreateQueue_makes h hu.1 hu.2)
  | flag auto init => exact hend (coCreateFlag_makes h hu.1 hu.2)
  | mutex => exact hend (coCreateMutex_makes h)

theorem setUp_makes (us : List Setup) : ∀ {k : Kernel} {g : Ghost} {n : Nat}, Before cfg k g n →
    Ready0 k g → (∀ u ∈ us, u.Valid) →
    ∃ k' g' n', setUp cfg k us = some k' ∧ Before cfg k' g' n' ∧ Ready0 k' g' ∧ Adds k k' n n' ∧
      ∀ t, Live cfg g' t ↔ t ∈ bornIn cfg k us ∨ Live cfg g t := by
  induction us with
  | nil =>
    intro k g n h h0 _
    exact ⟨k, g, n, rfl, h, h0, adds_refl k n,
      fun t => ⟨Or.inr, fun e => e.resolve_left List.not_mem_nil⟩⟩
  | cons u us ih =>
    intro k g n h h0 hu
    obtain ⟨k1, g1, n1, e1, e2, e3, e4, e5⟩ := Setup.exec_makes h h0 (hu u List.mem_cons_self)
    obtain ⟨k2, g2, n2, f1, f2, f3, f4, f5⟩ := ih e2 e3 fun v hv => hu v (List.mem_cons_of_mem u hv)
    refine ⟨k2, g2, n2, ?_, f2, f3, e4.trans f4, fun t => ?_⟩
    · unfold setUp at f1 ⊢
      rw [List.foldlM_cons, e1]
      exact f1
    · unfold bornIn
      rw [f5 t, e5 t, e1, List.mem_append]
      exact or_left_comm.trans or_assoc.symm

end Before

/-! ## `CoInitOS` and `CoStartOS` -/

section Boot

variable {cfg : Env} {k : Kernel} {g : Ghost} {n : Nat}

theorem start_before (cfg : Env) : Before cfg (Kernel.start cfg) (Ghost.start cfg) 0 :=
  ⟨start_coh cfg, rfl, rfl, rfl, rfl, rfl, fun _ => rfl,
    fun t ht => absurd ht (start_not_live cfg t),
    boot_fresh cfg⟩

/-- The fields of the word that `CoCreateTask` builds. -/
theorem parameter_fields {p sz : Nat} (hp : p < 256) (hs : sz < 4096) :
    (p ||| ((sz <<< 8) &&& 0x000FFF00)) &&& 0xff = p ∧
      ((p ||| ((sz <<< 8) &&& 0x000FFF00)) &&& 0xfff00) >>> 8 = sz ∧
      (p ||| ((sz <<< 8) &&& 0x000FFF00)) >>> 31 = 0 := by
  have hlow : (sz <<< 8) &&& 0x000FFF00 = sz <<< 8 := by
    rw [show (0x000FFF00 : Nat) = 0xfff <<< 8 from rfl, ← Nat.shiftLeft_and_distrib]
    rw [show (0xfff : Nat) = 2 ^ 12 - 1 from rfl, Nat.and_two_pow_sub_one_eq_mod,
      Nat.mod_eq_of_lt hs]
  have hsum : p ||| sz <<< 8 = sz * 256 + p := by
    rw [Nat.lor_comm, ← Nat.shiftLeft_add_eq_or_of_lt (show p < 2 ^ 8 from hp), Nat.shiftLeft_eq]
  have hx : ((sz * 256 + p) &&& 0xfff00) >>> 8 = ((sz * 256 + p) >>> 8) &&& 0xfff := by
    rw [Nat.shiftRight_and_distrib]
    rfl
  rw [hlow, hsum]
  refine ⟨?_, ?_, ?_⟩
  · rw [show (0xff : Nat) = 2 ^ 8 - 1 from rfl, Nat.and_two_pow_sub_one_eq_mod]
    omega
  · rw [hx, show (0xfff : Nat) = 2 ^ 12 - 1 from rfl, Nat.and_two_pow_sub_one_eq_mod,
      Nat.shiftRight_eq_div_pow]
    omega
  · rw [Nat.shiftRight_eq_div_pow]
    omega

theorem coInitOS_spec (cfg : Env) (i : Idle) :
    ∃ k g, coInitOS cfg Kernel.zero i.task i.stk i.stkSz = some k ∧ Before cfg k g 0 ∧
      Ready0 k g ∧ ∀ t, Live cfg g t ↔ t = 0 := by
  have hlp : cfg.lowestPrio < 256 := by
    have := cfg.lowestPrio_le
    omega
  obtain ⟨p1, p2, p3⟩ := parameter_fields hlp i.stkSz_lt
  have h := start_before cfg
  have hfree : (Ghost.start cfg).tcb.lst .free = 0 :: (List.range cfg.maxUserTasks).map Nat.succ :=
    List.range_succ_eq_map
  obtain ⟨k', g', e1, e2, e3⟩ := @createTask_locked cfg _ _ _ _ h.coh h.locked
    h.fresh.req i.task i.stk (cfg.lowestPrio ||| ((i.stkSz <<< 8) &&& 0x000FFF00))
      i.task_ne i.stk_ne
    (by rw [p1]) (by rw [p2]; have := i.stkSz_ge; omega) hfree
  obtain ⟨e4, e5⟩ := e3 p3
  refine ⟨k', g', ?_, e2.before h, ⟨e5 rfl, e4⟩, fun t => ?_⟩
  · exact congrArg (fun o => Option.bind o _) e1
  · rw [e2.live_iff]
    exact ⟨fun e => e.resolve_right (start_not_live cfg t), Or.inl⟩

/-- The state in which a run begins. -/
structure Booted (cfg : Env) (m : Sys) (g : Ghost) (r : Nat) : Prop where
  inv : Inv cfg m g r []
  fresh : ∃ n, Fresh cfg.served m.k.aside n
  evt : g.evt = ⟨fun _ => [], fun _ => none⟩
  timed : ∀ t, g.tcb.loc t ≠ some .dly
  cont : m.cont = fun _ => .none
  log : m.log = []

theorem Fresh.flagList (h : Fresh cfg k.aside n) : FlagList k.aside [] :=
  ⟨isDList_nil h.headNode, h.tailNode, fun _ ht => absurd ht List.not_mem_nil, fun t _ x e => by
    rw [h.pnode t] at e
    exact nomatch e⟩

theorem coStartOS_spec (h : Before cfg k g n) (h0 : Ready0 k g) :
    ∃ k' g' r, coStartOS cfg k = some k' ∧ Stable cfg (takeSwitch k') g' r ∧
      (takeSwitch k').aside = k.aside ∧ RdyFrame g g' ∧ g'.evt = g.evt := by
  let k0 : Kernel := { k with
    TCBRunning := some 0
    TCBNext := some 0
    state := update k.state 0 .RUNNING }
  have hrep0 : Rep cfg k0 g := h.coh.rep.congr rfl rfl rfl rfl rfl
  obtain ⟨T, h1, h2⟩ := hrep0.unready h0.idle
  have hno : ∀ a, Live cfg g a → a ≠ 0 → k.state a ≠ .RUNNING := by
    intro a ha _ hr
    have := h.coh.run a ha hr
    rw [h.next] at this
    exact nomatch this
  have hcoh := h.coh.dispatch h0.idle hno (h2.congr rfl rfl rfl rfl rfl) k.OSCheckTime
  let k1 := k0.unreadied (k0.rdyLinks.unlink 0) T
  have hp : Pending cfg k1 (g.unready 0) 0 := by
    refine ⟨hcoh.congr rfl, Nat.succ_pos _, rfl, rfl, ?_, Or.inl h0.req, ?_, Or.inr ⟨?_, ?_⟩⟩
    · change 0 < k.OSSchedLock
      rw [h.lock]
      exact Nat.one_pos
    · rw [show (g.unready 0).dly = [] from h.dly]
      exact fun _ x hx => absurd hx List.not_mem_nil
    · exact Family.take_loc_self (g.tcb) _
    · exact Function.update_self (0 : Nat) TaskState.RUNNING k.state
  obtain ⟨k', g', r, e1, e2, e3, -, e5⟩ := osSchedUnlock_spec hp h.fresh.req h.lock
  refine ⟨k', g', r, ?_, e5, ?_, (rdyFrame_unready h0.idle).trans e3, e3.evt⟩
  · unfold coStartOS
    change (removeFromTCBRdyList cfg k0 0).bind _ = _
    rw [h1]
    exact e1
  · exact e2.aside.trans (unreadied_aside k0 (k0.rdyLinks.unlink 0) T)

/-- **Start-up** succeeds, and leaves a state from which the invariant of runs holds. -/
theorem boot_spec (cfg : Env) (i : Idle) {us : List Setup} (hu : ∀ u ∈ us, u.Valid) :
    ∃ m g r, boot cfg i us = some m ∧ Booted cfg m g r ∧
      ∀ t, Live cfg.served g t ↔ t ∈ bootTasks cfg i us := by
  obtain ⟨k1, g1, e1, e2, e3, e4⟩ := coInitOS_spec cfg.served i
  obtain ⟨k2, g2, n, f1, f2, f3, -, f5⟩ := setUp_makes us e2 e3 hu
  obtain ⟨k3, g3, r, i1, i2, i3, i4, i5⟩ := coStartOS_spec f2 f3
  have hf : Fresh cfg.served (takeSwitch k3).aside n := by
    rw [i3]
    exact f2.fresh
  have hmtx : ∀ t m, g3.tcb.loc t ≠ some (.mtx m) := by
    intro t m e
    have h2 := (i4.loc t (.mtx m) fun e => nomatch e).mp e
    have := (f2.coh.rep.tcb.mem (.mtx m) t).mpr h2
    rw [f2.mtx m] at this
    exact List.not_mem_nil this
  have hmid : (takeSwitch k3).mutexID = k2.mutexID := congrArg Aside.mutexID i3
  refine ⟨⟨takeSwitch k3, fun _ => .none, []⟩, g3, r, ?_, ⟨⟨i2, ⟨hf.flagList, fun t ht => absurd ht
    List.not_mem_nil⟩, ⟨fun t ht => ?_, hmtx⟩, hf.cnt, ?_, hf.req, hf.time, hf.timer, hf.sort,
    fun _ => trivial, rfl⟩, ⟨n, hf⟩, i5.trans f2.evt, fun t e => ?_, rfl, rfl⟩, fun t => ?_⟩
  · unfold boot
    rw [e1, Option.bind_eq_bind, Option.bind_some, f1, Option.bind_some, i1]
    rfl
  · change (takeSwitch k3).mutexID t = INVALID_ID
    rw [hmid]
    exact f2.mutex t ((i4.calm.live t).mp ht)
  · change (takeSwitch k3).aside.ServiceReq.head < cfg.maxServiceRequest
    rw [hf.head]
    exact cfg.maxServiceRequest_pos
  · have h2 := (i4.loc t .dly (by decide)).mp e
    have := (f2.coh.rep.tcb.mem .dly t).mpr h2
    rw [f2.coh.rep.dly, f2.dly] at this
    exact List.not_mem_nil this
  · rw [i4.calm.live t, f5 t, e4 t]
    unfold bootTasks
    rw [e1, List.mem_cons]
    exact or_comm

/-- The start of a run that `boot` gives. -/
theorem booted {m : Sys} {i : Idle} {us : List Setup} (hu : ∀ u ∈ us, u.Valid)
    (hb : boot cfg i us = some m) : ∃ g r, Booted cfg m g r ∧
      ∀ t, Live cfg.served g t ↔ t ∈ bootTasks cfg i us := by
  obtain ⟨m', g, r, e1, e2⟩ := boot_spec cfg i hu
  rw [hb] at e1
  obtain rfl := Option.some.inj e1
  exact ⟨g, r, e2⟩

/-! ## Objects that were created before the start -/

/-- `CoInitOS` and the creations `us`. -/
def setUpTo (cfg : Env) (i : Idle) (us : List Setup) : Option Kernel :=
  (coInitOS cfg.served Kernel.zero i.task i.stk i.stkSz).bind fun k => setUp cfg.served k us

/-- The run begins with the events as they were created. -/
theorem boot_same {m : Sys} {i : Idle} {us us' : List Setup} {u : Setup} {k1 k2 : Kernel}
    (hu : ∀ v ∈ us ++ u :: us', v.Valid) (hb : boot cfg i (us ++ u :: us') = some m)
    (h1 : setUpTo cfg i us = some k1) (h2 : u.exec cfg.served k1 = some k2) :
    (∃ g n, Before cfg.served k1 g n) ∧
      ∀ e, k2.eventType e ≠ .invalid → SameEvent k2.aside m.k.aside e := by
  obtain ⟨k0, g0, e1, e2, e3, -⟩ := coInitOS_spec cfg.served i
  obtain ⟨k1', g1, n1, f1, f2, f3, -⟩ := setUp_makes us e2 e3 fun v hv => hu v (by simp [hv])
  have hk1 : setUpTo cfg i us = some k1' := by
    unfold setUpTo
    rw [e1]
    exact f1
  rw [h1] at hk1
  obtain rfl := Option.some.inj hk1
  obtain ⟨k2', g2, n2, i1, i2, i3, -⟩ := Setup.exec_makes f2 f3 (hu u (by simp))
  rw [h2] at i1
  obtain rfl := Option.some.inj i1
  obtain ⟨k3, g3, n3, j1, j2, j3, j4, -⟩ := setUp_makes us' i2 i3 fun v hv => hu v (by simp [hv])
  obtain ⟨k4, g4, r, l1, -, l3, -⟩ := coStartOS_spec j2 j3
  have hm : m.k = takeSwitch k4 := by
    unfold boot at hb
    unfold setUp at f1 j1 hb
    simp only [Option.bind_eq_bind] at hb
    rw [e1, Option.bind_some, List.foldlM_append, f1] at hb
    simp only [Option.bind_eq_bind, Option.bind_some, List.foldlM_cons] at hb
    rw [h2, Option.bind_some, j1, Option.bind_some, l1, Option.bind_some] at hb
    rw [← Option.some.inj hb]
  refine ⟨⟨g1, n1, f2⟩, fun e he => ?_⟩
  have hen : e < n2 := by
    by_contra hn
    exact he (i2.fresh.raw e (Nat.le_of_not_lt hn))
  rw [hm, l3]
  exact j4.2 e hen

/-- A queue as `CoCreateQueue` leaves it. -/
theorem coCreateQueue_event {k' : Kernel} (h : Before cfg k g n) {qStart size sort e : Nat}
    (hc : coCreateQueue cfg k qStart size sort = some (k', e)) (he : e ≠ INVALID_ID) :
    e < cfg.maxEvent ∧ 0 < size ∧ k'.eventType e = .queue ∧
      ∃ q, k'.eventPtr e = .qcb q ∧ k'.qMaxSize q = size ∧ k'.qSize q = 0 := by
  by_cases hg : qStart = 0 ∨ size = 0
  · unfold coCreateQueue at hc
    rw [if_pos hg] at hc
    exact absurd (congrArg Prod.snd (Option.some.inj hc)).symm he
  · rw [coCreateQueue_locked h hg] at hc
    cases hq : freeQueue k cfg.maxQueue 0 with
    | none =>
      rw [hq] at hc
      exact absurd (congrArg Prod.snd (Option.some.inj hc)).symm he
    | some i =>
      rw [hq] at hc
      dsimp only at hc
      split at hc
      · next hn =>
        obtain ⟨hk, rfl⟩ := Prod.mk.inj (Option.some.inj hc)
        rw [← hk]
        exact ⟨hn, Nat.pos_of_ne_zero fun h0 => hg (Or.inr h0), Function.update_self .., i,
          Function.update_self .., Function.update_self .., Function.update_self ..⟩
      · exact absurd (congrArg Prod.snd (Option.some.inj hc)).symm he

/-- A semaphore as `CoCreateSem` leaves it. -/
theorem coCreateSem_event {k' : Kernel} (h : Before cfg k g n) {initCnt maxCnt sort e : Nat}
    (hc : coCreateSem cfg k initCnt maxCnt sort = some (k', e)) (he : e ≠ INVALID_ID) :
    k'.eventType e = .sem ∧ k'.eventCounter e = initCnt ∧ k'.initialEventCounter e = maxCnt := by
  unfold coCreateSem at hc
  split at hc
  · exact absurd (congrArg Prod.snd (Option.some.inj hc)).symm he
  · rw [creatEvent_locked h] at hc
    by_cases hn : n < cfg.maxEvent
    · rw [if_pos hn] at hc
      obtain ⟨hk, rfl⟩ := Prod.mk.inj (Option.some.inj hc)
      rw [← hk]
      exact ⟨Function.update_self .., Function.update_self .., Function.update_self ..⟩
    · rw [if_neg hn] at hc
      exact absurd (congrArg Prod.snd (Option.some.inj hc)).symm he

end Boot

end CoOS
