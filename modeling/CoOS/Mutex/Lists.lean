/-
  The waiting lists of the mutexes on coherent states: `CoEnterMutexSection` puts the running
  task at the end of one, `CoLeaveMutexSection` takes the first task of one out.

  A waiting list is read along `TCBnext` only; `TCBprev` of its tasks says nothing.
-/
import CoOS.Run.Sim

namespace CoOS

open Function (update)
open DList KeyOrder

/-! ## Moves of the ghost state -/

def Ghost.joinMutex (g : Ghost) (i t : Nat) : Ghost :=
  { g with tcb := g.tcb.put (.mtx i) t (g.tcb.lst (.mtx i) ++ [t]) }

def Ghost.popMutex (g : Ghost) (i t : Nat) (l : List Nat) : Ghost :=
  { g with tcb := g.tcb.take (.mtx i) t l }

/-- The head of the waiting list of `i`, and the links. -/
def Kernel.setWaiting (s : Kernel) (i : Nat) (L : Links Nat) : Kernel :=
  { s with waittingList := update s.waittingList i L.head, TCBnext := L.next, TCBprev := L.prev }

/-- The priorities and the columns of the mutexes. -/
structure LockPart where
  prio : Nat → Nat
  mutexID : Nat → Nat
  originalPrio : Nat → Nat
  mutexOccupied : Nat → Bool
  mutexTaskID : Nat → Nat
  hipriTaskID : Nat → Nat
  MutexFreeID : Nat

def Aside.lockPart (a : Aside) : LockPart where
  prio := a.prio
  mutexID := a.mutexID
  originalPrio := a.originalPrio
  mutexOccupied := a.mutexOccupied
  mutexTaskID := a.mutexTaskID
  hipriTaskID := a.hipriTaskID
  MutexFreeID := a.MutexFreeID

def Aside.setLocks (a : Aside) (p : LockPart) : Aside :=
  { a with
    prio := p.prio
    mutexID := p.mutexID
    originalPrio := p.originalPrio
    mutexOccupied := p.mutexOccupied
    mutexTaskID := p.mutexTaskID
    hipriTaskID := p.hipriTaskID
    MutexFreeID := p.MutexFreeID }

section Lists

variable {cfg : Env} {s : Kernel} {g : Ghost} {t i : Nat} {L : Links Nat} {l : List Nat}

theorem tcbCols_set_mtx : (s.setWaiting i L).tcbCols = s.tcbCols.set (.mtx i) L := by
  unfold Kernel.tcbCols Cols.set
  congr 1
  funext k
  cases k with
  | mtx j =>
    change update s.waittingList i L.head j = update s.tcbHead (.mtx i) L.head (.mtx j)
    by_cases hj : j = i
    · rw [hj, Function.update_self, Function.update_self]
    · rw [Function.update_of_ne hj, Function.update_of_ne fun e => hj (Kind.mtx.inj e)]
      rfl
  | rdy => rfl
  | dly => rfl
  | free => rfl

/-- The walk along `TCBnext` ends at the last task. -/
theorem lastInChain_last {p : Nat} {hd : Nat} {fuel : Nat}
    (h : IsSList (some hd) s.TCBnext (l ++ [p]))
    (hf : l.length < fuel) : lastInChain s fuel hd = some p := by
  induction l generalizing hd fuel with
  | nil =>
    obtain rfl : hd = p := Option.some.inj h.head
    cases fuel with
    | zero => exact absurd hf (Nat.not_lt_zero _)
    | succ fuel =>
      have hn : s.TCBnext hd = none := (h.next hd List.mem_cons_self).trans (nextIn_cons_self hd [])
      unfold lastInChain
      rw [hn]
  | cons x l ih =>
    obtain rfl : hd = x := Option.some.inj h.head
    cases fuel with
    | zero => exact absurd hf (Nat.not_lt_zero _)
    | succ fuel =>
      have hn : s.TCBnext hd = (l ++ [p]).head? := by
        rw [h.next hd List.mem_cons_self, List.cons_append, nextIn_cons_self]
      have hp := h.pop
      rw [hn] at hp
      unfold lastInChain
      rw [hn]
      cases hl : (l ++ [p]).head? with
      | none =>
        rw [List.head?_eq_none_iff] at hl
        exact absurd hl (by simp)
      | some y =>
        rw [hl] at hp
        exact ih hp (Nat.lt_of_succ_lt_succ hf)

/-- The links when `t` is put at the end of the waiting list of `i`. -/
theorem joinWaiting_spec (h : Rep cfg s g) (ht : t < cfg.tasks)
    (ho : g.tcb.loc t = none) (i : Nat) :
    ∃ L : Links Nat, (match s.waittingList i with
        | none => some { s with waittingList := update s.waittingList i (some t) }
        | some x => do
          let p ← lastInChain s cfg.tasks x
          some { s with
            TCBnext := update (update s.TCBnext p (some t)) t none
            TCBprev := update s.TCBprev t (some p) }) = some (s.setWaiting i L) ∧
      IsSList L.head L.next (g.tcb.lst (.mtx i) ++ [t]) ∧
      ∀ b, g.tcb.loc b ≠ some (.mtx i) → b ≠ t → L.next b = s.TCBnext b ∧
        L.prev b = s.TCBprev b := by
  have hS : IsSList (s.waittingList i) s.TCBnext (g.tcb.lst (.mtx i)) := h.tcb.single (.mtx i)
  have hlen := h.tcb_length (.mtx i)
  have htl : t ∉ g.tcb.lst (.mtx i) := h.tcb.not_mem_of_off ho
  have hmem : ∀ b, b ∈ g.tcb.lst (.mtx i) → g.tcb.loc b = some (.mtx i) :=
    fun b => (h.tcb.mem (.mtx i) b).mp
  obtain ⟨hn, -⟩ := h.tcb.off t ho
  have hn : s.TCBnext t = none := hn
  rcases List.eq_nil_or_concat' (g.tcb.lst (.mtx i)) with hl | ⟨l, p, hl⟩
  · have hw : s.waittingList i = none := by
      rw [hS.head, hl]
      rfl
    rw [hw, hl]
    refine ⟨⟨some t, s.TCBnext, s.TCBprev⟩, rfl, ⟨rfl, List.nodup_singleton t, fun a ha => ?_⟩,
      fun b _ _ => ⟨rfl, rfl⟩⟩
    obtain rfl := List.mem_singleton.mp ha
    exact hn.trans (nextIn_cons_self a []).symm
  · rw [hl] at hS htl hlen hmem
    have hpi := hmem p (by simp)
    cases hw : s.waittingList i with
    | none =>
      have hh := hS.head
      rw [hw] at hh
      exact absurd (List.head?_eq_none_iff.mp hh.symm) (by simp)
    | some x =>
      rw [hw] at hS
      have hlast : lastInChain s cfg.tasks x = some p := by
        refine lastInChain_last hS ?_
        rw [List.length_append, List.length_singleton] at hlen
        exact hlen
      refine ⟨⟨some x, update (update s.TCBnext p (some t)) t none, update s.TCBprev t (some p)⟩,
        ?_, ?_, fun b hb hbt => ⟨?_, Function.update_of_ne hbt ..⟩⟩
      · dsimp only
        rw [hlast]
        unfold Kernel.setWaiting
        rw [show update s.waittingList i (some x) = s.waittingList from
          Function.update_eq_self_iff.mpr hw.symm]
        rfl
      · rw [hl, List.append_assoc]
        exact isSList_append hS htl
      · have hbp : b ≠ p := fun e => hb (e ▸ hpi)
        exact (Function.update_of_ne hbt ..).trans (Function.update_of_ne hbp ..)

/-- An edit of a waiting list leaves the ready list and the delay list as they are. -/
theorem Rep.setWaiting {F : Family Kind Nat} (h : Rep cfg s g)
    (hF : Shared Kind.double (s.tcbCols.set (.mtx i) L) F) (hr : F.lst .rdy = g.tcb.lst .rdy)
    (hd : F.lst .dly = g.tcb.lst .dly) (hlt : ∀ u k, F.loc u = some k → u < cfg.tasks)
    (hfree : ∀ u, F.loc u = some .free ↔ g.tcb.loc u = some .free) :
    Rep cfg (s.setWaiting i L) { g with tcb := F } := by
  refine ⟨?_, h.evt, ?_, ?_, ?_, h.deltas, h.dlyLt, hlt, h.evLt⟩
  · rw [tcbCols_set_mtx]
    exact hF
  · change SortedKey s.prio (F.lst .rdy)
    rw [hr]
    exact h.sorted
  · have hc : Ghost.count cfg { g with tcb := F } s.prio = g.count cfg s.prio :=
      @Ghost.count_congr cfg g { g with tcb := F } hfree s.prio
    change Fits cfg (s.setWaiting i L) (Ghost.count cfg { g with tcb := F } s.prio) (F.lst .rdy)
    rw [hc, hr]
    exact h.fits.congr rfl rfl
  · exact hd.trans h.dly

/-- A task in no list is put at the end of a waiting list. -/
theorem Rep.joinMutex (h : Rep cfg s g) (ht : t < cfg.tasks) (ho : g.tcb.loc t = none)
    (hS : IsSList L.head L.next (g.tcb.lst (.mtx i) ++ [t]))
    (hfr : ∀ b, g.tcb.loc b ≠ some (.mtx i) → b ≠ t → L.next b = s.TCBnext b ∧
      L.prev b = s.TCBprev b) :
    Rep cfg (s.setWaiting i L) (g.joinMutex i t) := by
  have hk : g.tcb.loc t ≠ some .free := by
    rw [ho]
    exact fun e => nomatch e
  refine h.setWaiting (h.tcb.put ho hS (fun e => nomatch e) (fun x => ?_) hfr)
    (Family.put_lst_ne _ _ fun e => nomatch e) (Family.put_lst_ne _ _ fun e => nomatch e)
    (fun u k hu => ?_) (free_put (fun e => nomatch e) hk)
  · rw [List.mem_append, List.mem_singleton]
    exact or_comm
  · by_cases hut : u = t
    · rw [hut]
      exact ht
    · exact h.lt u k ((Family.put_loc_ne _ _ hut).symm.trans hu)

/-- The first task of a waiting list leaves it. -/
theorem Rep.popMutex (h : Rep cfg s g) (hl : g.tcb.lst (.mtx i) = t :: l) :
    Rep cfg (s.setWaiting i ⟨s.TCBnext t, update s.TCBnext t none, update s.TCBprev t none⟩)
      (g.popMutex i t l) := by
  have hloc : g.tcb.loc t = some (.mtx i) := (h.tcb.mem (.mtx i) t).mp (hl ▸ List.mem_cons_self)
  have hS : IsSList (s.waittingList i) s.TCBnext (g.tcb.lst (.mtx i)) := h.tcb.single (.mtx i)
  rw [hl] at hS
  have htl : t ∉ l := (List.nodup_cons.mp hS.nodup).1
  have hk : g.tcb.loc t ≠ some .free := by
    rw [hloc]
    exact fun e => nomatch e
  refine h.setWaiting (h.tcb.take hloc (isSList_tail hS) (fun e => nomatch e) (fun x => ?_)
    (fun b _ hbt => ⟨Function.update_of_ne hbt .., Function.update_of_ne hbt ..⟩)
    ⟨Function.update_self .., Function.update_self ..⟩)
    (Family.take_lst_ne _ _ fun e => nomatch e) (Family.take_lst_ne _ _ fun e => nomatch e)
    (fun u k hu => ?_) (free_take hk)
  · rw [hl, List.mem_cons]
    exact ⟨fun hx => ⟨fun e => htl (e ▸ hx), Or.inr hx⟩, fun hx => hx.2.resolve_left hx.1⟩
  · by_cases hut : u = t
    · rw [hut] at hu
      exact nomatch (Family.take_loc_self g.tcb _).symm.trans hu
    · exact h.lt u k ((Family.take_loc_ne _ _ hut).symm.trans hu)

/-! ## Coherent states -/

/-- `mutexID` of a task that is in no waiting list. -/
theorem Coh.setMutexID (h : Coh cfg s g) (hlive : Live cfg g t)
    (ht : ∀ j, g.tcb.loc t ≠ some (.mtx j))
    (i : Nat) : Coh cfg { s with mutexID := update s.mutexID t i } g := by
  have hok := h.task t hlive
  refine h.retask (h.rep.congr rfl rfl rfl rfl rfl) hlive (fun _ => Iff.rfl) (fun a ha => ?_)
    ⟨hok.ev, hok.tick, hok.rdy, hok.dly, fun j e => absurd e (ht j), hok.off⟩ (h.run t hlive)
      (Or.inl rfl)
    rfl rfl rfl
  exact ⟨rfl, fun _ => rfl, rfl, Function.update_of_ne ha .., rfl, rfl⟩

/-- The blocked task joins the waiting list of its `mutexID`. -/
theorem Coh.joinMutex (h : Coh cfg s g) (hlive : Live cfg g t) (ho : g.tcb.loc t = none)
    (he : g.evt.loc t = none) (hw : s.state t = .WAITING) (hm : s.mutexID t = i)
    (hS : IsSList L.head L.next (g.tcb.lst (.mtx i) ++ [t]))
    (hfr : ∀ b, g.tcb.loc b ≠ some (.mtx i) → b ≠ t → L.next b = s.TCBnext b ∧
      L.prev b = s.TCBprev b) :
    Coh cfg (s.setWaiting i L) (g.joinMutex i t) := by
  have hok := h.task t hlive
  refine h.retask (h.rep.joinMutex hlive.1 ho hS hfr) hlive (free_put (fun e => nomatch e) hlive.2)
    (fun a ha => ⟨rfl, fun _ => rfl, rfl, rfl, Family.put_loc_ne _ _ ha, rfl⟩) ?_ (fun e => ?_)
      (Or.inl rfl)
    rfl rfl rfl
  · exact taskOk_in hok.ev (Family.put_loc_self ..) (fun _ => h.tick_of_off hlive ho)
      (fun e => nomatch e)
      (fun e => nomatch e) fun j e => ⟨hw, hm.trans (Kind.mtx.inj e), he⟩
  · rw [show (s.setWaiting i L).state t = s.state t from rfl, hw] at e
    exact nomatch e

/-- The first task of a waiting list is in no list, and waits until it is made ready. -/
theorem Coh.popMutex (h : Coh cfg s g) (hl : g.tcb.lst (.mtx i) = t :: l) :
    Coh cfg (s.setWaiting i ⟨s.TCBnext t, update s.TCBnext t none, update s.TCBprev t none⟩)
      (g.popMutex i t l) := by
  have hloc : g.tcb.loc t = some (.mtx i) := (h.rep.tcb.mem (.mtx i) t).mp (hl ▸ List.mem_cons_self)
  have hlive : Live cfg g t := ⟨h.rep.lt t _ hloc, by rw [hloc]; exact fun e => nomatch e⟩
  have hok := h.task t hlive
  obtain ⟨hw, -, he⟩ := hok.mtx i hloc
  refine h.retask (h.rep.popMutex hl) hlive (free_take hlive.2)
    (fun a ha => ⟨rfl, fun _ => rfl, rfl, rfl, Family.take_loc_ne _ _ ha, rfl⟩) ?_ (fun e => ?_)
      (Or.inl rfl)
    rfl rfl rfl
  · refine taskOk_off hok.ev (hok.tick ?_) (Family.take_loc_self ..) (Or.inl hw)
    rw [hloc]
    exact fun e => nomatch e
  · have e : s.state t = .RUNNING := e
    rw [hw] at e
    exact nomatch e

end Lists

/-! ## Inside a section -/

section Sections

variable {cfg : Env} {s : Kernel} {g : Ghost} {cur t o i : Nat} {l : List Nat}

theorem Stable.setMutexID (h : Stable cfg s g cur) (i : Nat) :
    Stable cfg { s with mutexID := update s.mutexID cur i } g cur := by
  have hloc := (h.coh.loc_of_running h.picked.live h.picked.running).1
  have hoff : ∀ j, g.tcb.loc cur ≠ some (.mtx j) := fun j => by
    rw [hloc]
    exact fun e => nomatch e
  exact h.move (h.coh.setMutexID h.picked.live hoff i) rfl rfl rfl rfl rfl h.picked.first

/-- **CoEnterMutexSection**: the caller waits for `i`. -/
theorem Pending.blockOnMutex (h : Pending cfg s g cur) (hc : cur ≠ 0) (hr : s.state cur = .RUNNING)
    (hm : s.mutexID cur = i) :
    ∃ s', blockOnMutex cfg s i cur = some s' ∧ Pending cfg s' (g.joinMutex i cur) cur ∧
      s'.aside = s.aside ∧ s'.OSSchedLock = s.OSSchedLock ∧
      s'.state = update s.state cur .WAITING := by
  obtain ⟨ho, he⟩ := h.coh.loc_of_running (h.live hr) hr
  obtain ⟨n1, n2⟩ := h.coh.rep.tcb.off cur ho
  have n1 : s.TCBnext cur = none := n1
  have n2 : s.TCBprev cur = none := n2
  have hn : update s.TCBnext cur none = s.TCBnext := Function.update_eq_self_iff.mpr n1.symm
  have hp : update s.TCBprev cur none = s.TCBprev := Function.update_eq_self_iff.mpr n2.symm
  have hb := h.block hc hr
  have hw : update s.state cur .WAITING cur = .WAITING := Function.update_self ..
  let s0 : Kernel := { s with state := update s.state cur .WAITING, TaskSchedReq := true }
  have hlive : Live cfg g cur := h.live hr
  obtain ⟨L, e1, e2, e3⟩ := @joinWaiting_spec cfg s0 g cur hb.coh.rep hlive.1 ho i
  have hcoh : Coh cfg (s0.setWaiting i L) (g.joinMutex i cur) :=
    hb.coh.joinMutex hlive ho he hw hm e2 e3
  refine ⟨s0.setWaiting i L, ?_, ⟨hcoh, h.lt, h.running, h.next, h.lock, Or.inl rfl, h.ticks,
    ?_⟩, rfl, rfl, rfl⟩
  · unfold CoOS.blockOnMutex
    dsimp only
    rw [hn, hp]
    exact e1
  · exact hb.idle.keep (Family.put_loc_ne _ _ (Ne.symm hc)) rfl

/-- **CoLeaveMutexSection**: the first waiting task is taken out of the list. -/
theorem Pending.popMutex (h : Pending cfg s g cur) (hl : g.tcb.lst (.mtx i) = t :: l) :
    Pending cfg (s.setWaiting i ⟨s.TCBnext t, update s.TCBnext t none, update s.TCBprev t none⟩)
      (g.popMutex i t l) cur := by
  have hloc : g.tcb.loc t = some (.mtx i) :=
    (h.coh.rep.tcb.mem (.mtx i) t).mp (hl ▸ List.mem_cons_self)
  have hlive : Live cfg g t := ⟨h.coh.rep.lt t _ hloc, by rw [hloc]; exact fun e => nomatch e⟩
  have h0 : t ≠ 0 := h.coh.ne_idle h.idle ((h.coh.task t hlive).mtx i hloc).1
  refine ⟨h.coh.popMutex hl, h.lt, h.running, h.next, h.lock, ?_, h.ticks,
    h.idle.keep (Family.take_loc_ne _ _ (Ne.symm h0)) rfl⟩
  have he : (g.popMutex i t l).tcb.lst .rdy = g.tcb.lst .rdy :=
    Family.take_lst_ne _ _ fun e => nomatch e
  rw [he]
  exact h.req

theorem changeTaskPri_ordered (hord : cfg.orderListScheduleEn = true) (s : Kernel) (a b : Nat) :
    changeTaskPri cfg s a b = some s := if_pos hord

theorem Coh.reprio (h : Coh cfg s g) (hord : cfg.orderListScheduleEn = true) (hlive : Live cfg g t)
    (ht : g.tcb.loc t ≠ some .rdy) {p : Nat} (hp : p < 256) :
    Coh cfg { s with prio := update s.prio t p } g := by
  obtain ⟨T, e1, e2⟩ := h.setPrio hlive ht hp
  rw [changeTaskPri_ordered hord] at e1
  -- the table of the other build is as it was
  have e : s.setPriTable T = s := (Option.some.inj e1).symm
  rw [e] at e2
  exact e2

theorem Pending.reprio (h : Pending cfg s g cur) (hord : cfg.orderListScheduleEn = true)
    (hlive : Live cfg g t) (ht : g.tcb.loc t ≠ some .rdy) {p : Nat} (hp : p < 256)
    (hreq : t = cur → s.TaskSchedReq = true ∨ ∀ u ∈ g.tcb.lst .rdy, p ≤ s.prio u) :
    Pending cfg { s with prio := update s.prio t p } g cur := by
  obtain ⟨T, e1, e2⟩ := h.setPrio hlive ht hp hreq
  rw [changeTaskPri_ordered hord] at e1
  have e : s.setPriTable T = s := (Option.some.inj e1).symm
  rw [e] at e2
  exact e2

/-- The promotion of the owner `o`. -/
def LockPart.promoted (p : LockPart) (i o cur : Nat) : LockPart :=
  { p with
    prio := update p.prio o (p.prio cur)
    hipriTaskID := update p.hipriTaskID i cur }

/-- **CoEnterMutexSection**: the owner `o` gets the priority of the caller. -/
def Data.promoted (d : Data) (i o cur : Nat) : Data :=
  { d.setPrio o (d.aside.prio cur) with
    aside := d.aside.setLocks (d.aside.lockPart.promoted i o cur) }

theorem promoted_eq (i o cur : Nat) :
    ({ s with hipriTaskID := update s.hipriTaskID i cur }.data g).setPrio o (s.prio cur) =
      (s.data g).promoted i o cur := by
  let s1 : Kernel := { s with hipriTaskID := update s.hipriTaskID i cur }
  unfold Data.promoted
  cases he : g.evt.loc o with
  | none =>
    rw [Data.setPrio_off (s1.data g) he, Data.setPrio_off (s.data g) he]
    rfl
  | some e =>
    unfold Data.setPrio
    rw [show (s1.data g).evt.loc o = some e from he, show (s.data g).evt.loc o = some e from he]
    dsimp only
    by_cases hs : s.eventSortType e = sortPrio
    · rw [if_pos (show (s1.data g).aside.eventSortType e = sortPrio from hs),
        if_pos (show (s.data g).aside.eventSortType e = sortPrio from hs)]
      rfl
    · rw [if_neg (show ¬ (s1.data g).aside.eventSortType e = sortPrio from hs),
        if_neg (show ¬ (s.data g).aside.eventSortType e = sortPrio from hs)]
      rfl

/-- The owner `o` is promoted. It may be ready, or wait for whatever it likes. -/
theorem Stable.promoteOwner (h : Stable cfg s g cur) (hord : cfg.orderListScheduleEn = true)
    (hlive : Live cfg g o) (hne : o ≠ cur) (h0 : o ≠ 0) (hp : s.prio cur < 256) (i : Nat) :
    ∃ s' g', promoteOwner cfg (osSchedLock s) i o cur = some s' ∧
      Body cfg s g cur ((s.data g).promoted i o cur) s' g' ∧ s'.state cur = s.state cur := by
  let s1 : Kernel := { s with hipriTaskID := update s.hipriTaskID i cur }
  have h1 : Stable cfg s1 g cur := h.congr rfl rfl rfl
  have hcode : CoOS.promoteOwner cfg (osSchedLock s) i o cur =
      if s.state o = .READY then
        reorderReady cfg (osSchedLock { s1 with prio := update s1.prio o (s.prio cur) }) o
      else if s.eventID o ≠ INVALID_ID then
        reorderWaiting cfg (osSchedLock { s1 with prio := update s1.prio o (s.prio cur) }) o
      else some (osSchedLock { s1 with prio := update s1.prio o (s.prio cur) }) := by
    unfold CoOS.promoteOwner
    rw [changeTaskPri_ordered hord]
    rfl
  rw [hcode, ← promoted_eq]
  by_cases hst : s.state o = .READY
  · rw [if_pos hst]
    obtain ⟨s2, g2, e1, e2, e3, e4⟩ := reorderReady_body h1 hord hlive hst h0 hp
    exact ⟨s2, g2, e1, ⟨e2.pend, e2.lock, e3, e2.data⟩, e4⟩
  have hw : s.state o = .WAITING := h.coh.waiting_of hlive hst fun e =>
    hne (h.eq_of_running hlive e)
  have hrdy : g.tcb.loc o ≠ some .rdy := fun e => hst ((h.coh.ready_iff hlive).mp e)
  let s2 : Kernel := osSchedLock { s1 with prio := update s1.prio o (s.prio cur) }
  have hk : Pending cfg s2 g cur := h1.enter.reprio hord hlive hrdy hp fun e => absurd e hne
  rw [if_neg hst]
  have hstay : ∀ {d : Data}, d = s2.data g → Body cfg s g cur d s2 g := by
    rintro d rfl
    exact ⟨hk, rfl, Calm.refl _, holds_data _ _⟩
  cases hev : g.evt.loc o with
  | none =>
    have hno : ¬ s.eventID o ≠ INVALID_ID := by
      rw [h.coh.eventID_iff hlive, hev]
      exact fun e => nomatch e.choose_spec
    rw [if_neg hno]
    exact ⟨s2, g, rfl, hstay (Data.setPrio_off _ (show (s1.data g).evt.loc o = none from hev)), rfl⟩
  | some e =>
    have hid : s2.eventID o = e := by
      have := (h.coh.task o hlive).ev
      rw [hev] at this
      exact this
    have hyes : s2.eventID o ≠ INVALID_ID := (h.coh.eventID_iff hlive).mpr ⟨e, hev⟩
    rw [if_pos (show s.eventID o ≠ INVALID_ID from hyes)]
    change ∃ s' g', reorderWaiting cfg s2 o = some s' ∧ _
    unfold reorderWaiting Data.setPrio
    dsimp only
    rw [hid, show (s1.data g).evt.loc o = some e from hev]
    dsimp only
    by_cases hs : s2.eventSortType e = sortPrio
    · rw [if_pos hs, if_pos (show (s1.data g).aside.eventSortType e = sortPrio from hs)]
      -- it moves in a list that is ordered by priority
      obtain ⟨-, hloc⟩ := h.coh.waits hlive hev
      have hlv := hk.leave hlive
      have hge : g.leave o = g.leaveEvent e o := by
        unfold Ghost.leave
        rw [hev]
      rw [if_pos hyes, hge] at hlv
      have hoff : (g.leaveEvent e o).evt.loc o = none := Family.take_loc_self ..
      obtain ⟨s3, f1, f2, f3, f4, f5, -⟩ :=
        hlv.wait hlive hloc hoff h0 (h.coh.rep.evLt o e hev).2 (Or.inr hs)
      have hins : waitInsert (s2.eventSortType e) s2.prio o ((g.leaveEvent e o).evt.lst e) =
          insertKey s2.prio o ((g.evt.lst e).erase o) := by
        unfold waitInsert
        rw [hs, if_neg (by decide)]
        exact congrArg _ (Family.take_lst_self ..)
      refine ⟨s3, _, f1, ⟨f2, f4, calm_of_tcb rfl, f3, ?_, fun u => ?_, fun u => Iff.rfl⟩, ?_⟩
      · change ((g.leaveEvent e o).evt.put e o
          (waitInsert (s2.eventSortType e) s2.prio o ((g.leaveEvent e o).evt.lst e))) = _
        rw [hins]
        rfl
      · rw [f5]
        change update s.state o .WAITING u = .WAITING ↔ s.state u = .WAITING
        rw [Function.update_eq_self_iff.mpr hw.symm]
      · rw [f5]
        exact Function.update_of_ne (Ne.symm hne) ..
    · rw [if_neg hs, if_neg (show ¬ (s1.data g).aside.eventSortType e = sortPrio from hs)]
      exact ⟨s2, g, rfl, hstay rfl, rfl⟩

end Sections

end CoOS
