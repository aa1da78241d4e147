/-
  One step of a system with mutexes.

  A run is lawful (`Lawful`) when a task enters a mutex only from outside of all mutexes and leaves
  only the mutex that it owns, and a task inside of a mutex is neither deleted nor given another
  priority; for the rest it is as in `Fine`. Then every step can be taken, the kernel stays
  coherent, and the mutexes do what `Locks` says (`LockInv.step`).
-/
import CoOS.Mutex.Frame
import CoOS.Run.Inv

namespace CoOS

open Function (update)
open DList

/-! ## Steps that are allowed -/

def Call.usesMutex : Call → Bool
  | .enterMutex _ | .leaveMutex _ => true
  | _ => false

/-- What the mutexes ask of a call of the task `r`. -/
def Call.Apt (k : Kernel) (r : Nat) : Call → Prop
  | .enterMutex _ | .exitTask => k.mutexID r = INVALID_ID
  | .leaveMutex i => i < k.MutexFreeID → k.mutexOccupied i = true ∧ k.mutexTaskID i = r
  | .delTask t | .setPriority t _ => k.mutexID t = INVALID_ID
  | _ => True

instance (k : Kernel) (r : Nat) (c : Call) : Decidable (c.Apt k r) :=
  match c with
  | .enterMutex _ | .exitTask => inferInstanceAs (Decidable (k.mutexID r = INVALID_ID))
  | .leaveMutex i => inferInstanceAs (Decidable (i < k.MutexFreeID → _ ∧ _))
  | .delTask t | .setPriority t _ => inferInstanceAs (Decidable (k.mutexID t = INVALID_ID))
  | .createTask .. | .suspendTask .. | .awakeTask .. | .tickDelay .. | .resetDelay .. | .accept ..
  | .pend .. | .post .. | .createFlag .. | .delFlag .. | .setFlag .. | .clearFlag ..
  | .acceptFlag ..
  | .acceptFlags .. | .waitFlag .. | .waitFlags .. => inferInstanceAs (Decidable True)

def Call.Lawful (cfg : Env) (k : Kernel) (rs : List SQC) (r : Nat) (c : Call) : Prop :=
  (c.usesMutex = true ∨ c.Fine cfg k rs) ∧ c.Apt k r

instance (cfg : Env) (k : Kernel) (rs : List SQC) (r : Nat) (c : Call) :
    Decidable (c.Lawful cfg k rs r) :=
  inferInstanceAs (Decidable ((_ ∨ _) ∧ _))

def Lawful (cfg : Env) (m : Sys) (rs : List SQC) : Act → Prop
  | .call c => ∀ r ∈ m.k.TCBRunning, c.Lawful cfg m.k rs r
  | _ => True

instance (cfg : Env) (m : Sys) (rs : List SQC) (a : Act) : Decidable (Lawful cfg m rs a) :=
  match a with
  | .call c => inferInstanceAs (Decidable (∀ r ∈ m.k.TCBRunning, c.Lawful cfg m.k rs r))
  | .resume | .tick => inferInstanceAs (Decidable True)

/-! ## What a section does to the mutexes -/

/-- The visit to the mutex `i` that a section is. -/
def Entry.visit (i : Nat) (e : Entry) : Option (Line.Visit Nat) :=
  match e.op, e.ret with
  | .inl (.enterMutex j), none => if j = i then some (.enter e.task) else none
  | .inl (.enterMutex j), some (_, .E_OK) => if j = i then some (.enter e.task) else none
  | .inl (.leaveMutex j), some (_, .E_OK) => if j = i then some (.leave e.task) else none
  | _, _ => none

/-- The tasks that have come back from `CoEnterMutexSection` of `i` and have not left it, after one
    section more. -/
def Entry.hold (i : Nat) (H : List Nat) (e : Entry) : List Nat :=
  match e.op, e.ret with
  | .inl (.enterMutex j), some (_, .E_OK) => if j = i then e.task :: H else H
  | .inr (.enterMutex j), some (_, .E_OK) => if j = i then e.task :: H else H
  | .inl (.leaveMutex j), some (_, .E_OK) => if j = i then H.erase e.task else H
  | _, _ => H

/-- A section of the task `r`, with the result that it returns. -/
inductive Locks.Acts (cfg : Env) (r : Nat) (L : Locks) : Call ⊕ Cont → Option Ret → Locks → Prop
  | enter (i : Nat) (hi : i < L.a.MutexFreeID) (hout : L.a.mutexID r = INVALID_ID) :
      Acts cfg r L (.inl (.enterMutex i)) (if L.a.mutexOccupied i then none else some (0, .E_OK))
        (L.entered i r)
  | leave (i : Nat) (ho : L.a.mutexOccupied i = true) (hown : L.a.mutexTaskID i = r) :
      Acts cfg r L (.inl (.leaveMutex i)) (some (0, .E_OK)) (L.left i r)
  | resume (i : Nat) : Acts cfg r L (.inr (.enterMutex i)) (some (0, .E_OK)) L
  | other {op : Call ⊕ Cont} {ret : Option Ret} {L' : Locks}
      (hv : ∀ i t, (Entry.mk t op ret).visit i = none)
      (hne : ∀ i, op ≠ .inr (.enterMutex i))
        (hlv : ∀ i, op = .inl (.leaveMutex i) → L.waiters i = [])
      (h : L.Around cfg L') : Acts cfg r L op ret L'

section Acts

variable {cfg : Env} {L L' : Locks} {r i j u : Nat} {op : Call ⊕ Cont} {ret : Option Ret}

theorem LocksOk.acts (h : LocksOk cfg L) (hs : L.Acts cfg r op ret L') (ha : L.alive r)
    (h0 : r ≠ 0) :
    LocksOk cfg L' := by
  cases hs with
  | enter i hi hout => exact h.entered ha h0 hout hi
  | leave i ho hown => exact h.left ho hown
  | resume i => exact h
  | other _ _ _ hs => exact h.around hs

theorem Locks.Around.same_lines (hs : L.Around cfg L') :
    L'.waiters = L.waiters ∧ ∀ i, L'.line i = L.line i := by
  cases hs with
  | same => exact ⟨rfl, fun _ => rfl⟩
  | created t p hn hp => exact ⟨rfl, fun _ => Locks.line_congr rfl rfl rfl⟩
  | deleted t hout => exact ⟨rfl, fun _ => Locks.line_congr rfl rfl rfl⟩
  | reprio t p hout hp => exact ⟨rfl, fun _ => Locks.line_congr rfl rfl rfl⟩

/-- The others stay in the lines. -/
theorem LocksOk.line_kept (h : LocksOk cfg L) (hs : L.Acts cfg r op ret L') (hu : u ≠ r)
    (hm : u ∈ L.line j) :
    u ∈ L'.line j := by
  cases hs with
  | enter i hi hout =>
    rw [h.line_entered]
    split
    · next hj =>
      rw [hj] at hm
      exact List.mem_append_left _ hm
    · exact hm
  | leave i ho hown =>
    rw [Locks.line_left L ho]
    split
    · next hj =>
      rw [hj, Locks.line_taken ho, hown] at hm
      rw [Locks.line_taken ho]
      exact (List.mem_cons.mp hm).resolve_left hu
    · exact hm
  | resume i => exact hm
  | other _ _ _ hs => rwa [hs.same_lines.2 j]

/-- Only the caller begins to wait, and then its call does not return. -/
theorem Locks.Acts.waits (hs : L.Acts cfg r op ret L') (hu : u ∈ L'.waiters j) :
    u ∈ L.waiters j ∨ (u = r ∧ op = .inl (.enterMutex j) ∧ ret = none) := by
  cases hs with
  | enter i hi hout =>
    cases ho : L.a.mutexOccupied i with
    | true =>
      have hw : (L.entered i r).waiters = update L.waiters i (L.waiters i ++ [r]) := if_pos ho
      rw [hw] at hu
      by_cases hj : j = i
      · rw [hj, Function.update_self, List.mem_append, List.mem_singleton] at hu
        rw [hj]
        exact hu.imp_right fun e => ⟨e, rfl, if_pos rfl⟩
      · rw [Function.update_of_ne hj] at hu
        exact Or.inl hu
    | false =>
      have hw : (L.entered i r).waiters = L.waiters := if_neg (by rw [ho]; decide)
      rw [hw] at hu
      exact Or.inl hu
  | leave i ho hown =>
    have hw : (L.left i r).waiters = update L.waiters i (L.waiters i).tail := rfl
    rw [hw] at hu
    by_cases hj : j = i
    · rw [hj, Function.update_self] at hu
      rw [hj]
      exact Or.inl (List.mem_of_mem_tail hu)
    · rw [Function.update_of_ne hj] at hu
      exact Or.inl hu
  | resume i => exact Or.inl hu
  | other _ _ _ hs =>
    rw [hs.same_lines.1] at hu
    exact Or.inl hu

end Acts

/-! ## The invariant -/

/-- What is left of a call of the task `t`; who is in `CoEnterMutexSection` is in the line. -/
def Cont.Kept (cfg : Env) (ty : Nat → EventType) (line : Nat → List Nat) (t : Nat) : Cont → Prop
  | .enterMutex i => t ∈ line i
  | c => c.Passed cfg ty

/-- The mutexes as they are in the kernel. -/
def Kernel.locks (cfg : Env) (k : Kernel) (g : Ghost) : Locks where
  a := k.aside.lockPart
  waiters i := g.tcb.lst (.mtx i)
  alive := Live cfg g

structure LockInv (cfg : Env) (m : Sys) (g : Ghost) (r : Nat) (F : List Nat) : Prop where
  ordered : cfg.orderListScheduleEn = true
  stable : Stable cfg.served m.k g r
  flags : FlagOk cfg.served m.k g F
  locks : LocksOk cfg.served (m.k.locks cfg.served g)
  cnt : m.k.ServiceReq.cnt = 0
  head : m.k.ServiceReq.head < cfg.maxServiceRequest
  req : m.k.IsrReq = false
  time : m.k.TimeReq = false
  timer : m.k.TimerReq = false
  sort : ∀ e, m.k.eventType e ≠ .invalid →
    m.k.eventSortType e = sortFifo ∨ m.k.eventSortType e = sortPrio
  cont : ∀ t, (m.cont t).Kept cfg m.k.eventType (m.k.locks cfg.served g).line t
  wait : ∀ i, ∀ t ∈ g.tcb.lst (.mtx i), m.cont t = .enterMutex i
  idle : m.cont 0 = .none

/-- What the running task does in the step `act`. -/
def Sys.Next (m : Sys) (r : Nat) (act : Act) : Call ⊕ Cont → Prop
  | .inl c => act = .call c ∧ m.cont r = .none
  | .inr c => act = .resume ∧ m.cont r = c ∧ c ≠ .none

/-- A step, seen from the mutexes. -/
inductive Locks.Steps (cfg : Env) (r : Nat) (m m' : Sys) (act : Act) (L L' : Locks) : Prop
  | tick (ha : act = .tick) (hc : m'.cont = m.cont) (hl : m'.log = m.log) (h : L' = L)
  | run {op : Call ⊕ Cont} {ret : Option Ret} (h0 : r ≠ 0) (hn : m.Next r act op)
      (ha : L.Acts cfg r op ret L')
      (hl : m'.log = m.log ++ [⟨r, op, ret⟩])
      (hc : ∀ i, ∀ u ∈ L.line i, u ≠ r → m'.cont u = m.cont u)
      (hr : ∀ i, m'.cont r = .enterMutex i ↔ op = .inl (.enterMutex i) ∧ ret = none)

/-! ## Sections -/

/-- What a section of the task `r` leaves, before the deferred requests. -/
structure Passage (cfg : Env) (s : Kernel) (g : Ghost) (r : Nat) (op : Call ⊕ Cont)
    (y : Cont × Option Ret)
    (d : Data) (g1 : Ghost) : Prop where
  acts : (s.locks cfg g).Acts cfg r op y.2 ⟨d.aside.lockPart, fun i => g1.tcb.lst (.mtx i),
    Live cfg g1⟩
  listed : ∃ F', Listed d (Live cfg g1) F' ∧ ∀ t ∈ F', ∀ m, g1.tcb.loc t ≠ some (.mtx m)
  fixed : d.aside.fixed = { s.aside.fixed with mutexID := d.aside.mutexID }
  waits : ∀ i, y.1 = .enterMutex i ↔ op = .inl (.enterMutex i) ∧ y.2 = none
  passed : y.1.Passed cfg s.eventType ∨ ∃ i, y.1 = .enterMutex i

section Sections

variable {cfg : Env} {s : Kernel} {g g1 : Ghost} {r i : Nat} {F : List Nat} {cont : Nat → Cont}
    {log : List Entry}

theorem Passage.ring {op : Call ⊕ Cont} {y : Cont × Option Ret} {d : Data}
    (h : Passage cfg s g r op y d g1) :
    d.aside.fixed.ring = s.aside.fixed.ring := by
  rw [h.fixed]
  rfl

theorem Stable.caller (h : Stable cfg s g r) : Caller cfg ⟨s.data g, Live cfg g, cont, log⟩ r := by
  have hrun := h.picked.running
  obtain ⟨h1, h2⟩ := h.coh.loc_of_running h.picked.live hrun
  refine ⟨h.picked.live.1, h.picked.live, fun hw => ?_, fun ht => ?_, h2⟩
  · exact nomatch hrun.symm.trans hw
  · exact nomatch h1.symm.trans ht

theorem LocksOk.loc_lt (h : LocksOk cfg (s.locks cfg g)) (hr : Rep cfg s g) {t m : Nat}
    (ht : g.tcb.loc t = some (.mtx m)) : m < s.MutexFreeID :=
  (h.waiter (L := s.locks cfg g) ((hr.tcb.mem (.mtx m) t).mpr ht)).2.2.2.1

/-- The flag list of a section that moves nobody into or out of a mutex list. -/
theorem Unmoved.listed (h : Unmoved g g1) (hs : Stable cfg s g r) (hf : FlagOk cfg s g F) {d : Data}
    (hl : ∃ F', Listed d (Live cfg g1) F' ∧ ∀ t ∈ F', t ∈ F ∨ t = r) :
    ∃ F', Listed d (Live cfg g1) F' ∧ ∀ t ∈ F', ∀ m, g1.tcb.loc t ≠ some (.mtx m) := by
  obtain ⟨F', h1, h2⟩ := hl
  refine ⟨F', h1, fun t ht m e => ?_⟩
  have e := (h.mtx t m).mp e
  rcases h2 t ht with ht | rfl
  · exact (hf.wait t ht).2.2.2 m e
  · exact nomatch (hs.coh.loc_of_running hs.picked.live hs.picked.running).1.symm.trans e

theorem Unmoved.waiters (h : Unmoved g g1) : (fun i => g1.tcb.lst (.mtx i)) = fun i =>
    g.tcb.lst (.mtx i) :=
  funext h.lst

/-- A call that is not about mutexes visits none. -/
theorem visit_none {t : Nat} {c : Call} (h : c.usesMutex = false) (i : Nat) (ret : Option Ret) :
    (Entry.mk t (.inl c) ret).visit i = none := by
  cases c with
  | enterMutex m => exact nomatch h
  | leaveMutex m => exact nomatch h
  | _ => rfl

theorem PrioBound.of_prio {c : Call} {d d' : Data} (h : ∀ u, d'.aside.prio u ≤ cfg.lowestPrio) :
    PrioBound cfg c d d' := by
  cases c with
  | createTask task stk parameter =>
    rintro i p w rfl
    have e : update d.aside.prio i p i = p := Function.update_self ..
    exact Nat.le_trans (Nat.le_of_eq e.symm) (h i)
  | _ => trivial

theorem Call.exec_bounded (h : Stable cfg s g r) (hr : r ≠ 0) (hf : FlagOk cfg s g F)
    {rs : List SQC} {c : Call}
    (hfine : c.Fine cfg s rs) (hi : rs = [] → s.IsrReq = false)
    (hmtx : ∀ t m, g.tcb.loc t = some (.mtx m) → m ≠ INVALID_ID)
    (hout : ∀ t, c.subject r = some t → s.mutexID t = INVALID_ID) (hw : ¬ c.Wild s)
    (hp : ∀ u, s.prio u ≤ cfg.lowestPrio) (cont : Nat → Cont) (log : List Entry) :
    Ends cfg s r (c.exec cfg s) fun y d g1 =>
      (c.Does cfg ⟨s.data g, Live cfg g, cont, log⟩ r ⟨d, Live cfg g1, y.1, y.2⟩ ∧ Unmoved g g1) ∧
        PrioBound cfg c (s.data g) d := by
  have hends := Call.exec_unmoved h hr hf hfine hi hmtx hout hw cont log
  cases c with
  | createTask task stk parameter =>
    refine (createTask_ends h hr (hi hfine) task stk parameter).map
      (fun i => (Cont.none, some (i, StatusType.E_OK))) fun i d g1 hq => ?_
    rcases hq with ⟨rfl, rfl, rfl⟩ | ⟨p, w, hle, hc, rfl⟩
    · exact ⟨⟨Or.inl rfl, Unmoved.refl _⟩, PrioBound.of_prio hp⟩
    · refine ⟨⟨Or.inr ⟨i, p, w, hc.live.1, fun e => e.2 hc.was, ?_⟩, hc.unmoved⟩,
        PrioBound.of_prio fun u => ?_⟩
      · rw [hc.live_eq]
      · change update s.prio i p u ≤ _
        by_cases hu : u = i
        · rw [hu, Function.update_self]
          exact hle
        · rw [Function.update_of_ne hu]
          exact hp u
  | _ => exact hends.mono fun _ _ _ hq => ⟨hq, trivial⟩

theorem fixed_of_create {d : Data} {f : Fixed}
    (hx : d.aside.fixed = f ∨ ∃ i, d.aside.fixed = f.create i) :
    d.aside.fixed = { f with mutexID := d.aside.mutexID } := by
  rcases hx with e | ⟨i, e⟩
  · rw [show d.aside.mutexID = f.mutexID from congrArg Fixed.mutexID e]
    exact e
  · rw [show d.aside.mutexID = update f.mutexID i INVALID_ID from congrArg Fixed.mutexID e]
    exact e

/-- A call that is not about mutexes. -/
theorem Call.exec_passage (h : Stable cfg s g r) (hr : r ≠ 0) (hf : FlagOk cfg s g F)
    (hL : LocksOk cfg (s.locks cfg g)) {rs : List SQC} {c : Call} (hu : c.usesMutex = false)
    (hl : c.Lawful cfg s rs r) (hi : rs = [] → s.IsrReq = false) (hw : ¬ c.Wild s) :
    Ends cfg s r (c.exec cfg s) (Passage cfg s g r (.inl c)) := by
  have hfine := hl.1.resolve_left (by rw [hu]; decide)
  have hout : ∀ t, c.subject r = some t → s.mutexID t = INVALID_ID := by
    intro t ht
    have hapt := hl.2
    cases c with
    | delTask u =>
      obtain rfl := Option.some.inj ht
      exact hapt
    | setPriority u p =>
      obtain rfl := Option.some.inj ht
      exact hapt
    | exitTask =>
      obtain rfl := Option.some.inj ht
      exact hapt
    | _ => exact nomatch ht
  refine (Call.exec_bounded h hr hf hfine hi (fun t m e => hL.ne_invalid (hL.loc_lt h.coh.rep e))
    hout hw hL.prio
    (fun _ => .none) []).mono fun y d g1 hq => ?_
  obtain ⟨⟨hd, hun⟩, hp⟩ := hq
  have hli : Listed (s.data g) (Live cfg g) F := ⟨hf.data, fun t ht => (hf.wait t ht).1⟩
  have hpass := hd.passed hfine
  have hleave : ∀ i, (Sum.inl c : Call ⊕ Cont) = .inl (.leaveMutex i) →
    (s.locks cfg g).waiters i = [] := by
    intro i e
    rw [Sum.inl.inj e] at hu
    exact nomatch hu
  refine ⟨.other (fun i t => visit_none hu i y.2) (fun _ e => nomatch e) hleave ?_,
    hun.listed h hf (hd.listed hli h.coh.evtOk hf.length h.caller),
    fixed_of_create (hd.fixed.imp And.left fun hx => hx.imp fun _ => And.left), fun i =>
      ⟨fun e => ?_, fun e => ?_⟩, Or.inl hpass⟩
  · rw [hun.waiters]
    exact hd.around hout hp
  · rw [show y.1 = _ from e] at hpass
    exact hpass.elim
  · rw [Sum.inl.inj e.1] at hu
    exact nomatch hu

/-- The rest of a call. -/
theorem Cont.exec_passage (h : Stable cfg s g r) (hr : r ≠ 0) (hf : FlagOk cfg s g F) {c : Cont}
    (hne : c ≠ .none)
    (hfine : c.Fine cfg s) (hpass : c.Passed cfg s.eventType) :
    Ends cfg s r (c.exec cfg s r) (Passage cfg s g r (.inr c)) := by
  refine (Cont.exec_unmoved h hr hne hfine (fun _ => .none) []).mono fun y d g1 hq => ?_
  obtain ⟨hd, hun⟩ := hq
  have hli : Listed (s.data g) (Live cfg g) F := ⟨hf.data, fun t ht => (hf.wait t ht).1⟩
  have hpass := hd.passed hpass
  have hold : ∀ i, (Sum.inr c : Call ⊕ Cont) ≠ .inr (.enterMutex i) := by
    rintro i e
    rw [Sum.inr.inj e] at hfine
    exact hfine
  refine ⟨.other (fun i t => rfl) hold (fun _ e => nomatch e) ?_,
    hun.listed h hf (hd.listed hli h.caller),
    fixed_of_create (Or.inl hd.fixed.1), fun i => ⟨fun e => ?_, fun e => nomatch e.1⟩,
    Or.inl hpass⟩
  · rw [hun.waiters, hd.around.1, show Live cfg g1 = Live cfg g from hd.around.2]
    exact .same
  · rw [show y.1 = _ from e] at hpass
    exact hpass.elim

/-- The call of **CoEnterMutexSection** has blocked its task, and now it owns the mutex. -/
theorem Cont.resume_passage (h : Stable cfg s g r) (hf : FlagOk cfg s g F) (i : Nat) :
    Ends cfg s r (Cont.exec cfg s r (.enterMutex i))
    (Passage cfg s g r (.inr (.enterMutex i))) := by
  have hli : Listed (s.data g) (Live cfg g) F := ⟨hf.data, fun t ht => (hf.wait t ht).1⟩
  exact Or.inl ⟨s, g, _, rfl, h, ⟨.resume i, ⟨F, hli, fun t ht => (hf.wait t ht).2.2.2⟩, rfl,
    fun j => ⟨(fun e => nomatch e), fun e => nomatch e.1⟩, Or.inl trivial⟩⟩

theorem enterMutex_live (h : Live cfg g r) (i : Nat) :
    Live cfg (g.enterMutex s i r) = Live cfg g := by
  unfold Ghost.enterMutex
  split
  · funext u
    refine propext ⟨fun hu => ?_, fun hu => ⟨hu.1, fun e => ?_⟩⟩
    · by_cases hur : u = r
      · rw [hur]
        exact h
      · refine ⟨hu.1, fun e => hu.2 ?_⟩
        exact (Family.put_loc_ne _ _ hur).trans e
    · by_cases hur : u = r
      · rw [hur] at e
        exact nomatch (Family.put_loc_self g.tcb _).symm.trans e
      · exact hu.2 ((Family.put_loc_ne _ _ hur).symm.trans e)
  · rfl

theorem enterMutex_waiters (s : Kernel) (g : Ghost) (i r : Nat) :
    (fun j => (g.enterMutex s i r).tcb.lst (.mtx j)) =
      if s.mutexOccupied i then update (fun j => g.tcb.lst (.mtx j)) i (g.tcb.lst (.mtx i) ++ [r])
      else fun j => g.tcb.lst (.mtx j) := by
  unfold Ghost.enterMutex
  split
  · funext j
    by_cases hj : j = i
    · rw [hj, Function.update_self]
      exact Family.put_lst_self ..
    · rw [Function.update_of_ne hj]
      exact Family.put_lst_ne _ _ fun e => hj (Kind.mtx.inj e)
  · rfl

theorem entered_locks (h : Live cfg g r) (hc : Calm (g.enterMutex s i r) g1) :
    (⟨((s.data g).entered i r).aside.lockPart, fun j => g1.tcb.lst (.mtx j), Live cfg g1⟩ : Locks) =
      (s.locks cfg g).entered i r := by
  rw [entered_aside, hc.live_eq, enterMutex_live h, hc.unmoved.waiters, enterMutex_waiters]
  rfl

theorem entered_fixed (d : Data) (i cur : Nat) :
    (d.entered i cur).aside.fixed =
    { d.aside.fixed with mutexID := (d.entered i cur).aside.mutexID } := by
  rw [entered_aside]
  rfl

theorem FlagD.entered {d : Data} (h : FlagD d F) (i cur : Nat) : FlagD (d.entered i cur) F := by
  refine h.keep ?_ (fun t _ hw => ?_) fun t _ hn => ?_
  · rw [entered_aside]
    rfl
  · unfold Data.entered
    split
    · split
      · refine Or.inr ?_
        change (Data.setPrio _ _ _).waits t
        unfold Data.setPrio
        dsimp only
        split
        · split
          · exact hw
          · exact hw
        · exact hw
      · exact Or.inr hw
    · exact hw
  · unfold Data.entered
    split
    · split
      · exact (setPrio_loc ..).trans hn
      · exact hn
    · exact hn

/-- **CoEnterMutexSection** -/
theorem Call.enter_passage (h : Stable cfg s g r) (hord : cfg.orderListScheduleEn = true)
    (hr : r ≠ 0)
    (hf : FlagOk cfg s g F) (hL : LocksOk cfg (s.locks cfg g))
    (hout : s.mutexID r = INVALID_ID) (i : Nat) :
    Ends cfg s r (Call.exec cfg s (.enterMutex i)) (Passage cfg s g r (.inl (.enterMutex i))) := by
  have hlive := h.picked.live
  have hoff := (h.coh.loc_of_running hlive h.picked.running).1
  have hli : Listed (s.data g) (Live cfg g) F := ⟨hf.data, fun t ht => (hf.wait t ht).1⟩
  have hown : s.mutexOccupied i = true →
      Live cfg g (s.mutexTaskID i) ∧ s.mutexTaskID i ≠ r ∧ s.mutexTaskID i ≠ 0 := by
    intro ho
    obtain ⟨h1, h2, h3⟩ := hL.owner (L := s.locks cfg g) ho
    refine ⟨h1, ?_, fun e => ?_⟩
    · rintro rfl
      exact hL.ne_invalid h3 (h2.symm.trans hout)
    · have h2 : s.mutexID (s.mutexTaskID i) = i := h2
      rw [e] at h2
      exact hL.ne_invalid h3 (h2.symm.trans hL.idle)
  have hp : s.prio r < 256 := by
    have := hL.prio r
    have := cfg.lowestPrio_le
    exact Nat.lt_of_le_of_lt (hL.prio r) (by omega)
  let f : StatusType → Cont × Option Ret := fun st =>
    if st = .E_OK ∧ s.mutexOccupied i then (.enterMutex i, none) else (.none, some (0, st))
  have hres : Call.exec cfg s (.enterMutex i) = (coEnterMutexSection cfg s i).map fun x =>
    (x.1, f x.2) := by
    change (coEnterMutexSection cfg s i).map _ = _
    congr 1
    funext x
    change (if _ then _ else _) = (x.1, if _ then _ else _)
    split
    · rfl
    · rfl
  rw [hres]
  refine (coEnterMutexSection_ends h hord hr hp hown).map f fun st d g1 hq => ?_
  rcases hq with ⟨hst, rfl, rfl⟩ | ⟨rfl, hi, rfl, hc⟩
  · have hf0 : f st = (.none, some (0, st)) := if_neg fun e => hst e.1
    rw [hf0]
    refine ⟨.other (fun j t => ?_) (fun _ e => nomatch e) (fun _ e => nomatch e) .same,
      ⟨F, hli, fun t ht => (hf.wait t ht).2.2.2⟩, rfl,
      fun j => ⟨(fun e => nomatch e), fun e => nomatch e.2⟩, Or.inl trivial⟩
    cases st with
    | E_OK => exact absurd rfl hst
    | _ => rfl
  · have hne : ∀ t ∈ F, t ≠ r := by
      rintro t ht rfl
      exact nomatch (hf.wait t ht).2.1.symm.trans h.picked.running
    refine ⟨?_, ⟨F, ⟨hli.flag.entered i r, fun t ht => ?_⟩, fun t ht m e => ?_⟩, entered_fixed ..,
      fun j => ?_, ?_⟩
    · rw [entered_locks hlive hc]
      have hret : (f .E_OK).2 =
          if (s.locks cfg g).a.mutexOccupied i then none else some (0, .E_OK) := by
        change (if _ ∧ s.mutexOccupied i = true then (_, _) else (_, _) : Cont × Option Ret).2 =
          if s.mutexOccupied i = true then _ else _
        by_cases ho : s.mutexOccupied i = true
        · rw [if_pos ⟨rfl, ho⟩, if_pos ho]
        · rw [if_neg fun e => ho e.2, if_neg ho]
      rw [hret]
      exact .enter i hi hout
    · rw [hc.live_eq, enterMutex_live hlive]
      exact hli.alive t ht
    · have e := (hc.mtx t m).mp e
      unfold Ghost.enterMutex at e
      split at e
      · exact (hf.wait t ht).2.2.2 m ((Family.put_loc_ne _ _ (hne t ht)).symm.trans e)
      · exact (hf.wait t ht).2.2.2 m e
    · by_cases ho : s.mutexOccupied i = true
      · have e : f .E_OK = (.enterMutex i, none) := if_pos ⟨rfl, ho⟩
        rw [e]
        exact ⟨fun e => ⟨by rw [Cont.enterMutex.inj e], rfl⟩,
          fun e => by rw [Call.enterMutex.inj (Sum.inl.inj e.1)]⟩
      · have e : f .E_OK = (.none, some (0, .E_OK)) := if_neg fun e => ho e.2
        rw [e]
        exact ⟨(fun e => nomatch e), fun e => nomatch e.2⟩
    · by_cases ho : s.mutexOccupied i = true
      · exact Or.inr ⟨i, congrArg Prod.fst (if_pos ⟨rfl, ho⟩)⟩
      · refine Or.inl ?_
        rw [show f .E_OK = (.none, some (0, .E_OK)) from if_neg fun e => ho e.2]
        trivial

theorem leaveMutex_live (hr : Rep cfg s g) (i : Nat) : Live cfg (g.leaveMutex i) = Live cfg g := by
  unfold Ghost.leaveMutex
  cases hl : g.tcb.lst (.mtx i) with
  | nil => rfl
  | cons t l =>
    have ht : g.tcb.loc t = some (.mtx i) :=
      (hr.tcb.mem (.mtx i) t).mp (by rw [hl]; exact List.mem_cons_self)
    funext u
    refine propext ⟨fun hu => ⟨hu.1, fun e => ?_⟩, fun hu => ⟨hu.1, fun e => ?_⟩⟩
    · by_cases hut : u = t
      · rw [hut, ht] at e
        exact nomatch e
      · exact hu.2 ((Family.take_loc_ne _ _ hut).trans e)
    · by_cases hut : u = t
      · rw [hut] at e
        exact nomatch (Family.take_loc_self g.tcb l).symm.trans e
      · exact hu.2 ((Family.take_loc_ne _ _ hut).symm.trans e)

theorem leaveMutex_waiters (g : Ghost) (i : Nat) :
    (fun j => (g.leaveMutex i).tcb.lst (.mtx j)) =
      update (fun j => g.tcb.lst (.mtx j)) i (g.tcb.lst (.mtx i)).tail := by
  unfold Ghost.leaveMutex
  funext j
  cases hl : g.tcb.lst (.mtx i) with
  | nil =>
    by_cases hj : j = i
    · rw [hj, Function.update_self]
      exact hl
    · rw [Function.update_of_ne hj]
  | cons t l =>
    by_cases hj : j = i
    · rw [hj, Function.update_self]
      exact Family.take_lst_self ..
    · rw [Function.update_of_ne hj]
      exact Family.take_lst_ne _ _ fun e => hj (Kind.mtx.inj e)

theorem left_locks (hr : Rep cfg s g) (hc : Calm (g.leaveMutex i) g1) :
    (⟨((s.data g).left i r (g.tcb.lst (.mtx i))).aside.lockPart, fun j => g1.tcb.lst (.mtx j),
      Live cfg g1⟩ : Locks) =
      (s.locks cfg g).left i r := by
  rw [hc.live_eq, leaveMutex_live hr, hc.unmoved.waiters, leaveMutex_waiters]
  rfl

/-- **CoLeaveMutexSection** -/
theorem Call.leave_passage (h : Stable cfg s g r) (hord : cfg.orderListScheduleEn = true)
    (hr : r ≠ 0)
    (hf : FlagOk cfg s g F) (hL : LocksOk cfg (s.locks cfg g)) (i : Nat)
    (hapt : i < s.MutexFreeID → s.mutexOccupied i = true ∧ s.mutexTaskID i = r) :
    Ends cfg s r (Call.exec cfg s (.leaveMutex i)) (Passage cfg s g r (.inl (.leaveMutex i))) := by
  have hli : Listed (s.data g) (Live cfg g) F := ⟨hf.data, fun t ht => (hf.wait t ht).1⟩
  have hmtx : ∀ t ∈ F, ∀ m, g.tcb.loc t ≠ some (.mtx m) := fun t ht => (hf.wait t ht).2.2.2
  by_cases hi : s.MutexFreeID ≤ i
  · have e : coLeaveMutexSection cfg s i = some (s, .E_INVALID_ID) := by
      rw [coLeaveMutexSection_parts, if_neg (Nat.not_lt_of_le (Nat.le_of_eq h.coh.nest)), if_pos hi]
    have hfree : ∀ j, (Sum.inl (Call.leaveMutex i) : Call ⊕ Cont) = .inl (.leaveMutex j) →
        (s.locks cfg g).waiters j = [] := by
      intro j e
      obtain rfl := Call.leaveMutex.inj (Sum.inl.inj e)
      refine List.eq_nil_iff_forall_not_mem.mpr fun t ht => ?_
      exact absurd (hL.waiter ht).2.2.2.1 (Nat.not_lt_of_le hi)
    refine Or.inl ⟨s, g, (.none, some (0, .E_INVALID_ID)), ?_, h,
      .other (fun _ _ => rfl) (fun _ e => nomatch e) hfree .same, ⟨F, hli, hmtx⟩,
      rfl,
      fun j => ⟨(fun e => nomatch e), fun e => nomatch e.2⟩, Or.inl trivial⟩
    exact congrArg (Option.map _) e
  · obtain ⟨ho, hown⟩ := hapt (Nat.lt_of_not_le hi)
    refine (coLeaveMutexSection_ends h hord hr hown (Nat.lt_of_not_le hi) hL.prio
      (hL.orig i ho)).map
      (fun st => (Cont.none, some (0, st))) fun st d g1 hq => ?_
    obtain ⟨rfl, rfl, hc⟩ := hq
    -- the head of the waiting list waits for no flag
    have hhead : ∀ t ∈ F, (g.tcb.lst (.mtx i)).head? ≠ some t := fun t ht e =>
      hmtx t ht i ((h.coh.rep.tcb.mem (.mtx i) t).mp (List.mem_of_head? e))
    refine ⟨?_,
      ⟨F, ⟨hli.flag.keep rfl (fun t ht hw => ⟨hhead t ht, hw⟩) (fun _ _ hn => hn), fun t ht => ?_⟩,
      fun t ht m e => ?_⟩, rfl, fun j => ⟨(fun e => nomatch e), fun e => nomatch e.2⟩,
        Or.inl trivial⟩
    · rw [left_locks h.coh.rep hc]
      exact .leave i ho hown
    · rw [hc.live_eq, leaveMutex_live h.coh.rep]
      exact hli.alive t ht
    · have e := (hc.mtx t m).mp e
      unfold Ghost.leaveMutex at e
      split at e
      · exact hmtx t ht m e
      · next u l hl =>
        have hu := hhead t ht
        rw [hl, List.head?_cons] at hu
        exact hmtx t ht m ((Family.take_loc_ne _ _ fun e => hu (congrArg some e.symm)).symm.trans e)

end Sections

end CoOS
