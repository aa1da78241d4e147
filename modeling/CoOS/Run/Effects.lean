/-
  What the effects of a run leave alone: the flag calls the part of the state that belongs to
  the events, and every call but `CreateTask` the columns that are written once (`Fixed`).
-/
import CoOS.Run.Abs

namespace CoOS

open Function (update)

/-! ## Parts -/

/-- The part of `Aside` that does not belong to the flags. -/
structure EvtPart where
  prio : Nat → Nat
  mutexID : Nat → Nat
  pmail : Nat → Nat
  eventPtr : Nat → EventPtr
  eventType : Nat → EventType
  eventSortType : Nat → Nat
  eventCounter : Nat → Nat
  initialEventCounter : Nat → Nat
  qBuf : Nat → Nat → Nat
  qHead : Nat → Nat
  qTail : Nat → Nat
  qMaxSize : Nat → Nat
  qSize : Nat → Nat
  moves : List Move
  answers : List (SQC × StatusType)
  IsrReq : Bool
  TimeReq : Bool
  TimerReq : Bool
  ServiceReq : SRQ

def Aside.evtPart (a : Aside) : EvtPart where
  prio := a.prio
  mutexID := a.mutexID
  pmail := a.pmail
  eventPtr := a.eventPtr
  eventType := a.eventType
  eventSortType := a.eventSortType
  eventCounter := a.eventCounter
  initialEventCounter := a.initialEventCounter
  qBuf := a.qBuf
  qHead := a.qHead
  qTail := a.qTail
  qMaxSize := a.qMaxSize
  qSize := a.qSize
  moves := a.moves
  answers := a.answers
  IsrReq := a.IsrReq
  TimeReq := a.TimeReq
  TimerReq := a.TimerReq
  ServiceReq := a.ServiceReq

/-- What no call but `CreateTask` writes. -/
structure Fixed where
  eventType : Nat → EventType
  eventSortType : Nat → Nat
  initialEventCounter : Nat → Nat
  qMaxSize : Nat → Nat
  mutexID : Nat → Nat
  IsrReq : Bool
  TimeReq : Bool
  TimerReq : Bool
  ServiceReq : SRQ

def EvtPart.fixed (p : EvtPart) : Fixed where
  eventType := p.eventType
  eventSortType := p.eventSortType
  initialEventCounter := p.initialEventCounter
  qMaxSize := p.qMaxSize
  mutexID := p.mutexID
  IsrReq := p.IsrReq
  TimeReq := p.TimeReq
  TimerReq := p.TimerReq
  ServiceReq := p.ServiceReq

def Aside.fixed (a : Aside) : Fixed := a.evtPart.fixed

/-- The deferred requests. -/
def Fixed.ring (f : Fixed) : Bool × Bool × Bool × SRQ :=
  (f.IsrReq, f.TimeReq, f.TimerReq, f.ServiceReq)

section Columns

variable (a : Aside) (e t v : Nat)

@[simp] theorem removeLink_evtPart : (a.removeLink t).evtPart = a.evtPart := by
  unfold Aside.removeLink
  dsimp only
  split
  · rfl
  · rfl
  · rfl
  · rfl

@[simp] theorem spring_evtPart : (a.spring t).evtPart = a.evtPart :=
  (show (a.spring t).evtPart = (a.removeLink t).evtPart from rfl).trans (removeLink_evtPart a t)

@[simp] theorem dropFlag_evtPart : (a.dropFlag t).evtPart = a.evtPart := by
  unfold Aside.dropFlag
  split
  · exact removeLink_evtPart ..
  · rfl

@[simp] theorem flagBlock_evtPart (flags : BitVec 32) (ty : Nat) :
    (a.flagBlock t flags ty).evtPart = a.evtPart := by
  unfold Aside.flagBlock
  dsimp only
  split
  · rfl
  · rfl

theorem springs_evtPart (T : List Nat) : (T.foldl Aside.spring a).evtPart = a.evtPart := by
  induction T generalizing a with
  | nil => rfl
  | cons t T ih => rw [List.foldl_cons, ih, spring_evtPart]

theorem dropFlags_evtPart (T : List Nat) : (T.foldl Aside.dropFlag a).evtPart = a.evtPart := by
  induction T generalizing a with
  | nil => rfl
  | cons t T ih => rw [List.foldl_cons, ih, dropFlag_evtPart]

@[simp] theorem handOver_fixed : (a.handOver e t).fixed = a.fixed := by
  unfold Aside.handOver
  split
  · rfl
  · split
    · rfl
    · rfl
  · rfl
  · rfl

@[simp] theorem store_fixed : (a.store e v).fixed = a.fixed := by
  unfold Aside.store
  split
  · rfl
  · rfl
  · rfl
  · rfl

@[simp] theorem take_fixed : (a.take e).1.fixed = a.fixed := by
  unfold Aside.take
  split
  · rfl
  · rfl
  · rfl
  · rfl

end Columns

/-! ## Data -/

section Data

variable {cfg : Env} (d : Data)

theorem release_fixed (e : Nat) : (d.release e).aside.fixed = d.aside.fixed := by
  unfold Data.release
  split
  · rfl
  · exact handOver_fixed ..

theorem postOk_fixed (e v : Nat) : (d.postOk e v).aside.fixed = d.aside.fixed :=
  (release_fixed _ e).trans (store_fixed d.aside e v)

theorem post_fixed (k : EventType) (e v : Nat) : (d.post cfg k e v).1.aside.fixed =
    d.aside.fixed := by
  unfold Data.post
  split
  · rfl
  · split
    · rfl
    · exact postOk_fixed ..

theorem accept_fixed (k : EventType) (e : Nat) : (d.accept cfg k e).1.aside.fixed =
    d.aside.fixed := by
  unfold Data.accept
  split
  · rfl
  · split
    · exact take_fixed ..
    · rfl

theorem pend_fixed (k : EventType) (e : Nat) : (d.pend cfg k e).1.aside.fixed = d.aside.fixed := by
  unfold Data.pend
  split
  · rfl
  · split
    · exact take_fixed ..
    · rfl

theorem expire_evtPart (T : List Nat) : (d.expire T).aside.evtPart = d.aside.evtPart :=
  dropFlags_evtPart ..

theorem setPrio_aside (t p : Nat) :
    (d.setPrio t p).aside = { d.aside with prio := update d.aside.prio t p } := by
  unfold Data.setPrio
  dsimp only
  split
  · split
    · rfl
    · rfl
  · rfl

theorem setPrio_timed (t p : Nat) : (d.setPrio t p).timed = d.timed := by
  unfold Data.setPrio
  dsimp only
  split
  · split
    · rfl
    · rfl
  · rfl

theorem pendReturn_fixed (t n : Nat) : (d.pendReturn t n).1.aside.fixed = d.aside.fixed := by
  unfold Data.pendReturn
  split
  · rfl
  · rfl

theorem setFlag_quiet (id : Nat) : (d.setFlag cfg id).1.aside.evtPart = d.aside.evtPart ∧
    (d.setFlag cfg id).1.evt = d.evt := by
  unfold Data.setFlag
  split
  · exact ⟨rfl, rfl⟩
  · split
    · exact ⟨rfl, rfl⟩
    · exact ⟨springs_evtPart .., rfl⟩

theorem serve_fixed (c : SQC) : (d.serve cfg c).aside.fixed = d.aside.fixed := by
  change (d.request cfg c).1.aside.fixed = _
  unfold Data.request
  cases c.type with
  | SEM_REQ => exact post_fixed ..
  | MBOX_REQ => exact post_fixed ..
  | QUEUE_REQ => exact post_fixed ..
  | FLAG_REQ => exact congrArg EvtPart.fixed (setFlag_quiet d c.id).1

end Data

/-! ## Calls -/

/-- Calls that do nothing to the events and their waiting lists. -/
def Call.quiet : Call → Bool
  | .suspendTask _ | .awakeTask _ | .tickDelay _ | .resetDelay _ _ | .createFlag _ _ | .delFlag _ _
  | .setFlag _ | .clearFlag _ | .acceptFlag _ | .acceptFlags _ _ | .waitFlag _ _
  | .waitFlags _ _ _ => true
  | _ => false

/-- Nothing has happened to the events. -/
structure Quiet (d d' : Data) : Prop where
  part : d'.aside.evtPart = d.aside.evtPart
  evt : d'.evt = d.evt

theorem Quiet.refl (d : Data) : Quiet d d := ⟨rfl, rfl⟩

section Quiet

variable {cfg : Env} {a : Abs} {r : Nat} {x : Out}

theorem delFlag_quiet (d : Data) (id opt : Nat) : Quiet d (d.delFlag cfg id opt).1 := by
  unfold Data.delFlag
  split
  · exact Quiet.refl d
  · split
    · split
      · exact Quiet.refl d
      · exact ⟨rfl, rfl⟩
    · split
      · exact ⟨springs_evtPart .., rfl⟩
      · exact ⟨rfl, rfl⟩

theorem flagWait_quiet (d : Data) (t : Nat) (flags : BitVec 32) (ty n : Nat) :
    Quiet d (d.flagWait t flags ty n) := ⟨flagBlock_evtPart .., rfl⟩

theorem waitFlag_quiet (d : Data) (t id n : Nat) : Quiet d (d.waitFlag t id n).1 := by
  unfold Data.waitFlag
  split
  · exact Quiet.refl d
  · split
    · exact ⟨rfl, rfl⟩
    · exact flagWait_quiet ..

theorem waitFlags_quiet (d : Data) (t : Nat) (flags : BitVec 32) (ty n : Nat) :
    Quiet d (d.waitFlags t flags ty n).1 := by
  unfold Data.waitFlags
  split
  · exact Quiet.refl d
  · split
    · exact ⟨rfl, rfl⟩
    · exact flagWait_quiet ..

theorem createFlag_quiet (d : Data) (auto init : Nat) : Quiet d (d.createFlag auto init).1 := by
  unfold Data.createFlag
  split
  · exact ⟨rfl, rfl⟩
  · exact Quiet.refl d

theorem clearFlag_quiet (d : Data) (id : Nat) : Quiet d (d.clearFlag id).1 := by
  unfold Data.clearFlag
  split
  · exact Quiet.refl d
  · exact ⟨rfl, rfl⟩

theorem acceptFlag_quiet (d : Data) (id : Nat) : Quiet d (d.acceptFlag id).1 := by
  unfold Data.acceptFlag
  split
  · exact Quiet.refl d
  · split
    · exact ⟨rfl, rfl⟩
    · exact Quiet.refl d

theorem acceptFlags_quiet (d : Data) (flags : BitVec 32) (ty : Nat) :
    Quiet d (d.acceptFlags flags ty).1 := by
  unfold Data.acceptFlags
  split
  · exact Quiet.refl d
  · split
    · exact ⟨rfl, rfl⟩
    · exact Quiet.refl d

theorem waitFlagReturn_quiet (d : Data) (t id n : Nat) : Quiet d (d.waitFlagReturn t id n).1 := by
  unfold Data.waitFlagReturn
  split
  · exact Quiet.refl d
  · exact ⟨rfl, rfl⟩

theorem waitFlagsReturn_quiet (d : Data) (t : Nat) (flags : BitVec 32) (n : Nat) :
    Quiet d (d.waitFlagsReturn t flags n).1 := by
  unfold Data.waitFlagsReturn
  split
  · exact Quiet.refl d
  · exact ⟨rfl, rfl⟩

/-- What is left of a call that waits for no event. -/
def Cont.quiet : Cont → Prop
  | .block _ _ _ | .wait _ _ _ => False
  | _ => True

theorem Call.Does.quiet {c : Call} (hx : c.Does cfg a r x) (hq : c.quiet = true) :
    Quiet a.d x.d ∧ x.alive = a.alive ∧ x.cont.quiet := by
  cases c with
  | suspendTask t =>
    obtain ⟨st, rfl | rfl⟩ := hx
    · exact ⟨Quiet.refl _, rfl, trivial⟩
    · exact ⟨⟨rfl, rfl⟩, rfl, trivial⟩
  | awakeTask t =>
    obtain ⟨st, rfl | ⟨rfl, -⟩⟩ := hx
    · exact ⟨Quiet.refl _, rfl, trivial⟩
    · exact ⟨⟨rfl, rfl⟩, rfl, trivial⟩
  | tickDelay n =>
    obtain ⟨st, rfl | rfl⟩ := hx
    · exact ⟨Quiet.refl _, rfl, trivial⟩
    · exact ⟨⟨rfl, rfl⟩, rfl, trivial⟩
  | resetDelay t n =>
    obtain ⟨st, rfl | ⟨rfl, -⟩⟩ := hx
    · exact ⟨Quiet.refl _, rfl, trivial⟩
    · exact ⟨⟨rfl, rfl⟩, rfl, trivial⟩
  | createFlag auto init =>
    obtain rfl := hx
    exact ⟨createFlag_quiet .., rfl, trivial⟩
  | delFlag id opt =>
    obtain rfl := hx
    exact ⟨delFlag_quiet .., rfl, trivial⟩
  | setFlag id =>
    obtain rfl := hx
    exact ⟨⟨(setFlag_quiet a.d id).1, (setFlag_quiet a.d id).2⟩, rfl, trivial⟩
  | clearFlag id =>
    obtain rfl := hx
    exact ⟨clearFlag_quiet .., rfl, trivial⟩
  | acceptFlag id =>
    obtain rfl := hx
    exact ⟨acceptFlag_quiet .., rfl, trivial⟩
  | acceptFlags flags ty =>
    obtain rfl := hx
    exact ⟨acceptFlags_quiet .., rfl, trivial⟩
  | waitFlag id n =>
    have h := waitFlag_quiet a.d r id n
    obtain rfl := hx
    split
    · next e => exact ⟨by rw [e] at h; exact h, rfl, trivial⟩
    · next e => exact ⟨by rw [e] at h; exact h, rfl, trivial⟩
  | waitFlags flags ty n =>
    have h := waitFlags_quiet a.d r flags ty n
    obtain rfl := hx
    split
    · next e => exact ⟨by rw [e] at h; exact h, rfl, trivial⟩
    · next e => exact ⟨by rw [e] at h; exact h, rfl, trivial⟩
  | _ => exact nomatch hq

theorem Quiet.fixed {d d' : Data} (h : Quiet d d') : d'.aside.fixed = d.aside.fixed :=
  congrArg EvtPart.fixed h.part

/-- A new task is in no mutex. -/
def Fixed.create (f : Fixed) (i : Nat) : Fixed :=
  { f with mutexID := update f.mutexID i INVALID_ID }

theorem Abs.Deletes.fixed {t : Nat} (hx : a.Deletes t x) :
    x.d.aside.fixed = a.d.aside.fixed ∧ ∀ u, x.alive u → a.alive u := by
  obtain ⟨st, -, rfl⟩ | rfl := hx
  · exact ⟨rfl, fun _ hu => hu⟩
  · exact ⟨congrArg EvtPart.fixed (expire_evtPart a.d [t]), fun _ hu => hu.2⟩

theorem Call.Does.fixed {c : Call} (hx : c.Does cfg a r x) :
    (x.d.aside.fixed = a.d.aside.fixed ∧ ∀ u, x.alive u → a.alive u) ∨
      ∃ i, x.d.aside.fixed = a.d.aside.fixed.create i ∧ ∀ u, x.alive u → u = i ∨ a.alive u := by
  have hstay : ∀ {d : Data} {ret : Ret}, d.aside.fixed = a.d.aside.fixed →
      (a.now d ret).d.aside.fixed = a.d.aside.fixed ∧ ∀ u, (a.now d ret).alive u → a.alive u :=
    fun h => ⟨h, fun _ hu => hu⟩
  by_cases hq : c.quiet = true
  · obtain ⟨h1, h2, -⟩ := hx.quiet hq
    refine Or.inl ⟨h1.fixed, fun u hu => ?_⟩
    rw [h2] at hu
    exact hu
  cases c with
  | createTask task stk parameter =>
    obtain rfl | ⟨i, p, w, -, -, rfl⟩ := hx
    · exact Or.inl (hstay rfl)
    · exact Or.inr ⟨i, rfl, fun u hu => hu⟩
  | delTask t => exact Or.inl (Abs.Deletes.fixed hx)
  | exitTask => exact Or.inl (Abs.Deletes.fixed hx)
  | setPriority t p =>
    obtain ⟨st, ⟨rfl, -⟩ | ⟨rfl, -⟩⟩ := hx
    · exact Or.inl (hstay rfl)
    · refine Or.inl (hstay ?_)
      rw [setPrio_aside]
      rfl
  | accept k id =>
    obtain rfl := hx
    exact Or.inl (hstay (accept_fixed ..))
  | pend k id n =>
    have h := @pend_fixed cfg a.d k id
    obtain rfl := hx
    refine Or.inl ?_
    split
    · next e =>
      rw [e] at h
      exact hstay h
    · next e =>
      rw [e] at h
      exact ⟨h, fun _ hu => hu⟩
  | post k id v =>
    obtain rfl := hx
    exact Or.inl (hstay (post_fixed ..))
  | enterMutex m => exact hx.elim
  | leaveMutex m => exact hx.elim
  | _ => exact absurd rfl hq

theorem Cont.Does.fixed {c : Cont} (hx : c.Does a r x) :
    x.d.aside.fixed = a.d.aside.fixed ∧ x.alive = a.alive := by
  cases c with
  | none => exact hx.elim
  | block k id n =>
    obtain rfl := hx
    exact ⟨rfl, rfl⟩
  | wait k id n =>
    obtain rfl := hx
    exact ⟨pendReturn_fixed .., rfl⟩
  | waitFlag id n =>
    obtain rfl := hx
    exact ⟨(waitFlagReturn_quiet ..).fixed, rfl⟩
  | waitFlags flags ty n =>
    obtain rfl := hx
    exact ⟨(waitFlagsReturn_quiet ..).fixed, rfl⟩
  | enterMutex m => exact hx.elim

end Quiet

end CoOS
