/-
  What the calls that are not about mutexes do to them: a task that is created, deleted or given
  another priority is outside of all lines, and everything else leaves the mutexes as they are
  (`Call.Does.around`).
-/
import CoOS.Mutex.Locks

namespace CoOS

open Function (update)

/-! ## The columns -/

section Columns

variable (a : Aside) (e t v : Nat)

@[simp] theorem removeLink_lockPart : (a.removeLink t).lockPart = a.lockPart := by
  unfold Aside.removeLink
  dsimp only
  split
  · rfl
  · rfl
  · rfl
  · rfl

@[simp] theorem spring_lockPart : (a.spring t).lockPart = a.lockPart :=
  (show (a.spring t).lockPart = (a.removeLink t).lockPart from rfl).trans (removeLink_lockPart a t)

@[simp] theorem dropFlag_lockPart : (a.dropFlag t).lockPart = a.lockPart := by
  unfold Aside.dropFlag
  split
  · exact removeLink_lockPart ..
  · rfl

@[simp] theorem flagBlock_lockPart (flags : BitVec 32) (ty : Nat) :
    (a.flagBlock t flags ty).lockPart = a.lockPart := by
  unfold Aside.flagBlock
  dsimp only
  split
  · rfl
  · rfl

@[simp] theorem handOver_lockPart : (a.handOver e t).lockPart = a.lockPart := by
  unfold Aside.handOver
  split
  · rfl
  · split
    · rfl
    · rfl
  · rfl
  · rfl

@[simp] theorem store_lockPart : (a.store e v).lockPart = a.lockPart := by
  unfold Aside.store
  split
  · rfl
  · rfl
  · rfl
  · rfl

@[simp] theorem take_lockPart : (a.take e).1.lockPart = a.lockPart := by
  unfold Aside.take
  split
  · rfl
  · rfl
  · rfl
  · rfl

theorem springs_lockPart (T : List Nat) : (T.foldl Aside.spring a).lockPart = a.lockPart := by
  induction T generalizing a with
  | nil => rfl
  | cons t T ih => rw [List.foldl_cons, ih, spring_lockPart]

theorem dropFlags_lockPart (T : List Nat) : (T.foldl Aside.dropFlag a).lockPart = a.lockPart := by
  induction T generalizing a with
  | nil => rfl
  | cons t T ih => rw [List.foldl_cons, ih, dropFlag_lockPart]

end Columns

/-! ## Effects -/

section Effects

variable {cfg : Env} (d : Data)

theorem release_lockPart (e : Nat) : (d.release e).aside.lockPart = d.aside.lockPart := by
  unfold Data.release
  split
  · rfl
  · exact handOver_lockPart ..

theorem post_lockPart (k : EventType) (e v : Nat) : (d.post cfg k e v).1.aside.lockPart =
    d.aside.lockPart := by
  unfold Data.post Data.postOk
  split
  · rfl
  · split
    · rfl
    · exact (release_lockPart _ e).trans (store_lockPart d.aside e v)

theorem accept_lockPart (k : EventType) (e : Nat) : (d.accept cfg k e).1.aside.lockPart =
    d.aside.lockPart := by
  unfold Data.accept
  split
  · rfl
  · split
    · exact take_lockPart ..
    · rfl

theorem pend_lockPart (k : EventType) (e : Nat) : (d.pend cfg k e).1.aside.lockPart =
    d.aside.lockPart := by
  unfold Data.pend
  split
  · rfl
  · split
    · exact take_lockPart ..
    · rfl

theorem pendReturn_lockPart (t n : Nat) : (d.pendReturn t n).1.aside.lockPart =
    d.aside.lockPart := by
  unfold Data.pendReturn
  split
  · rfl
  · rfl

theorem setFlag_lockPart (id : Nat) : (d.setFlag cfg id).1.aside.lockPart = d.aside.lockPart := by
  unfold Data.setFlag
  split
  · rfl
  · split
    · rfl
    · exact springs_lockPart ..

theorem delFlag_lockPart (id opt : Nat) : (d.delFlag cfg id opt).1.aside.lockPart =
    d.aside.lockPart := by
  unfold Data.delFlag
  split
  · rfl
  · split
    · split
      · rfl
      · rfl
    · split
      · exact springs_lockPart ..
      · rfl

theorem waitFlag_lockPart (t id n : Nat) : (d.waitFlag t id n).1.aside.lockPart =
    d.aside.lockPart := by
  unfold Data.waitFlag
  split
  · rfl
  · split
    · rfl
    · exact flagBlock_lockPart ..

theorem waitFlags_lockPart (t : Nat) (flags : BitVec 32) (ty n : Nat) :
    (d.waitFlags t flags ty n).1.aside.lockPart = d.aside.lockPart := by
  unfold Data.waitFlags
  split
  · rfl
  · split
    · rfl
    · exact flagBlock_lockPart ..

theorem createFlag_lockPart (auto init : Nat) : (d.createFlag auto init).1.aside.lockPart =
    d.aside.lockPart := by
  unfold Data.createFlag
  split
  · rfl
  · rfl

theorem clearFlag_lockPart (id : Nat) : (d.clearFlag id).1.aside.lockPart = d.aside.lockPart := by
  unfold Data.clearFlag
  split
  · rfl
  · rfl

theorem acceptFlag_lockPart (id : Nat) : (d.acceptFlag id).1.aside.lockPart = d.aside.lockPart := by
  unfold Data.acceptFlag
  split
  · rfl
  · split
    · rfl
    · rfl

theorem acceptFlags_lockPart (flags : BitVec 32) (ty : Nat) :
    (d.acceptFlags flags ty).1.aside.lockPart = d.aside.lockPart := by
  unfold Data.acceptFlags
  split
  · rfl
  · split
    · rfl
    · rfl

theorem waitFlagReturn_lockPart (t id n : Nat) : (d.waitFlagReturn t id n).1.aside.lockPart =
    d.aside.lockPart := by
  unfold Data.waitFlagReturn
  split
  · rfl
  · rfl

theorem waitFlagsReturn_lockPart (t : Nat) (flags : BitVec 32) (n : Nat) :
    (d.waitFlagsReturn t flags n).1.aside.lockPart = d.aside.lockPart := by
  unfold Data.waitFlagsReturn
  split
  · rfl
  · rfl

theorem serve_lockPart (c : SQC) : (d.serve cfg c).aside.lockPart = d.aside.lockPart := by
  change (d.request cfg c).1.aside.lockPart = _
  unfold Data.request
  cases c.type with
  | SEM_REQ => exact post_lockPart ..
  | MBOX_REQ => exact post_lockPart ..
  | QUEUE_REQ => exact post_lockPart ..
  | FLAG_REQ => exact setFlag_lockPart ..

theorem Serves.lockPart {d d' : Data} {cs : List SQC} (h : Serves cfg d cs d') :
    d'.aside.lockPart = d.aside.lockPart := by
  induction h with
  | nil d => rfl
  | cons _ _ ih => exact ih.trans (serve_lockPart ..)

end Effects

/-! ## Calls -/

/-- A step that is not about mutexes. -/
inductive Locks.Around (cfg : Env) (L : Locks) : Locks → Prop
  | same : Around cfg L L
  | created (t p : Nat) (hn : ¬ L.alive t) (hp : p ≤ cfg.lowestPrio) : Around cfg L (L.created t p)
  | deleted (t : Nat) (hout : L.a.mutexID t = INVALID_ID) : Around cfg L (L.deleted t)
  | reprio (t p : Nat) (hout : L.a.mutexID t = INVALID_ID) (hp : p ≤ cfg.lowestPrio) :
      Around cfg L (L.reprio t p)

/-- `CreateTask` checks the priority of the new task. -/
def PrioBound (cfg : Env) (c : Call) (d d' : Data) : Prop :=
  match c with
  | .createTask .. => ∀ i p w, d' = d.create i p w → p ≤ cfg.lowestPrio
  | _ => True

section Calls

variable {cfg : Env} {a : Abs} {r : Nat} {x : Out} {W : Nat → List Nat} {alive : Nat → Prop}

theorem around_same {p p' : LockPart} (h : p' = p) :
    Locks.Around cfg ⟨p, W, alive⟩ ⟨p', W, alive⟩ := by
  rw [h]
  exact .same

theorem Abs.Deletes.around {t : Nat} (hx : a.Deletes t x)
    (hout : a.d.aside.mutexID t = INVALID_ID) :
    Locks.Around cfg ⟨a.d.aside.lockPart, W, a.alive⟩ ⟨x.d.aside.lockPart, W, x.alive⟩ := by
  obtain ⟨st, -, rfl⟩ | rfl := hx
  · exact .same
  · have e : (a.d.delete t).aside.lockPart = a.d.aside.lockPart := dropFlags_lockPart ..
    rw [e]
    exact .deleted t hout

theorem Call.Does.around {c : Call} (hx : c.Does cfg a r x)
    (hout : ∀ t, c.subject r = some t → a.d.aside.mutexID t = INVALID_ID)
    (hp : PrioBound cfg c a.d x.d) :
    Locks.Around cfg ⟨a.d.aside.lockPart, W, a.alive⟩ ⟨x.d.aside.lockPart, W, x.alive⟩ := by
  cases c with
  | createTask task stk parameter =>
    obtain rfl | ⟨i, p, w, -, hi, rfl⟩ := hx
    · exact .same
    · exact .created i p hi (hp i p w rfl)
  | delTask t => exact Abs.Deletes.around hx (hout t rfl)
  | exitTask => exact Abs.Deletes.around hx (hout r rfl)
  | suspendTask t =>
    obtain ⟨st, rfl | rfl⟩ := hx
    · exact .same
    · exact .same
  | awakeTask t =>
    obtain ⟨st, rfl | ⟨rfl, -⟩⟩ := hx
    · exact .same
    · exact .same
  | setPriority t p =>
    obtain ⟨st, ⟨rfl, -⟩ | ⟨rfl, hle, -⟩⟩ := hx
    · exact .same
    · have e : (a.d.setPrio t p).aside.lockPart =
          { a.d.aside.lockPart with prio := update a.d.aside.prio t p } := by
        rw [setPrio_aside]
        rfl
      change Locks.Around cfg _ ⟨(a.d.setPrio t p).aside.lockPart, W, a.alive⟩
      rw [e]
      exact .reprio t p (hout t rfl) hle
  | tickDelay n =>
    obtain ⟨st, rfl | rfl⟩ := hx
    · exact .same
    · exact .same
  | resetDelay t n =>
    obtain ⟨st, rfl | ⟨rfl, -⟩⟩ := hx
    · exact .same
    · exact .same
  | accept k id =>
    obtain rfl := hx
    exact around_same (accept_lockPart ..)
  | pend k id n =>
    have h := @pend_lockPart cfg a.d k id
    obtain rfl := hx
    split
    · next e => exact around_same (by rw [e] at h; exact h)
    · next e => exact around_same (by rw [e] at h; exact h)
  | post k id v =>
    obtain rfl := hx
    exact around_same (post_lockPart ..)
  | createFlag auto init =>
    obtain rfl := hx
    exact around_same (createFlag_lockPart ..)
  | delFlag id opt =>
    obtain rfl := hx
    exact around_same (delFlag_lockPart ..)
  | setFlag id =>
    obtain rfl := hx
    exact around_same (setFlag_lockPart ..)
  | clearFlag id =>
    obtain rfl := hx
    exact around_same (clearFlag_lockPart ..)
  | acceptFlag id =>
    obtain rfl := hx
    exact around_same (acceptFlag_lockPart ..)
  | acceptFlags flags ty =>
    obtain rfl := hx
    exact around_same (acceptFlags_lockPart ..)
  | waitFlag id n =>
    have h := waitFlag_lockPart a.d r id n
    obtain rfl := hx
    split
    · next e => exact around_same (by rw [e] at h; exact h)
    · next e => exact around_same (by rw [e] at h; exact h)
  | waitFlags flags ty n =>
    have h := waitFlags_lockPart a.d r flags ty n
    obtain rfl := hx
    split
    · next e => exact around_same (by rw [e] at h; exact h)
    · next e => exact around_same (by rw [e] at h; exact h)
  | enterMutex m => exact hx.elim
  | leaveMutex m => exact hx.elim

theorem Cont.Does.around {c : Cont} (hx : c.Does a r x) :
    x.d.aside.lockPart = a.d.aside.lockPart ∧ x.alive = a.alive := by
  cases c with
  | none => exact hx.elim
  | block k id n =>
    obtain rfl := hx
    exact ⟨rfl, rfl⟩
  | wait k id n =>
    obtain rfl := hx
    exact ⟨pendReturn_lockPart .., rfl⟩
  | waitFlag id n =>
    obtain rfl := hx
    exact ⟨waitFlagReturn_lockPart .., rfl⟩
  | waitFlags flags ty n =>
    obtain rfl := hx
    exact ⟨waitFlagsReturn_lockPart .., rfl⟩
  | enterMutex m => exact hx.elim

/-- **The invariant is kept** by everything else. -/
theorem LocksOk.around {L L' : Locks} (h : LocksOk cfg L) (hs : Locks.Around cfg L L') :
    LocksOk cfg L' := by
  cases hs with
  | same => exact h
  | created t p hn hp => exact h.created hn hp
  | deleted t hout => exact h.deleted hout
  | reprio t p hout hp => exact h.reprio hout hp

end Calls

end CoOS
