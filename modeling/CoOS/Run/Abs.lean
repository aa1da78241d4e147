/-
  Runs of the system, one level up: what a step does to mails, flags and waiting tasks, without
  the ready list, the delay list and the processor.

  A step is an effect (`Mid`: a call, the rest of a call, or a tick) followed by the deferred
  requests that its section drains (`Serves`). The state of the ring of requests is part of
  `Data` and means nothing here; `Abs.setRing` changes it.
-/
import CoOS.Kernel.System
import CoOS.Coh.Lifecycle

namespace CoOS

open Function (update)

/-- `alive t`: the task `t` exists. -/
structure Abs where
  d : Data
  alive : Nat → Prop
  cont : Nat → Cont
  log : List Entry

def Sys.abs (cfg : Env) (m : Sys) (g : Ghost) : Abs := ⟨m.k.data g, Live cfg g, m.cont, m.log⟩

def Abs.setRing (a : Abs) (req : Bool) (q : SRQ) : Abs := { a with d := a.d.setRing req q }

/-! ## Effects -/

/-- What a section leaves: besides `Data`, who exists, what is left of the call, and its
    result. -/
structure Out where
  d : Data
  alive : Nat → Prop
  cont : Cont
  ret : Option Ret

/-- The call has returned. -/
def Abs.now (a : Abs) (d : Data) (ret : Ret) : Out := ⟨d, a.alive, .none, some ret⟩

/-- The call has not returned. -/
def Abs.later (a : Abs) (d : Data) (c : Cont) : Out := ⟨d, a.alive, c, none⟩

/-- What is left of a pend when its caller `t` runs again. -/
def Data.pendReturn (d : Data) (t n : Nat) : Data × Nat × StatusType :=
  if n ≠ 0 ∧ d.aside.pmail t = 0 then (d, 0, .E_TIMEOUT)
  else ({ d with aside := { d.aside with pmail := update d.aside.pmail t 0 } },
    d.aside.pmail t, .E_OK)

/-- The mail of a post; a semaphore has the mark of a token. -/
def EventType.mail (k : EventType) (v : Nat) : Nat :=
  match k with
  | .sem => 0xffffffff
  | _ => v

/-- `CoDelTask` of `t`. -/
def Abs.Deletes (a : Abs) (t : Nat) (x : Out) : Prop :=
  (∃ st, st ≠ .E_OK ∧ x = a.now a.d (0, st)) ∨
    x = ⟨a.d.delete t, fun u => u ≠ t ∧ a.alive u, .none, some (0, .E_OK)⟩

/-- The first section of a call of the task `r`. -/
def Call.Does (cfg : Env) (a : Abs) (r : Nat) (x : Out) : Call → Prop
  | .createTask _ _ _ => x = a.now a.d (INVALID_ID, .E_OK) ∨
    ∃ i p w, i < cfg.tasks ∧ ¬ a.alive i ∧
      x = ⟨a.d.create i p w, fun u => u = i ∨ a.alive u, .none, some (i, .E_OK)⟩
  | .delTask t => a.Deletes t x
  | .exitTask => a.Deletes r x
  | .suspendTask t => ∃ st, x = a.now a.d (0, st) ∨ x = a.now (a.d.block t) (0, st)
  | .awakeTask t => ∃ st, x = a.now a.d (0, st) ∨
    (x = a.now (a.d.wake t) (0, st) ∧ a.d.aside.pnode t = .null ∧ a.d.evt.loc t = none ∧
      ¬ a.d.timed t)
  | .setPriority t p => ∃ st,
    (x = a.now a.d (0, st) ∧ (t = 0 ∨ cfg.lowestPrio < p ∨ a.d.aside.prio t = p)) ∨
      (x = a.now (a.d.setPrio t p) (0, st) ∧ p ≤ cfg.lowestPrio ∧ t ≠ 0 ∧ a.d.aside.prio t ≠ p)
  | .tickDelay _ => ∃ st, x = a.now a.d (0, st) ∨ x = a.now (a.d.delay r) (0, st)
  | .resetDelay t n => ∃ st, x = a.now a.d (0, st) ∨
    (x = a.now (a.d.undelay t) (0, st) ∧ n = 0 ∧ a.d.timed t ∧ a.d.evt.loc t = none ∧
      a.d.aside.pnode t = .null)
  | .accept k id => x = a.now (a.d.accept cfg k id).1 (a.d.accept cfg k id).2
  | .pend k id n => x = match a.d.pend cfg k id with
    | (d, some ret) => a.now d ret
    | (d, none) => a.later d (.block k id n)
  | .post k id v => x = a.now (a.d.post cfg k id (k.mail v)).1 (0, (a.d.post cfg k id (k.mail v)).2)
  | .createFlag auto init =>
    x = a.now (a.d.createFlag auto init).1 ((a.d.createFlag auto init).2, .E_OK)
  | .delFlag id opt => x = a.now (a.d.delFlag cfg id opt).1 (0, (a.d.delFlag cfg id opt).2)
  | .setFlag id => x = a.now (a.d.setFlag cfg id).1 (0, (a.d.setFlag cfg id).2)
  | .clearFlag id => x = a.now (a.d.clearFlag id).1 (0, (a.d.clearFlag id).2)
  | .acceptFlag id => x = a.now (a.d.acceptFlag id).1 (0, (a.d.acceptFlag id).2)
  | .acceptFlags flags ty => x = a.now (a.d.acceptFlags flags ty).1
    ((a.d.acceptFlags flags ty).2.1.toNat, (a.d.acceptFlags flags ty).2.2)
  | .waitFlag id n => x = match a.d.waitFlag r id n with
    | (d, some st) => a.now d (0, st)
    | (d, none) => a.later d (.waitFlag id n)
  | .waitFlags flags ty n => x = match a.d.waitFlags r flags ty n with
    | (d, some ret) => a.now d (ret.1.toNat, ret.2)
    | (d, none) => a.later d (.waitFlags flags ty n)
  | .enterMutex _ => False
  | .leaveMutex _ => False

/-- The next section of a call of the task `r`. -/
def Cont.Does (a : Abs) (r : Nat) (x : Out) : Cont → Prop
  | .none => False
  | .block k id n => x = a.later (a.d.wait id r n) (.wait k id n)
  | .wait _ _ n => x = a.now (a.d.pendReturn r n).1 (a.d.pendReturn r n).2
  | .waitFlag id n => x = a.now (a.d.waitFlagReturn r id n).1 (0, (a.d.waitFlagReturn r id n).2)
  | .waitFlags flags _ n => x = a.now (a.d.waitFlagsReturn r flags n).1
    ((a.d.waitFlagsReturn r flags n).2.1.toNat, (a.d.waitFlagsReturn r flags n).2.2)
  | .enterMutex _ => False

/-- The state after a section of the task `r`. -/
def Abs.after (a : Abs) (r : Nat) (op : Call ⊕ Cont) (ends : Option Nat) (x : Out) : Abs where
  d := x.d
  alive := x.alive
  cont := forget (update a.cont r x.cont) ends x.ret
  log := a.log ++ [⟨r, op, x.ret⟩]

/-- The effect of a step; `r` is the running task. -/
inductive Mid (cfg : Env) (r : Nat) (a : Abs) : Act → Abs → Prop
  | call {c : Call} {x : Out} (hr : r ≠ 0) (h0 : a.cont r = .none) (hx : c.Does cfg a r x) :
      Mid cfg r a (.call c) (a.after r (.inl c) (c.ends r) x)
  | resume {x : Out} (h0 : a.cont r ≠ .none) (hx : (a.cont r).Does a r x) :
      Mid cfg r a .resume (a.after r (.inr (a.cont r)) none x)
  | tick {T : List Nat} (hT : ∀ t ∈ T, a.d.timed t) :
      Mid cfg r a .tick { a with d := a.d.expire T }

/-! ## Steps that are allowed -/

/-- The tasks that do not exist, from `FreeTCB` on. -/
def Kernel.freeTasks (cfg : Env) (k : Kernel) : List Nat := DList.walk k.TCBnext cfg.tasks k.FreeTCB

/-- The task `t` exists. -/
def Kernel.alive (cfg : Env) (k : Kernel) (t : Nat) : Prop := t < cfg.tasks ∧ t ∉ k.freeTasks cfg

instance (cfg : Env) (k : Kernel) (t : Nat) : Decidable (k.alive cfg t) :=
  inferInstanceAs (Decidable (_ ∧ _))

/-- Calls on tasks that exist, with delays below `2^31`, and without mutexes. A ready task is
    given a new priority in the ordered-list build only, and a delay is ended (reset to 0) for a
    task that waits for nothing else. -/
def Call.Fine (cfg : Env) (k : Kernel) (rs : List SQC) : Call → Prop
  | .createTask _ _ _ => rs = []
  | .delTask t => k.alive cfg t
  | .suspendTask t => k.alive cfg t
  | .awakeTask t => k.alive cfg t
  | .setPriority t _ => k.alive cfg t ∧ (cfg.orderListScheduleEn = true ∨ k.state t ≠ .READY)
  | .tickDelay n => n < 2 ^ 31
  | .resetDelay t n => k.alive cfg t ∧ n < 2 ^ 31 ∧
    (n = 0 → k.eventID t = INVALID_ID ∧ k.pnode t = .null)
  | .accept kd _ => kd ≠ .invalid
  | .pend kd _ n => kd ≠ .invalid ∧ n < 2 ^ 31
  | .post kd _ _ => kd ≠ .invalid
  | .waitFlag _ n => n < 2 ^ 31
  | .waitFlags _ _ n => n < 2 ^ 31
  | .enterMutex _ => False
  | .leaveMutex _ => False
  | _ => True

instance (cfg : Env) (k : Kernel) (rs : List SQC) (c : Call) : Decidable (c.Fine cfg k rs) :=
  match c with
  | .createTask .. => inferInstanceAs (Decidable (rs = []))
  | .delTask t => inferInstanceAs (Decidable (k.alive cfg t))
  | .suspendTask t => inferInstanceAs (Decidable (k.alive cfg t))
  | .awakeTask t => inferInstanceAs (Decidable (k.alive cfg t))
  | .setPriority .. => inferInstanceAs (Decidable (_ ∧ (_ ∨ _)))
  | .tickDelay n => inferInstanceAs (Decidable (n < 2 ^ 31))
  | .resetDelay .. => inferInstanceAs (Decidable (_ ∧ _ ∧ (_ → _)))
  | .accept .. => inferInstanceAs (Decidable (_ ≠ _))
  | .pend .. => inferInstanceAs (Decidable (_ ≠ _ ∧ _))
  | .post .. => inferInstanceAs (Decidable (_ ≠ _))
  | .waitFlag _ n => inferInstanceAs (Decidable (n < 2 ^ 31))
  | .waitFlags _ _ n => inferInstanceAs (Decidable (n < 2 ^ 31))
  | .enterMutex _ => inferInstanceAs (Decidable False)
  | .leaveMutex _ => inferInstanceAs (Decidable False)
  | .exitTask | .createFlag .. | .delFlag .. | .setFlag _ | .clearFlag _ | .acceptFlag _
  | .acceptFlags .. => inferInstanceAs (Decidable True)

def Fine (cfg : Env) (m : Sys) (rs : List SQC) : Act → Prop
  | .call c => c.Fine cfg m.k rs
  | _ => True

instance (cfg : Env) (m : Sys) (rs : List SQC) (a : Act) : Decidable (Fine cfg m rs a) :=
  match a with
  | .call c => inferInstanceAs (Decidable (c.Fine cfg m.k rs))
  | .resume | .tick => inferInstanceAs (Decidable True)

end CoOS
