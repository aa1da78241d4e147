/-
  The calls on events test the event before they lock the scheduler, and `ReleaseECB` marks the
  block as not in use there. Until the lock the caller can lose the CPU, and other tasks and
  interrupts can delete the event or take its block. `EvtSys` takes the tests and the first critical
  section as one step; here they are two, and the mark is a step as well.
-/
import CoOS.Kernel.Delete
import CoOS.Kernel.Gap

namespace CoOS

open Function (update)

/-! ## Where a task can be -/

/-- The next thing that a task does in its call: what is left of it behind an unlock, or the
    critical section behind the tests, which have read the queue block `v`, or behind the mark on
    the block `e`. -/
inductive EvtPoint where
  | cont (c : EvtCont)
  | tested (c : EvtCall) (v : Nat)
  | marked (e : Nat) (q : Option Nat)
  deriving DecidableEq, Repr

/-- The queue block that the call has read when it gets to its lock, if its tests let it get
    there. -/
def EvtCall.tests (cfg : Env) (k : Kernel) : EvtCall → Option Nat
  | .del kd id opt =>
    if kd = .invalid ∨ cfg.maxEvent ≤ id ∨ k.eventType id ≠ kd then none
    else if opt = OPT_DEL_NO_PEND then if k.eventTCBList id ≠ none then none else some (qcbOf k id)
    else if opt = OPT_DEL_ANYWAY then some (qcbOf k id)
    else none
  | .accept kd id =>
    if kd = .invalid ∨ cfg.maxEvent ≤ id ∨ k.eventType id ≠ kd then none else some (qcbOf k id)
  | .pend kd id _ =>
    if 0 < k.OSIntNesting then none
    else if kd = .invalid ∨ cfg.maxEvent ≤ id ∨ k.eventType id ≠ kd then none
    else if k.OSSchedLock ≠ 0 then none else some (qcbOf k id)
  | .post kd id mail => (Call.post kd id mail).tests cfg k
  | _ => none

/-- After a step of a task: the kernel, where the task is, and the result if the call has
    returned. -/
abbrev EvtTurn := Kernel × EvtPoint × Option Ret

def EvtOutcome.turn (x : EvtOutcome) : EvtTurn := (x.1, .cont x.2.1, x.2.2)

/-! ## The sections by the kind of event -/

/-- `CoAcceptSem`, `CoAcceptMail` and `CoAcceptQueueMail` behind their tests. -/
def acceptSection (cfg : Env) (s : Kernel) (k : EventType) (id q : Nat) :
    Option (Kernel × Nat × StatusType) :=
  match k with
  | .sem => (acceptSemSection cfg s id).map fun r => (r.1, 0, r.2)
  | .mbox => acceptMailSection cfg s id
  | .queue => acceptQueueSection cfg s id q
  | .invalid => none

/-- `CoPendSem`, `CoPendMail` and `CoPendQueueMail` behind their tests. -/
def pendSection (cfg : Env) (s : Kernel) (k : EventType) (id q : Nat) :
    Option (Kernel × Option (Nat × StatusType)) :=
  match k with
  | .sem => (pendSemSection cfg s id).map fun r => (r.1, r.2.map fun st => (0, st))
  | .mbox => pendMailSection cfg s id
  | .queue => pendQueueSection cfg s id q
  | .invalid => none

/-- `CoPostSem`, `CoPostMail` and `CoPostQueueMail` behind their tests. -/
def postSection (cfg : Env) (s : Kernel) (k : EventType) (id q mail : Nat) :
    Option (Kernel × StatusType) :=
  match k with
  | .sem => postSemSection cfg s id
  | .mbox => postMailSection cfg s id mail
  | .queue => postQueueSection cfg s id q mail
  | .invalid => none

/-- The call goes on behind its tests, which have read `v`. -/
def EvtCall.rest (cfg : Env) (k : Kernel) (v : Nat) : EvtCall → Option EvtTurn
  | .del kd id opt =>
    let q := if kd = .queue then some v else none
    if opt = OPT_DEL_NO_PEND then some (markECB k id, .marked id q, none)
    else do
      let k ← releaseTasks cfg id cfg.tasks (osSchedLock k)
      let k ← osSchedUnlock cfg k
      some (k, .cont (.release id q), none)
  | .accept kd id => (acceptSection cfg k kd id v).map fun x => (evtReturned x.1 x.2).turn
  | .pend kd id timeout => (pendSection cfg k kd id v).map fun x =>
    match x.2 with
    | some ret => (evtReturned x.1 ret).turn
    | none => (x.1, .cont (.block id timeout), none)
  | .post kd id mail => (postSection cfg k kd id v mail).map fun x =>
    (evtReturned x.1 (0, x.2)).turn
  | _ => none

/-- The next step of the task `r`. -/
def EvtPoint.exec (cfg : Env) (k : Kernel) (r : Nat) : EvtPoint → Option EvtTurn
  | .cont (.release id q) => some (markECB k id, .marked id q, none)
  | .cont c => (c.exec cfg k r).map EvtOutcome.turn
  | .tested c v => c.rest cfg k v
  | .marked e q => (linkECB cfg k e).map fun k =>
    match q with
    | none => (evtReturned k (0, .E_OK)).turn
    | some q => (k, .cont (.clear q), none)

/-! ## Runs -/

structure EvtSplit where
  k : Kernel
  pc : Nat → EvtPoint

/-- What happens next: a call of the running task, the next step of its call, SysTick, or the post
    of an interrupt that finds the scheduler unlocked. -/
inductive EvtEdge where
  | call (c : EvtCall)
  | resume
  | tick
  | isr (k : EventType) (id mail : Nat)
  deriving DecidableEq, Repr

def EvtSplit.after (s : EvtSplit) (r : Nat) (x : EvtTurn) : EvtSplit where
  k := takeSwitch x.1
  pc := update s.pc r x.2.1

def EvtSplit.exec (cfg : Env) (s : EvtSplit) (rs : List SQC) (a : EvtEdge) : Option EvtSplit :=
  let k := s.k.defer cfg rs
  match a, s.k.TCBRunning with
  | .tick, _ => (sysTick_Handler cfg k).map fun k => { s with k := takeSwitch k }
  | .isr kd id mail, _ => (postEvent cfg k kd id mail).map fun x => { s with k := takeSwitch x.1 }
  | .call c, some r =>
    if r = 0 ∨ s.pc r ≠ .cont .none then none
    else match c.tests cfg k with
      | some v => some ⟨k, update s.pc r (.tested c v)⟩
      | none => (c.exec cfg k).map fun x => s.after r x.turn
  | .resume, some r => ((s.pc r).exec cfg k r).map (s.after r)
  | _, none => none

/-- One step, as `Sys.step`. -/
def EvtSplit.step (cfg : Env) (s : EvtSplit) (rs : List SQC) (a : EvtEdge) : Option EvtSplit :=
  (s.exec cfg.served rs a).filter fun s => !s.k.IsrReq

/-- The states that steps allowed by `ok` reach from `s0`. -/
inductive EvtSplit.Reach (cfg : Env) (ok : EvtSplit → EvtEdge → Prop) (s0 : EvtSplit) :
    EvtSplit → Prop
  | start : EvtSplit.Reach cfg ok s0 s0
  | step {s s' : EvtSplit} {rs : List SQC} {a : EvtEdge} (h : EvtSplit.Reach cfg ok s0 s)
      (hok : ok s a)
      (hs : s.step cfg rs a = some s') : EvtSplit.Reach cfg ok s0 s'

/-- The run that takes the given steps, as long as `ok` allows them. -/
def EvtSplit.runs (cfg : Env) (ok : EvtSplit → EvtEdge → Prop) [∀ s a, Decidable (ok s a)] :
    EvtSplit → List EvtEdge → Option EvtSplit
  | s, [] => some s
  | s, a :: l => if ok s a then (s.step cfg [] a).bind fun s => EvtSplit.runs cfg ok s l else none

theorem EvtSplit.runs_reach {cfg : Env} {ok : EvtSplit → EvtEdge → Prop} [∀ s a, Decidable (ok s a)]
    {s0 : EvtSplit} (l : List EvtEdge) : ∀ {s s' : EvtSplit}, EvtSplit.Reach cfg ok s0 s →
      EvtSplit.runs cfg ok s l = some s' → EvtSplit.Reach cfg ok s0 s' := by
  induction l with
  | nil =>
    intro s s' h e
    rw [← Option.some.inj e]
    exact h
  | cons a l ih =>
    intro s s' h e
    unfold EvtSplit.runs at e
    split at e
    · next hok =>
      obtain ⟨s1, e1, e2⟩ := Option.bind_eq_some_iff.mp e
      exact ih (h.step hok e1) e2
    · exact nomatch e

/-- `boot`, for these runs. -/
def splitBoot (cfg : Env) (i : Idle) (us : List Setup) : Option EvtSplit :=
  (boot cfg i us).map fun m => ⟨m.k, fun _ => .cont .none⟩

/-- A run from the start, from what can be computed of its last state. -/
theorem EvtSplit.ran {cfg : Env} {ok : EvtSplit → EvtEdge → Prop} [∀ s a, Decidable (ok s a)]
    {i : Idle} {us : List Setup} {l : List EvtEdge} {α : Type} {f : EvtSplit → α} {v : α}
    (h : (((splitBoot cfg i us).bind fun s => EvtSplit.runs cfg ok s l).map f) = some v) :
    ∃ s0 s, splitBoot cfg i us = some s0 ∧ EvtSplit.Reach cfg ok s0 s ∧ f s = v := by
  obtain ⟨s, hm, hf⟩ := Option.map_eq_some_iff.mp h
  obtain ⟨s0, h0, hr⟩ := Option.bind_eq_some_iff.mp hm
  exact ⟨s0, s, h0, EvtSplit.runs_reach l .start hr, hf⟩

end CoOS
