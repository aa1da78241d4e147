/-
  Deferred requests (`serviceReq.c`) and the posts that interrupts make. A post that finds the
  scheduler locked is put in a ring of requests; the `OsSchedUnlock` that ends the locked
  section executes the ring (`respondSRQ`).

  The posts of the drain run with the scheduler locked once more, so the unlock that ends each
  of them does not drain again: they can be given any `respondSRQ` (`Env.served`).
-/
import CoOS.Kernel.Event
import CoOS.Kernel.Flag
import CoOS.Kernel.Timer

namespace CoOS

open Function (update)

/-- `InsertInSRQ`. -/
def insertInSRQ (cfg : Env) (s : Kernel) (type : ReqType) (id arg : Nat) : Kernel × Bool :=
  let q := s.ServiceReq
  if cfg.maxServiceRequest ≤ q.cnt then (s, false)
  else ({ s with
    IsrReq := true
    ServiceReq := { q with
      cnt := q.cnt + 1
      cell := update q.cell ((q.cnt + q.head) % cfg.maxServiceRequest) ⟨type, id, arg⟩ } }, true)

/-- The locked branch of the `isr_` functions. -/
def deferReq (cfg : Env) (s : Kernel) (type : ReqType) (id arg : Nat) : Kernel × StatusType :=
  match insertInSRQ cfg s type id arg with
  | (s, true) => (s, .E_OK)
  | (s, false) => (s, .E_SEV_REQ_FULL)

/-- `isr_PostSem`. -/
def isr_PostSem (cfg : Env) (s : Kernel) (id : Nat) : Option (Kernel × StatusType) :=
  if 0 < s.OSSchedLock then some (deferReq cfg s .SEM_REQ id 0) else coPostSem cfg s id

/-- `isr_PostMail`. -/
def isr_PostMail (cfg : Env) (s : Kernel) (id pmail : Nat) : Option (Kernel × StatusType) :=
  if 0 < s.OSSchedLock then some (deferReq cfg s .MBOX_REQ id pmail) else coPostMail cfg s id pmail

/-- `isr_PostQueueMail`. -/
def isr_PostQueueMail (cfg : Env) (s : Kernel) (id pmail : Nat) : Option (Kernel × StatusType) :=
  if 0 < s.OSSchedLock then some (deferReq cfg s .QUEUE_REQ id pmail)
  else coPostQueueMail cfg s id pmail

/-- `isr_SetFlag`. -/
def isr_SetFlag (cfg : Env) (s : Kernel) (id : Nat) : Option (Kernel × StatusType) :=
  if 0 < s.OSSchedLock then some (deferReq cfg s .FLAG_REQ id 0) else coSetFlag cfg s id

/-- The `switch(cell.type)` of `RespondSRQ`. -/
def serveSwitch (cfg : Env) (s : Kernel) (cell : SQC) : Option (Kernel × StatusType) :=
  match cell.type with
  | .SEM_REQ => coPostSem cfg s cell.id
  | .MBOX_REQ => coPostMail cfg s cell.id cell.arg
  | .FLAG_REQ => coSetFlag cfg s cell.id
  | .QUEUE_REQ => coPostQueueMail cfg s cell.id cell.arg

/-- One request. The source drops the status; here it goes on record. -/
def serve (cfg : Env) (s : Kernel) (cell : SQC) : Option (Kernel × StatusType) :=
  (serveSwitch cfg s cell).map fun x => (x.1.answer cell x.2, x.2)

/-- The loop of `RespondSRQ`. The fuel is the size of the ring. -/
def serveLoop (cfg : Env) : Nat → Kernel → Option Kernel
  | fuel, s =>
    if s.ServiceReq.cnt = 0 then some s
    else
      match fuel with
      | 0 => none
      | fuel + 1 => do
        let q := s.ServiceReq
        let (s, _) ← serve cfg { s with ServiceReq := { q with
          head := (q.head + 1) % cfg.maxServiceRequest, cnt := q.cnt - 1 } } (q.cell q.head)
        serveLoop cfg fuel s

/-- `RespondSRQ`. -/
def respondSRQ (cfg : Env) (s : Kernel) : Option Kernel := do
  let s ← if s.TimeReq then do
      let s ← timeDispose cfg cfg.tasks s
      some { s with TimeReq := false }
    else some s
  let s ← if s.TimerReq then do
      let s ← tmrDispose cfg cfg.maxTmr s
      some { s with TimerReq := false }
    else some s
  let s ← serveLoop cfg cfg.maxServiceRequest s
  some (if s.ServiceReq.cnt = 0 then { s with IsrReq := false } else s)

/-- The build with this `RespondSRQ`. -/
def Env.served (cfg : Env) : Env :=
  { cfg with respondSRQ := CoOS.respondSRQ { cfg with respondSRQ := fun _ => none } }

end CoOS
