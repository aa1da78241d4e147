/-
  Semaphores (`sem.c`), mailboxes (`mbox.c`) and queues (`queue.c`).

  A pend has two critical sections: one that tests for a token or a mail, and, when there is
  none, one that enters the waiting list. They are two functions here (`coPendSem` and
  `pendWait`), since the unlock between them can lose the CPU; what is left of the call when
  the caller runs again is `pendReturn`.

  All these calls test the event before they lock the scheduler. The first locked section of each
  is a function of its own (`postSemSection` and so on), which the call applies to the state that
  it has tested.
-/
import CoOS.Kernel.Task

namespace CoOS

open Function (update)

/-- `CreatEvent`. -/
def creatEvent (cfg : Env) (s : Kernel) (ty : EventType) (sort : Nat) (ptr : EventPtr) :
    Option (Kernel × Option Nat) :=
  let s := osSchedLock s
  match s.FreeEventList with
  | none => do
    let s ← osSchedUnlock cfg s
    some (s, none)
  | some e => do
    let s ← osSchedUnlock cfg { s with
      FreeEventList := match s.eventPtr e with
        | .ecb e' => some e'
        | _ => none }
    some ({ s with
      eventType := update s.eventType e ty
      eventSortType := update s.eventSortType e (sort % 16) -- a field of 4 bits
      eventPtr := update s.eventPtr e ptr
      eventTCBList := update s.eventTCBList e none }, some e)

/-! ## What the pends and the posts share -/

/-- The second critical section of `CoPendSem`, `CoPendMail` and `CoPendQueueMail`. -/
def pendWait (cfg : Env) (s : Kernel) (id timeout : Nat) : Option Kernel :=
  match s.TCBRunning with
  | none => none
  | some cur =>
    if timeout = 0 then eventTaskToWait cfg s id cur
    else do
      let s ← eventTaskToWait cfg (osSchedLock s) id cur
      let s ← insertDelayList cfg s cur timeout
      osSchedUnlock cfg s

/-- What is left of a pend when its caller `cur` runs again: the mail and the status. -/
def pendReturn (s : Kernel) (cur timeout : Nat) : Kernel × Nat × StatusType :=
  if timeout ≠ 0 ∧ s.pmail cur = 0 then (s, 0, .E_TIMEOUT)
  else ({ s with pmail := update s.pmail cur 0 }, s.pmail cur, .E_OK)

/-- The end of a post that succeeds: `EventTaskToRdy`, with the record of the post. -/
def postTo (cfg : Env) (s : Kernel) (id mail : Nat) : Option Kernel :=
  eventTaskToRdy cfg (s.note id mail .posted) id

/-! ## Semaphores -/

/-- Take a token. -/
def takeToken (s : Kernel) (id : Nat) : Kernel :=
  { s with eventCounter := update s.eventCounter id (s.eventCounter id - 1) }.note id
    0xffffffff .taken

/-- `CoCreateSem`: the id of the semaphore, or `E_CREATE_FAIL`. -/
def coCreateSem (cfg : Env) (s : Kernel) (initCnt maxCnt sortType : Nat) :
    Option (Kernel × Nat) :=
  if maxCnt < initCnt ∨ (sortType ≠ sortFifo ∧ sortType ≠ sortPrio) then some (s, INVALID_ID)
  else do
    let (s, pecb) ← creatEvent cfg s .sem sortType .null
    match pecb with
    | none => some (s, INVALID_ID)
    | some e => some ({ s with
        eventCounter := update s.eventCounter e initCnt
        initialEventCounter := update s.initialEventCounter e maxCnt }, e)

/-- `CoAcceptSem` from its `OsSchedLock` on. -/
def acceptSemSection (cfg : Env) (s : Kernel) (id : Nat) : Option (Kernel × StatusType) :=
  let s := osSchedLock s
  if 0 < s.eventCounter id then do
    let s ← osSchedUnlock cfg (takeToken s id)
    some (s, .E_OK)
  else do
    let s ← osSchedUnlock cfg s
    some (s, .E_SEM_EMPTY)

/-- `CoAcceptSem`, when nothing comes between its tests and its `OsSchedLock`. -/
def coAcceptSem (cfg : Env) (s : Kernel) (id : Nat) : Option (Kernel × StatusType) :=
  if cfg.maxEvent ≤ id ∨ s.eventType id ≠ .sem then some (s, .E_INVALID_ID)
  else acceptSemSection cfg s id

/-- The first critical section of `CoPendSem`. The status is `none` when there was no token; the
    caller goes on with `pendWait`. -/
def pendSemSection (cfg : Env) (s : Kernel) (id : Nat) : Option (Kernel × Option StatusType) :=
  let s := osSchedLock s
  if 0 < s.eventCounter id then do
    let s ← osSchedUnlock cfg (takeToken s id)
    some (s, some .E_OK)
  else do
    let s ← osSchedUnlock cfg s
    some (s, none)

/-- `CoPendSem` up to the end of its first critical section, when nothing comes between its tests
    and its `OsSchedLock`. -/
def coPendSem (cfg : Env) (s : Kernel) (id : Nat) : Option (Kernel × Option StatusType) :=
  if 0 < s.OSIntNesting then some (s, some .E_CALL)
  else if cfg.maxEvent ≤ id ∨ s.eventType id ≠ .sem then some (s, some .E_INVALID_ID)
  else if s.OSSchedLock ≠ 0 then some (s, some .E_OS_IN_LOCK)
  else pendSemSection cfg s id

/-- `CoPostSem` from its `OsSchedLock` on. -/
def postSemSection (cfg : Env) (s : Kernel) (id : Nat) : Option (Kernel × StatusType) := do
  let s := osSchedLock s
  let s := { s with eventCounter := update s.eventCounter id ((s.eventCounter id + 1) % 65536) }
  let s ← postTo cfg s id 0xffffffff
  let s ← osSchedUnlock cfg s
  some (s, .E_OK)

/-- `CoPostSem`, when nothing comes between its tests and its `OsSchedLock`. -/
def coPostSem (cfg : Env) (s : Kernel) (id : Nat) : Option (Kernel × StatusType) :=
  if cfg.maxEvent ≤ id ∨ s.eventType id ≠ .sem then some (s, .E_INVALID_ID)
  else if s.eventCounter id = s.initialEventCounter id then some (s, .E_SEM_FULL)
  else postSemSection cfg s id

/-! ## Mailboxes -/

/-- `CoCreateMbox`. -/
def coCreateMbox (cfg : Env) (s : Kernel) (sortType : Nat) : Option (Kernel × Nat) := do
  let (s, pecb) ← creatEvent cfg s .mbox sortType .null
  match pecb with
  | none => some (s, INVALID_ID)
  | some e => some ({ s with eventCounter := update s.eventCounter e 0 }, e)

/-- Get the message and clear the mailbox. -/
def takeMail (s : Kernel) (id : Nat) : Kernel × Nat :=
  ({ s with
    eventPtr := update s.eventPtr id .null
    eventCounter := update s.eventCounter id 0 }.note id (s.eventPtr id).mailVal .taken,
    (s.eventPtr id).mailVal)

/-- `CoAcceptMail` from its `OsSchedLock` on. -/
def acceptMailSection (cfg : Env) (s : Kernel) (id : Nat) : Option (Kernel × Nat × StatusType) :=
  let s := osSchedLock s
  if s.eventCounter id = 1 then do
    let (s, pmail) := takeMail s id
    let s ← osSchedUnlock cfg s
    some (s, pmail, .E_OK)
  else do
    let s ← osSchedUnlock cfg s
    some (s, 0, .E_MBOX_EMPTY)

/-- `CoAcceptMail`, when nothing comes between its tests and its `OsSchedLock`. -/
def coAcceptMail (cfg : Env) (s : Kernel) (id : Nat) : Option (Kernel × Nat × StatusType) :=
  if cfg.maxEvent ≤ id ∨ s.eventType id ≠ .mbox then some (s, 0, .E_INVALID_ID)
  else acceptMailSection cfg s id

/-- The first critical section of `CoPendMail`. -/
def pendMailSection (cfg : Env) (s : Kernel) (id : Nat) :
    Option (Kernel × Option (Nat × StatusType)) :=
  let s := osSchedLock s
  if s.eventCounter id = 1 then do
    let (s, pmail) := takeMail s id
    let s ← osSchedUnlock cfg s
    some (s, some (pmail, .E_OK))
  else do
    let s ← osSchedUnlock cfg s
    some (s, none)

/-- `CoPendMail` up to the end of its first critical section, when nothing comes before it. -/
def coPendMail (cfg : Env) (s : Kernel) (id : Nat) :
    Option (Kernel × Option (Nat × StatusType)) :=
  if 0 < s.OSIntNesting then some (s, some (0, .E_CALL))
  else if cfg.maxEvent ≤ id ∨ s.eventType id ≠ .mbox then some (s, some (0, .E_INVALID_ID))
  else if s.OSSchedLock ≠ 0 then some (s, some (0, .E_OS_IN_LOCK))
  else pendMailSection cfg s id

/-- `CoPostMail` from its `OsSchedLock` on. -/
def postMailSection (cfg : Env) (s : Kernel) (id pmail : Nat) : Option (Kernel × StatusType) := do
  let s := osSchedLock s
  let s := { s with
    eventPtr := update s.eventPtr id (.mail pmail)
    eventCounter := update s.eventCounter id 1 }
  let s ← postTo cfg s id pmail
  let s ← osSchedUnlock cfg s
  some (s, .E_OK)

/-- `CoPostMail`, when nothing comes between its tests and its `OsSchedLock`. -/
def coPostMail (cfg : Env) (s : Kernel) (id pmail : Nat) : Option (Kernel × StatusType) :=
  if cfg.maxEvent ≤ id ∨ s.eventType id ≠ .mbox then some (s, .E_INVALID_ID)
  else if s.eventCounter id = 0 then postMailSection cfg s id pmail
  else some (s, .E_MBOX_FULL)

/-! ## Queues -/

/-- The first free queue block from `i` on. -/
def freeQueue (s : Kernel) : Nat → Nat → Option Nat
  | 0, _ => none
  | n + 1, i => if s.QueueIDVessel i then freeQueue s n (i + 1) else some i

theorem freeQueue_congr {k k' : Kernel} (m : Nat) (h : k'.QueueIDVessel = k.QueueIDVessel) :
    ∀ j, freeQueue k' m j = freeQueue k m j := by
  induction m with
  | zero => exact fun _ => rfl
  | succ m ih =>
    intro j
    unfold freeQueue
    rw [h, ih]

theorem freeQueue_free {k : Kernel} {i : Nat} (m : Nat) : ∀ j, freeQueue k m j = some i →
    k.QueueIDVessel i = false := by
  induction m with
  | zero => exact fun j e => nomatch e
  | succ m ih =>
    intro j e
    unfold freeQueue at e
    split at e
    · exact ih _ e
    · next hb =>
      rw [← Option.some.inj e]
      exact Bool.not_eq_true _ ▸ hb

/-- `CoCreateQueue`. When no event block is left, the queue block stays taken. -/
def coCreateQueue (cfg : Env) (s : Kernel) (qStart size sortType : Nat) : Option (Kernel × Nat) :=
  if qStart = 0 ∨ size = 0 then some (s, INVALID_ID)
  else
    let s := osSchedLock s
    match freeQueue s cfg.maxQueue 0 with
    | none => do
      let s ← osSchedUnlock cfg s
      some (s, INVALID_ID)
    | some i => do
      let s ← osSchedUnlock cfg { s with QueueIDVessel := update s.QueueIDVessel i true }
      let s := { s with
        qId := update s.qId i i
        qHead := update s.qHead i 0
        qTail := update s.qTail i 0
        qMaxSize := update s.qMaxSize i size
        qSize := update s.qSize i 0 }
      let (s, pecb) ← creatEvent cfg s .queue sortType (.qcb i)
      some (s, pecb.getD INVALID_ID)

/-- Extract the oldest message of the queue block `q` of the event `id`. -/
def dequeue (s : Kernel) (id q : Nat) : Kernel × Nat :=
  let head := (s.qHead q + 1) % 65536
  ({ s with
    qHead := update s.qHead q (if head = s.qMaxSize q then 0 else head)
    qSize := update s.qSize q ((s.qSize q + 65535) % 65536) }.note id (s.qBuf q (s.qHead q)) .taken,
    s.qBuf q (s.qHead q))

/-- Insert a message into the queue block `q`. -/
def enqueue (s : Kernel) (q pmail : Nat) : Kernel :=
  let tail := (s.qTail q + 1) % 65536
  { s with
    qBuf := update s.qBuf q (update (s.qBuf q) (s.qTail q) pmail)
    qTail := update s.qTail q (if tail = s.qMaxSize q then 0 else tail)
    qSize := update s.qSize q ((s.qSize q + 1) % 65536) }

/-- `(P_QCB)pecb->eventPtr`, for a queue. -/
def qcbOf (s : Kernel) (id : Nat) : Nat :=
  match s.eventPtr id with
  | .qcb q => q
  | _ => 0

/-- `CoAcceptQueueMail` from its `OsSchedLock` on; it has read the queue block `q` before. -/
def acceptQueueSection (cfg : Env) (s : Kernel) (id q : Nat) : Option (Kernel × Nat × StatusType) :=
  let s := osSchedLock s
  if s.qSize q ≠ 0 then do
    let (s, pmail) := dequeue s id q
    let s ← osSchedUnlock cfg s
    some (s, pmail, .E_OK)
  else do
    let s ← osSchedUnlock cfg s
    some (s, 0, .E_QUEUE_EMPTY)

/-- `CoAcceptQueueMail`, when nothing comes between its tests and its `OsSchedLock`. -/
def coAcceptQueueMail (cfg : Env) (s : Kernel) (id : Nat) : Option (Kernel × Nat × StatusType) :=
  if cfg.maxEvent ≤ id ∨ s.eventType id ≠ .queue then some (s, 0, .E_INVALID_ID)
  else acceptQueueSection cfg s id (qcbOf s id)

/-- The first critical section of `CoPendQueueMail`; the queue block `q` has been read before. -/
def pendQueueSection (cfg : Env) (s : Kernel) (id q : Nat) :
    Option (Kernel × Option (Nat × StatusType)) :=
  let s := osSchedLock s
  if s.qSize q ≠ 0 then do
    let (s, pmail) := dequeue s id q
    let s ← osSchedUnlock cfg s
    some (s, some (pmail, .E_OK))
  else do
    let s ← osSchedUnlock cfg s
    some (s, none)

/-- `CoPendQueueMail` up to the end of its first critical section, when nothing comes before it. -/
def coPendQueueMail (cfg : Env) (s : Kernel) (id : Nat) :
    Option (Kernel × Option (Nat × StatusType)) :=
  if 0 < s.OSIntNesting then some (s, some (0, .E_CALL))
  else if cfg.maxEvent ≤ id ∨ s.eventType id ≠ .queue then some (s, some (0, .E_INVALID_ID))
  else if s.OSSchedLock ≠ 0 then some (s, some (0, .E_OS_IN_LOCK))
  else pendQueueSection cfg s id (qcbOf s id)

/-- `CoPostQueueMail` from its `OsSchedLock` on; it has read the queue block `q` before. -/
def postQueueSection (cfg : Env) (s : Kernel) (id q pmail : Nat) :
    Option (Kernel × StatusType) := do
  let s ← postTo cfg (enqueue (osSchedLock s) q pmail) id pmail
  let s ← osSchedUnlock cfg s
  some (s, .E_OK)

/-- `CoPostQueueMail`, when nothing comes between its tests and its `OsSchedLock`. -/
def coPostQueueMail (cfg : Env) (s : Kernel) (id pmail : Nat) : Option (Kernel × StatusType) :=
  if cfg.maxEvent ≤ id ∨ s.eventType id ≠ .queue then some (s, .E_INVALID_ID)
  else
    let q := qcbOf s id
    if s.qSize q = s.qMaxSize q then some (s, .E_QUEUE_FULL)
    else postQueueSection cfg s id q pmail

/-! ## The calls by the kind of event -/

/-- `CoAcceptSem`, `CoAcceptMail`, `CoAcceptQueueMail`. A semaphore gives no mail. -/
def acceptEvent (cfg : Env) (s : Kernel) (k : EventType) (id : Nat) :
    Option (Kernel × Nat × StatusType) :=
  match k with
  | .sem => (coAcceptSem cfg s id).map fun r => (r.1, 0, r.2)
  | .mbox => coAcceptMail cfg s id
  | .queue => coAcceptQueueMail cfg s id
  | .invalid => none

/-- `CoPendSem`, `CoPendMail`, `CoPendQueueMail`, the first critical section. -/
def pendEvent (cfg : Env) (s : Kernel) (k : EventType) (id : Nat) :
    Option (Kernel × Option (Nat × StatusType)) :=
  match k with
  | .sem => (coPendSem cfg s id).map fun r => (r.1, r.2.map fun st => (0, st))
  | .mbox => coPendMail cfg s id
  | .queue => coPendQueueMail cfg s id
  | .invalid => none

/-- `CoPostSem`, `CoPostMail`, `CoPostQueueMail`. The mail of a semaphore is the mark
    `0xffffffff` that `EventTaskToRdy` leaves in `pmail`. -/
def postEvent (cfg : Env) (s : Kernel) (k : EventType) (id mail : Nat) :
    Option (Kernel × StatusType) :=
  match k with
  | .sem => coPostSem cfg s id
  | .mbox => coPostMail cfg s id mail
  | .queue => coPostQueueMail cfg s id mail
  | .invalid => none

end CoOS
