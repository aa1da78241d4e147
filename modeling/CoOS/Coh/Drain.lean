/-
  The drain of deferred requests: `RespondSRQ`, and the `OsSchedUnlock` that calls it.

  The requests are executed in the order of the ring; each one is a post or a `CoSetFlag` with
  the scheduler locked once more, so it does to `Data` what the call does (`Data.serve`).
-/
import CoOS.Coh.FlagKeep
import CoOS.Lib.Ring

namespace CoOS

open Function (update)
open DList KeyOrder

/-! ## On `Data` -/

/-- The call that a deferred request stands for. -/
def Data.request (cfg : Env) (d : Data) (c : SQC) : Data × StatusType :=
  match c.type with
  | .SEM_REQ => d.post cfg .sem c.id 0xffffffff
  | .MBOX_REQ => d.post cfg .mbox c.id c.arg
  | .QUEUE_REQ => d.post cfg .queue c.id c.arg
  | .FLAG_REQ => d.setFlag cfg c.id

/-- The record of the answer to a request. -/
def Data.answer (d : Data) (c : SQC) (st : StatusType) : Data :=
  { d with aside := { d.aside with answers := d.aside.answers ++ [(c, st)] } }

/-- One deferred request. -/
def Data.serve (cfg : Env) (d : Data) (c : SQC) : Data :=
  (d.request cfg c).1.answer c (d.request cfg c).2

/-- The ring of requests is set. -/
def Aside.setRing (a : Aside) (req : Bool) (q : SRQ) : Aside :=
  { a with IsrReq := req, ServiceReq := q }

def Data.setRing (d : Data) (req : Bool) (q : SRQ) : Data :=
  { d with aside := d.aside.setRing req q }

/-- The lists of waiting tasks are in order. -/
structure Wf (cfg : Env) (d : Data) : Prop where
  evt : EvtOk d
  flag : FlagD d (d.aside.flagTasks cfg)

/-- The requests `cs` are executed, each with the lists in order. -/
inductive Serves (cfg : Env) : Data → List SQC → Data → Prop
  | nil (d : Data) : Serves cfg d [] d
  | cons {d d' : Data} {c : SQC} {cs : List SQC} (hw : Wf cfg d)
      (h : Serves cfg (d.serve cfg c) cs d') : Serves cfg d (c :: cs) d'

/-- The requests in the ring, oldest first. -/
def SRQ.pending (q : SRQ) (max : Nat) : List SQC :=
  (List.range q.cnt).map fun i => q.cell ((q.head + i) % max)

section Ring

variable {cfg : Env} {d d' : Data} {b : Bool} {q : SRQ}

theorem setRing_handOver (a : Aside) (e t : Nat) :
    (a.setRing b q).handOver e t = (a.handOver e t).setRing b q := by
  unfold Aside.handOver
  rw [show (a.setRing b q).eventType = a.eventType from rfl]
  cases a.eventType e with
  | sem => rfl
  | mbox => rfl
  | queue =>
    dsimp only
    rw [show (a.setRing b q).eventPtr = a.eventPtr from rfl]
    cases a.eventPtr e with
    | null => rfl
    | ecb e' => rfl
    | qcb q => rfl
    | mail v => rfl
  | invalid => rfl

theorem setRing_store (a : Aside) (e v : Nat) :
    (a.setRing b q).store e v = (a.store e v).setRing b q := by
  unfold Aside.store
  rw [show (a.setRing b q).eventType = a.eventType from rfl]
  cases a.eventType e with
  | sem => rfl
  | mbox => rfl
  | queue => rfl
  | invalid => rfl

theorem setRing_spring (a : Aside) (t : Nat) :
    (a.setRing b q).spring t = (a.spring t).setRing b q := by
  have hn : (a.setRing b q).nextNode t = a.nextNode t := rfl
  have hp : (a.setRing b q).prevNode t = a.prevNode t := rfl
  unfold Aside.spring Aside.removeLink
  rw [hn, hp]
  cases a.nextNode t with
  | none =>
    cases a.prevNode t with
    | none => rfl
    | some p => rfl
  | some n =>
    cases a.prevNode t with
    | none => rfl
    | some p => rfl

theorem setRing_springs (T : List Nat) (a : Aside) :
    T.foldl Aside.spring (a.setRing b q) = (T.foldl Aside.spring a).setRing b q := by
  induction T generalizing a with
  | nil => rfl
  | cons t T ih => rw [List.foldl_cons, setRing_spring, ih, List.foldl_cons]

theorem setRing_release (d : Data) (e : Nat) :
    (d.setRing b q).release e = (d.release e).setRing b q := by
  unfold Data.release
  rw [show (d.setRing b q).evt = d.evt from rfl]
  cases d.evt.lst e with
  | nil => rfl
  | cons t l =>
    change Data.mk ((d.aside.setRing b q).handOver e t) _ _ _ = _
    rw [setRing_handOver]
    rfl

theorem setRing_post (d : Data) (k : EventType) (e v : Nat) : (d.setRing b q).post cfg k e v =
    ((d.post cfg k e v).1.setRing b q, (d.post cfg k e v).2) := by
  have hok : (d.setRing b q).postOk e v = (d.postOk e v).setRing b q := by
    unfold Data.postOk
    rw [← setRing_release]
    change Data.release (Data.mk (((d.aside.setRing b q).store e v).note e v .posted) _ _ _) e = _
    rw [setRing_store]
    rfl
  unfold Data.post
  change (if ¬ d.aside.isKind cfg k e then (_ : Data × StatusType)
    else if d.aside.full e then _ else _) = _
  split
  · rfl
  · split
    · rfl
    · exact congrArg (·, StatusType.E_OK) hok

theorem setRing_setFlag (d : Data) (id : Nat) : (d.setRing b q).setFlag cfg id =
    ((d.setFlag cfg id).1.setRing b q, (d.setFlag cfg id).2) := by
  unfold Data.setFlag
  change (if d.aside.badFlag id then (_ : Data × StatusType)
    else if d.aside.flagRdy &&& flagBit id ≠ 0 then _ else _) = _
  split
  · rfl
  · split
    · rfl
    · exact congrArg (fun a => (Data.mk a d.evt (fun u => u ∉ d.wakes cfg id ∧ d.waits u)
        fun u => u ∉ d.wakes cfg id ∧ d.timed u, StatusType.E_OK))
        (setRing_springs (d.wakes cfg id) (d.setRdy (d.aside.flagRdy ||| flagBit id)).aside)

theorem setRing_request (d : Data) (c : SQC) : (d.setRing b q).request cfg c =
    ((d.request cfg c).1.setRing b q, (d.request cfg c).2) := by
  unfold Data.request
  cases c.type with
  | SEM_REQ => exact setRing_post ..
  | MBOX_REQ => exact setRing_post ..
  | QUEUE_REQ => exact setRing_post ..
  | FLAG_REQ => exact setRing_setFlag ..

theorem setRing_serve (d : Data) (c : SQC) :
    (d.setRing b q).serve cfg c = (d.serve cfg c).setRing b q := by
  unfold Data.serve
  rw [setRing_request]
  rfl

theorem Wf.setRing (h : Wf cfg d) : Wf cfg (d.setRing b q) :=
  ⟨⟨h.evt.mem, h.evt.nodup, h.evt.wait⟩, h.flag.list.congr rfl rfl rfl, h.flag.wait⟩

theorem Serves.setRing {cs : List SQC} (h : Serves cfg d cs d') :
    Serves cfg (d.setRing b q) cs (d'.setRing b q) := by
  induction h with
  | nil d => exact .nil _
  | cons hw _ ih =>
    refine .cons hw.setRing ?_
    rw [setRing_serve]
    exact ih

end Ring

/-! ## The drain -/

/-- `RespondSRQ` is only called by the outermost unlock, so a state does not depend on it. -/
theorem Pending.env {cfg : Env} {s : Kernel} {g : Ghost} {cur : Nat} (h : Pending cfg s g cur)
    (r : Kernel → Option Kernel) : Pending { cfg with respondSRQ := r } s g cur := by
  have hrep : Rep { cfg with respondSRQ := r } s g :=
    ⟨h.coh.rep.tcb, h.coh.rep.evt, h.coh.rep.sorted, h.coh.rep.fits, h.coh.rep.dly,
      h.coh.rep.deltas, h.coh.rep.dlyLt, h.coh.rep.lt, h.coh.rep.evLt⟩
  exact ⟨⟨hrep, h.coh.task, h.coh.free, h.coh.run, h.coh.nest, h.coh.tmr, h.coh.stk,
    h.coh.spare⟩, h.lt, h.running, h.next, h.lock, h.req, h.ticks, h.idle⟩

section Drain

variable {cfg : Env} {s : Kernel} {g : Ghost} {cur : Nat} {F : List Nat}

/-- A call inside a locked section. -/
theorem Section.nested {β : Type} {res : Option (Kernel × β)} {Q : β → Data → Prop}
    (h : Section cfg s g cur res Q) (hp : Pending cfg s g cur) :
    ∃ s' g' b d, res = some (s', b) ∧ Pending cfg s' g' cur ∧ s'.OSSchedLock = s.OSSchedLock ∧
      Calm g g' ∧ Holds s' g' d ∧ Q b d := by
  rcases h with ⟨b, e, hq⟩ | ⟨s1, g1, b, d, e, hb, hq⟩
  · exact ⟨s, g, b, _, e, hp, rfl, Calm.refl _, holds_data s g, hq⟩
  · obtain ⟨s', e1, e2, e3, e4, e5, -⟩ := hb.nested hp.lock
    refine ⟨s', g1, b, d, ?_, e2, e3, e4, e5, hq⟩
    rw [e, e1]
    rfl

theorem Restful.nested {β : Type} {res : Option (Kernel × β)} {Q : β → Data → Prop}
    (h : Restful cfg s g cur res Q) (hp : Pending cfg s g cur) :
    ∃ s' g' b d, res = some (s', b) ∧ Pending cfg s' g' cur ∧ s'.OSSchedLock = s.OSSchedLock ∧
      Calm g g' ∧ Holds s' g' d ∧ Eased s g s' g' ∧ Q b d := by
  rcases h with ⟨b, e, hq⟩ | ⟨s1, g1, b, d, e, hb, he, hq⟩
  · exact ⟨s, g, b, _, e, hp, rfl, Calm.refl _, holds_data s g, .refl s g, hq⟩
  · obtain ⟨s', e1, e2, e3, e4, e5, e6⟩ := hb.nested hp.lock
    refine ⟨s', g1, b, d, ?_, e2, e3, e4, e5, ⟨he.dly, e6.trans he.clock⟩, hq⟩
    rw [e, e1]
    rfl

theorem FlagOk.wf (hf : FlagOk cfg s g F) (hc : Coh cfg s g) : Wf cfg (s.data g) := by
  refine ⟨hc.evtOk, ?_⟩
  rw [show (s.data g).aside.flagTasks cfg = F from hf.tasks]
  exact hf.data

theorem FlagOk.setRing (hf : FlagOk cfg s g F) (b : Bool) (q : SRQ) :
    FlagOk cfg { s with IsrReq := b, ServiceReq := q } g F :=
  ⟨hf.list.congr rfl rfl rfl, hf.wait⟩

/-- The call of a request. -/
theorem serveSwitch_spec (h : Pending cfg s g cur) (hf : FlagOk cfg s g F) (c : SQC) :
    ∃ s' g' st F', serveSwitch cfg s c = some (s', st) ∧ Pending cfg s' g' cur ∧
      s'.OSSchedLock = s.OSSchedLock ∧ Calm g g' ∧ Holds s' g' ((s.data g).request cfg c).1 ∧
      st = ((s.data g).request cfg c).2 ∧ FlagOk cfg s' g' F' ∧ Eased s g s' g' := by
  have hpost : ∀ {k : EventType} {id v : Nat} {res : Option (Kernel × StatusType)},
      Restful cfg s g cur res (fun st d => (d, st) = (s.data g).post cfg k id v) →
      ∃ s' g' st F', res = some (s', st) ∧ Pending cfg s' g' cur ∧
        s'.OSSchedLock = s.OSSchedLock ∧ Calm g g' ∧ Holds s' g' ((s.data g).post cfg k id v).1 ∧
        st = ((s.data g).post cfg k id v).2 ∧ FlagOk cfg s' g' F' ∧ Eased s g s' g' := by
    intro k id v res hs
    obtain ⟨s', g', st, d, e1, e2, e3, e4, e5, he, e6⟩ := hs.nested h
    rw [← e6]
    refine ⟨s', g', st, F, e1, e2, e3, e4, e5, rfl, hf.next e4 e5 ?_ fun t ht => Or.inl ht, he⟩
    have := @FlagD.post cfg _ _ hf.data h.coh.evtOk k id v
    rwa [← e6] at this
  unfold serveSwitch Data.request
  cases c.type with
  | SEM_REQ => exact hpost (coPostSem_restful h.enter c.id)
  | MBOX_REQ => exact hpost (coPostMail_restful h.enter c.id c.arg)
  | QUEUE_REQ => exact hpost (coPostQueueMail_restful h.enter c.id c.arg)
  | FLAG_REQ =>
    obtain ⟨s', g', st, d, e1, e2, e3, e4, e5, he, e6⟩ :=
      (coSetFlag_restful h.enter hf c.id).nested h
    obtain ⟨F', hD, hsub⟩ := hf.data.setFlag hf.length c.id
    rw [← e6] at hD ⊢
    exact ⟨s', g', st, F', e1, e2, e3, e4, e5, rfl,
      hf.next e4 e5 hD (fun t ht => Or.inl (hsub t ht)),
      he⟩

/-- One request of the drain: the record of its answer touches no list. -/
theorem serve_spec (h : Pending cfg s g cur) (hf : FlagOk cfg s g F) (c : SQC) :
    ∃ s' g' st F', serve cfg s c = some (s', st) ∧ Pending cfg s' g' cur ∧
      s'.OSSchedLock = s.OSSchedLock ∧ Calm g g' ∧ Holds s' g' ((s.data g).serve cfg c) ∧
      FlagOk cfg s' g' F' ∧ Eased s g s' g' := by
  obtain ⟨s', g', st, F', e1, e2, e3, e4, e5, est, e6, e7⟩ := serveSwitch_spec h hf c
  refine ⟨s'.answer c st, g', st, F', ?_, e2.congr rfl rfl rfl id, e3, e4,
    ⟨?_, e5.evt, e5.waits, e5.timed⟩, ⟨e6.list.congr rfl rfl rfl, e6.wait⟩, e7.dly, e7.clock⟩
  · unfold serve
    rw [e1]
    rfl
  · unfold Data.serve
    rw [← est, ← e5.eq]
    rfl

/-- Pop the oldest request. -/
def SRQ.pop (q : SRQ) (max : Nat) : SRQ := { q with head := (q.head + 1) % max, cnt := q.cnt - 1 }

theorem SRQ.pending_pop {q : SRQ} {max : Nat} (hc : q.cnt ≠ 0) (hh : q.head < max) :
    q.pending max = q.cell q.head :: (q.pop max).pending max := by
  obtain ⟨n, hn⟩ := Nat.exists_eq_succ_of_ne_zero hc
  unfold SRQ.pending SRQ.pop
  rw [hn]
  exact Ring.items_get hh

/-- `InsertInSRQ` puts its request behind the others. -/
theorem SRQ.pending_push {q : SRQ} {max : Nat} (hc : q.cnt < max) (hh : q.head < max) (c : SQC) :
    ({ q with cnt := q.cnt + 1, cell := update q.cell ((q.cnt + q.head) % max) c } :
      SRQ).pending max =
      q.pending max ++ [c] := by
  refine Ring.items_put ⟨hh, ?_, Nat.le_of_lt hc⟩ hc c
  rw [Nat.add_comm]

/-- A request does not change the ring. -/
theorem serve_ring (d : Data) (c : SQC) : (d.serve cfg c).aside.IsrReq = d.aside.IsrReq ∧
    (d.serve cfg c).aside.ServiceReq = d.aside.ServiceReq := by
  have h := @setRing_serve cfg d.aside.IsrReq d.aside.ServiceReq d c
  rw [show d.setRing d.aside.IsrReq d.aside.ServiceReq = d from rfl] at h
  rw [h]
  exact ⟨rfl, rfl⟩

/-- The loop of **RespondSRQ** -/
theorem serveLoop_spec (fuel : Nat) :
    ∀ {s : Kernel} {g : Ghost} {F : List Nat}, Pending cfg s g cur →
    FlagOk cfg s g F → s.ServiceReq.cnt ≤ fuel → s.ServiceReq.head < cfg.maxServiceRequest →
    ∃ s' g' F' d' q', serveLoop cfg fuel s = some s' ∧ Pending cfg s' g' cur ∧
      s'.OSSchedLock = s.OSSchedLock ∧ Calm g g' ∧ FlagOk cfg s' g' F' ∧ q'.cnt = 0 ∧
      q'.head < cfg.maxServiceRequest ∧
      Serves cfg (s.data g) (s.ServiceReq.pending cfg.maxServiceRequest) d' ∧
      Holds s' g' (d'.setRing s.IsrReq q') ∧ Eased s g s' g' := by
  induction fuel with
  | zero =>
    intro s g F h hf hc hh
    have hc0 := Nat.le_zero.mp hc
    refine ⟨s, g, F, s.data g, s.ServiceReq, ?_, h, rfl, Calm.refl _, hf, hc0, hh, ?_,
      holds_data s g, .refl s g⟩
    · unfold serveLoop
      rw [if_pos hc0]
    · unfold SRQ.pending
      rw [hc0]
      exact .nil _
  | succ n ih =>
    intro s g F h hf hc hh
    by_cases hc0 : s.ServiceReq.cnt = 0
    · refine ⟨s, g, F, s.data g, s.ServiceReq, ?_, h, rfl, Calm.refl _, hf, hc0, hh, ?_,
        holds_data s g, .refl s g⟩
      · unfold serveLoop
        rw [if_pos hc0]
      · unfold SRQ.pending
        rw [hc0]
        exact .nil _
    · let q := s.ServiceReq
      let s0 : Kernel := { s with ServiceReq := q.pop cfg.maxServiceRequest }
      have h0 : Pending cfg s0 g cur := h.congr rfl rfl rfl id
      have hf0 : FlagOk cfg s0 g F := ⟨hf.list.congr rfl rfl rfl, hf.wait⟩
      obtain ⟨s1, g1, st, F1, e1, e2, e3, e4, e5, e6, e7⟩ := serve_spec h0 hf0 (q.cell q.head)
      obtain ⟨r1, r2⟩ := @serve_ring cfg (s0.data g) (q.cell q.head)
      have hring : s1.ServiceReq = q.pop cfg.maxServiceRequest :=
        (congrArg Aside.ServiceReq e5.aside).trans r2
      have hreq : s1.IsrReq = s.IsrReq := (congrArg Aside.IsrReq e5.aside).trans r1
      have hc1 : s1.ServiceReq.cnt ≤ n := by
        rw [hring]
        change s.ServiceReq.cnt - 1 ≤ n
        omega
      have hh1 : s1.ServiceReq.head < cfg.maxServiceRequest := by
        rw [hring]
        exact Nat.mod_lt _ cfg.maxServiceRequest_pos
      obtain ⟨s2, g2, F2, d2, q2, f1, f2, f3, f4, f5, f6, f7, f8, f9, f10⟩ := ih e2 e6 hc1 hh1
      refine ⟨s2, g2, F2, d2.setRing s.IsrReq q, q2, ?_, f2, f3.trans e3, e4.trans f4,
        f5, f6, f7, ?_, ?_, (e7.trans f10).dly, (e7.trans f10).clock⟩
      · unfold serveLoop
        rw [if_neg hc0]
        change (serve cfg s0 (q.cell q.head)).bind _ = _
        rw [e1]
        exact f1
      · rw [SRQ.pending_pop hc0 hh]
        refine .cons (hf.wf h.coh) ?_
        rw [hring] at f8
        have hback : (s1.data g1).setRing s.IsrReq q = (s.data g).serve cfg (q.cell q.head) := by
          rw [e5.eq, ← setRing_serve]
          rfl
        rw [← hback]
        exact f8.setRing
      · rw [hreq] at f9
        exact f9

/-- The state of the ring between two interrupts. -/
structure RingOk (cfg : Env) (s : Kernel) : Prop where
  cnt : s.ServiceReq.cnt ≤ cfg.maxServiceRequest
  head : s.ServiceReq.head < cfg.maxServiceRequest
  req : s.IsrReq = decide (s.ServiceReq.cnt ≠ 0)
  time : s.TimeReq = false
  timer : s.TimerReq = false

theorem respondSRQ_eq (hr : RingOk cfg s) : respondSRQ cfg s =
    (serveLoop cfg cfg.maxServiceRequest s).bind fun s =>
      some (if s.ServiceReq.cnt = 0 then { s with IsrReq := false } else s) := by
  have h1 : ¬ s.TimeReq = true := by
    rw [hr.time]
    decide
  have h2 : ¬ s.TimerReq = true := by
    rw [hr.timer]
    decide
  unfold respondSRQ
  simp only [if_neg h1, if_neg h2, Option.bind_eq_bind, Option.bind_some]

/-- The calls that a drain makes do not depend on the drain. -/
theorem Serves.env {r : Kernel → Option Kernel} {d d' : Data} {cs : List SQC}
    (h : Serves { cfg with respondSRQ := r } d cs d') : Serves cfg d cs d' := by
  induction h with
  | nil d => exact .nil d
  | cons hw _ ih => exact .cons ⟨hw.evt, hw.flag⟩ ih

/-- What is left of an unlock after its drain. -/
theorem osSchedUnlock_served {s1 s2 : Kernel} (hl : s1.OSSchedLock = 1) (hi : s1.IsrReq = true)
    (hd : respondSRQ { cfg with respondSRQ := fun _ => none } s1 = some s2)
    (hl2 : s2.OSSchedLock = 1)
    (hi2 : s2.IsrReq = false) :
    osSchedUnlock cfg.served s1 = osSchedUnlock cfg.served s2 := by
  have hn : ¬ s2.IsrReq = true := by
    rw [hi2]
    decide
  have hd' : cfg.served.respondSRQ s1 = some s2 := hd
  unfold osSchedUnlock
  rw [if_pos hl, if_pos hl2, if_pos hi, if_neg hn, hd']

/-- The end of a section, when no request is left. -/
theorem Body.settle {s1 : Kernel} {g1 : Ghost} {d : Data} (h : Pending cfg s1 g1 cur)
    (hl : s1.OSSchedLock = 1) (hi : s1.IsrReq = false) (hf : FlagOk cfg s1 g1 F)
    (hd : Holds s1 g1 d) :
    ∃ s' g' r, osSchedUnlock cfg s1 = some s' ∧ Stable cfg (takeSwitch s') g' r ∧ Calm g1 g' ∧
      FlagOk cfg (takeSwitch s') g' F ∧ Holds (takeSwitch s') g' d ∧
      Eased s1 g1 (takeSwitch s') g' := by
  obtain ⟨s', g', r, e1, e2, e3, e4, e5⟩ := osSchedUnlock_spec h hi hl
  have hd' : Holds (takeSwitch s') g' d := by
    refine ⟨e2.aside.trans hd.aside, e3.evt.trans hd.evt, fun t => ?_, fun t => ?_⟩
    · rw [e4 t]
      exact hd.waits t
    · rw [e3.loc t .dly (by decide)]
      exact hd.timed t
  refine ⟨s', g', r, e1, e5, e3.calm, hf.next e3.calm hd' ?_ fun t ht => Or.inl ht, hd',
    fun x hx => e3.dly ▸ hx, e2.clock⟩
  rw [← hd.eq]
  exact hf.data

/-- **OsSchedUnlock** at the end of a section during which interrupts deferred requests. -/
theorem Body.drain {s1 : Kernel} {g1 : Ghost} {d : Data} (h : Body cfg.served s g cur d s1 g1)
    (hl : s.OSSchedLock = 0) (hf : FlagOk cfg.served s1 g1 F) (hr : RingOk cfg.served s1) :
    ∃ s' g' r F' d' q', osSchedUnlock cfg.served s1 = some s' ∧
      Stable cfg.served (takeSwitch s') g' r ∧ Calm g g' ∧ FlagOk cfg.served (takeSwitch s') g' F' ∧
      q'.cnt = 0 ∧ q'.head < cfg.maxServiceRequest ∧
      Serves cfg.served d (s1.ServiceReq.pending cfg.maxServiceRequest) d' ∧
      Holds (takeSwitch s') g' (d'.setRing false q') ∧ Eased s1 g1 (takeSwitch s') g' := by
  have hl1 : s1.OSSchedLock = 1 := by
    rw [h.lock, hl]
  cases hi : s1.IsrReq with
  | false =>
    have hc : s1.ServiceReq.cnt = 0 := by
      have := hr.req
      rw [hi] at this
      exact not_not.mp (of_decide_eq_false this.symm)
    obtain ⟨s', g', r, e1, e2, e3, e4, e5, e6⟩ := Body.settle h.pend hl1 hi hf h.data
    refine ⟨s', g', r, F, d, s1.ServiceReq, e1, e2, h.calm.trans e3, e4, hc, hr.head, ?_, ?_, e6⟩
    · unfold SRQ.pending
      rw [hc]
      exact .nil d
    · have hq : d.setRing false s1.ServiceReq = d := by
        rw [← h.data.eq, ← hi]
        rfl
      rw [hq]
      exact e5
  | true =>
    have hr' : RingOk { cfg with respondSRQ := fun _ => none } s1 :=
      ⟨hr.cnt, hr.head, hr.req, hr.time, hr.timer⟩
    obtain ⟨s2, g2, F2, d2, q2, f1, f2, f3, f4, f5, f6, f7, f8, f9, f10⟩ :=
      @serveLoop_spec { cfg with respondSRQ := fun _ => none } cur cfg.maxServiceRequest s1 g1 F
        (h.pend.env fun _ => none) ⟨hf.list, hf.wait⟩ hr.cnt hr.head
    let s3 : Kernel := { s2 with IsrReq := false }
    have hq2 : s2.ServiceReq = q2 := congrArg Aside.ServiceReq f9.aside
    have hd : respondSRQ { cfg with respondSRQ := fun _ => none } s1 = some s3 := by
      rw [respondSRQ_eq hr', f1, Option.bind_some, if_pos (by rw [hq2]; exact f6)]
    have hticks : ∀ x ∈ g2.dly, 1 ≤ x.2 := fun x hx =>
      h.pend.ticks (fun e => Bool.false_ne_true (hr.time.symm.trans e.2)) x (f10.dly x hx)
    have hp3 : Pending cfg.served s3 g2 cur :=
      (f2.env cfg.served.respondSRQ).retime rfl rfl rfl fun _ => hticks
    have hd3 : Holds s3 g2 (d2.setRing false q2) := by
      refine ⟨?_, f9.evt, f9.waits, f9.timed⟩
      change { s2.aside with IsrReq := false } = _
      rw [f9.aside]
      rfl
    have hf3 : FlagOk cfg.served s3 g2 F2 := ⟨f5.list.congr rfl rfl rfl, f5.wait⟩
    have hl3 : s3.OSSchedLock = 1 := f3.trans hl1
    obtain ⟨s', g', r, e1, e2, e3, e4, e5, e6⟩ := Body.settle hp3 hl3 rfl hf3 hd3
    refine ⟨s', g', r, F2, d2, q2, ?_, e2, h.calm.trans (f4.trans e3), e4, f6, f7, ?_, e5,
      ⟨fun x hx => f10.dly x (e6.dly x hx), e6.clock.trans f10.clock⟩⟩
    · rw [osSchedUnlock_served hl1 hi hd hl3 rfl]
      exact e1
    · rw [h.data.eq] at f8
      exact @Serves.env cfg.served (fun _ => none) _ _ _ f8

end Drain

end CoOS
