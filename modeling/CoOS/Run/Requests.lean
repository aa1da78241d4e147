/-
  The queue of deferred requests is a lossless FIFO.

  `cnt` and `head` are bytes here, as the source declares them, and `Inc8` returns the value
  before the increment. A run of the queue (`Requests`) is any sequence of `InsertInSRQ` calls and
  pops of `RespondSRQ`; what comes between them, the handlers and the callbacks included, leaves
  `ServiceReq` alone unless it calls `InsertInSRQ` itself. The loop of `RespondSRQ` is such a run,
  whatever is inserted while its requests are handled (`drain`).
-/
import CoOS.Coh.Drain
import CoOS.Kernel.Frame
import CoOS.Kernel.System

namespace CoOS

open Function (update)

/-- `Inc8`: the value before the increment, and the value stored. -/
def inc8 (data : Nat) : Nat × Nat := (data, (data + 1) % 256)

/-- `InsertInSRQ` on bytes. -/
def insertInSRQ8 (cfg : Env) (s : Kernel) (type : ReqType) (id arg : Nat) : Kernel × Bool :=
  let q := s.ServiceReq
  if cfg.maxServiceRequest ≤ q.cnt then (s, false)
  else
    let (cnt, stored) := inc8 q.cnt
    ({ s with
      IsrReq := true
      ServiceReq := { q with
        cnt := stored
        cell := update q.cell ((cnt + q.head) % cfg.maxServiceRequest) ⟨type, id, arg⟩ } }, true)

/-- The statements of `RespondSRQ` that take a cell out of the queue, on bytes. -/
def popSRQ8 (cfg : Env) (s : Kernel) : Kernel × SQC :=
  let q := s.ServiceReq
  ({ s with ServiceReq := { q with
      head := (q.head + 1) % cfg.maxServiceRequest % 256, cnt := (q.cnt + 255) % 256 } },
    q.cell q.head)

/-- A run of the queue, with the requests accepted and those dispatched so far. -/
inductive Requests (cfg : Env) : Kernel → List SQC → List SQC → Prop
  | start {k : Kernel} (hc : k.ServiceReq.cnt = 0) (hh : k.ServiceReq.head = 0) :
      Requests cfg k [] []
  | insert {k : Kernel} {acc dis : List SQC} (h : Requests cfg k acc dis) (type : ReqType)
      (id arg : Nat) :
      Requests cfg (insertInSRQ8 cfg k type id arg).1
        (if (insertInSRQ8 cfg k type id arg).2 then acc ++ [⟨type, id, arg⟩] else acc) dis
  | pop {k : Kernel} {acc dis : List SQC} (h : Requests cfg k acc dis) (hc : k.ServiceReq.cnt ≠ 0) :
      Requests cfg (popSRQ8 cfg k).1 acc (dis ++ [(popSRQ8 cfg k).2])
  | other {k k' : Kernel} {acc dis : List SQC} (h : Requests cfg k acc dis)
      (hq : k'.ServiceReq = k.ServiceReq) : Requests cfg k' acc dis

/-- The loop of `RespondSRQ`, on bytes: the requests `rs` of each round are inserted while its
    request is handled. Also returned are the requests dispatched. -/
def drain (cfg : Env) : List (List SQC) → Kernel → Option (Kernel × List SQC)
  | rss, k =>
    if k.ServiceReq.cnt = 0 then some (k, [])
    else
      match rss with
      | [] => none
      | rs :: rss => do
        let (k, c) := popSRQ8 cfg k
        let (k, _) ← serve cfg k c
        let (k, cs) ← drain cfg rss (k.defer cfg rs)
        some (k, c :: cs)

/-! ## Bytes do not wrap -/

section Bytes

variable {cfg : Env} {k : Kernel}

theorem insertInSRQ8_eq (cfg : Env) (k : Kernel) (type : ReqType) (id arg : Nat) :
    insertInSRQ8 cfg k type id arg = insertInSRQ cfg k type id arg := by
  unfold insertInSRQ8 insertInSRQ inc8
  dsimp only
  split
  · rfl
  · next hc =>
    have hm := cfg.maxServiceRequest_le
    rw [Nat.mod_eq_of_lt (by omega : k.ServiceReq.cnt + 1 < 256)]

theorem popSRQ8_eq (hc : k.ServiceReq.cnt ≠ 0) (hl : k.ServiceReq.cnt ≤ cfg.maxServiceRequest) :
    popSRQ8 cfg k = ({ k with ServiceReq := k.ServiceReq.pop cfg.maxServiceRequest },
      k.ServiceReq.cell k.ServiceReq.head) := by
  have hm := cfg.maxServiceRequest_le
  have hh : (k.ServiceReq.head + 1) % cfg.maxServiceRequest < cfg.maxServiceRequest :=
    Nat.mod_lt _ cfg.maxServiceRequest_pos
  have h1 : (k.ServiceReq.cnt + 255) % 256 = k.ServiceReq.cnt - 1 := by omega
  have h2 : (k.ServiceReq.head + 1) % cfg.maxServiceRequest % 256 =
      (k.ServiceReq.head + 1) % cfg.maxServiceRequest := Nat.mod_eq_of_lt (by omega)
  unfold popSRQ8 SRQ.pop
  dsimp only
  rw [h1, h2]

end Bytes

/-! ## The queue -/

section Queue

variable {cfg : Env} {k k' : Kernel} {acc dis : List SQC}

/-- The indices are in range, and what is pending is what was accepted and not yet dispatched. -/
structure Fifo8 (cfg : Env) (q : SRQ) (acc dis : List SQC) : Prop where
  cnt : q.cnt ≤ cfg.maxServiceRequest
  head : q.head < cfg.maxServiceRequest
  acc : acc = dis ++ q.pending cfg.maxServiceRequest

theorem insertInSRQ8_false (cfg : Env) (k : Kernel) (type : ReqType) (id arg : Nat) :
    (insertInSRQ8 cfg k type id arg).2 = false ↔ cfg.maxServiceRequest ≤ k.ServiceReq.cnt := by
  rw [insertInSRQ8_eq]
  unfold insertInSRQ
  dsimp only
  split
  · next h => exact iff_of_true rfl h
  · next h => exact iff_of_false (fun e => nomatch e) h

theorem insertInSRQ8_full {type : ReqType} {id arg : Nat}
    (h : cfg.maxServiceRequest ≤ k.ServiceReq.cnt) :
    insertInSRQ8 cfg k type id arg = (k, false) := by
  unfold insertInSRQ8
  exact if_pos h

theorem Fifo8.insert (h : Fifo8 cfg k.ServiceReq acc dis) (type : ReqType) (id arg : Nat) :
    Fifo8 cfg (insertInSRQ8 cfg k type id arg).1.ServiceReq
      (if (insertInSRQ8 cfg k type id arg).2 then acc ++ [⟨type, id, arg⟩] else acc) dis := by
  rw [insertInSRQ8_eq]
  unfold insertInSRQ
  dsimp only
  split
  · exact h
  · next hc =>
    have hlt := Nat.lt_of_not_le hc
    refine ⟨hlt, h.head, ?_⟩
    rw [if_pos rfl, h.acc, List.append_assoc]
    congr 1
    exact (SRQ.pending_push hlt h.head _).symm

theorem Fifo8.pop (h : Fifo8 cfg k.ServiceReq acc dis) (hc : k.ServiceReq.cnt ≠ 0) :
    Fifo8 cfg (popSRQ8 cfg k).1.ServiceReq acc (dis ++ [(popSRQ8 cfg k).2]) := by
  rw [popSRQ8_eq hc h.cnt]
  refine ⟨Nat.le_trans (Nat.sub_le _ 1) h.cnt, Nat.mod_lt _ cfg.maxServiceRequest_pos, ?_⟩
  rw [h.acc, SRQ.pending_pop hc h.head, List.append_assoc]
  rfl

/-- **The invariant of the queue.** -/
theorem Requests.fifo (h : Requests cfg k acc dis) : Fifo8 cfg k.ServiceReq acc dis := by
  induction h with
  | start hc hh =>
    refine ⟨by rw [hc]; exact Nat.zero_le _, by rw [hh]; exact cfg.maxServiceRequest_pos, ?_⟩
    unfold SRQ.pending
    rw [hc]
    rfl
  | insert _ type id arg ih => exact ih.insert type id arg
  | pop _ hc ih => exact ih.pop hc
  | other _ hq ih =>
    rw [hq]
    exact ih

theorem Requests.drained (h : Requests cfg k acc dis) (hc : k.ServiceReq.cnt = 0) : acc = dis := by
  have hp := h.fifo.acc
  unfold SRQ.pending at hp
  rw [hc] at hp
  rw [hp]
  exact List.append_nil dis

/-! ## RespondSRQ -/

/-- Interrupts insert the requests `rs`, those that still fit. -/
theorem Requests.defer (rs : List SQC) : ∀ {k : Kernel} {acc : List SQC}, Requests cfg k acc dis →
    ∃ as, as.Sublist rs ∧ Requests cfg (k.defer cfg rs) (acc ++ as) dis := by
  induction rs with
  | nil =>
    intro k acc h
    refine ⟨[], .slnil, ?_⟩
    rw [List.append_nil]
    exact h
  | cons c rs ih =>
    intro k acc h
    have h1 := h.insert c.type c.id c.arg
    rw [insertInSRQ8_eq] at h1
    obtain ⟨as, hs, h2⟩ := ih h1
    cases hb : (insertInSRQ cfg k c.type c.id c.arg).2 with
    | false =>
      rw [hb] at h2
      exact ⟨as, hs.cons c, h2⟩
    | true =>
      rw [hb, if_pos rfl, List.append_assoc] at h2
      exact ⟨c :: as, hs.cons_cons c, h2⟩

theorem insertInSRQ_lock (cfg : Env) (k : Kernel) (type : ReqType) (id arg : Nat) :
    (insertInSRQ cfg k type id arg).1.OSSchedLock = k.OSSchedLock := by
  unfold insertInSRQ
  dsimp only
  split
  · rfl
  · rfl

theorem defer_lock (cfg : Env) (rs : List SQC) : ∀ k : Kernel,
    (k.defer cfg rs).OSSchedLock = k.OSSchedLock := by
  induction rs with
  | nil => exact fun _ => rfl
  | cons c rs ih => exact fun k => (ih _).trans (insertInSRQ_lock ..)

/-- A drain that ends has dispatched everything: the requests that were pending, and those
    inserted on the way, each to its handler. -/
theorem Requests.drain (rss : List (List SQC)) : ∀ {k k' : Kernel} {acc dis cs : List SQC},
    Requests cfg k acc dis → 0 < k.OSSchedLock → drain cfg rss k = some (k', cs) →
    ∃ as, as.Sublist rss.flatten ∧ Requests cfg k' (acc ++ as) (dis ++ cs) ∧
      acc ++ as = dis ++ cs := by
  induction rss with
  | nil =>
    intro k k' acc dis cs h _ e
    unfold CoOS.drain at e
    split at e
    · next hc =>
      obtain ⟨rfl, rfl⟩ := Prod.mk.inj (Option.some.inj e)
      refine ⟨[], List.nil_sublist _, ?_⟩
      rw [List.append_nil, List.append_nil]
      exact ⟨h, h.drained hc⟩
    · exact nomatch e
  | cons rs rss ih =>
    intro k k' acc dis cs h hl e
    unfold CoOS.drain at e
    split at e
    · next hc =>
      obtain ⟨rfl, rfl⟩ := Prod.mk.inj (Option.some.inj e)
      refine ⟨[], List.nil_sublist _, ?_⟩
      rw [List.append_nil, List.append_nil]
      exact ⟨h, h.drained hc⟩
    · next hc =>
      dsimp only at e
      obtain ⟨x, e1, e⟩ := Option.bind_eq_some_iff.mp e
      obtain ⟨y, e2, e⟩ := Option.bind_eq_some_iff.mp e
      obtain ⟨rfl, rfl⟩ := Prod.mk.inj (Option.some.inj e)
      -- the handler is a post with the scheduler locked: it leaves the queue alone
      have hf : x.1.frame = (popSRQ8 cfg k).1.frame :=
        @serve_frame cfg _ (popSRQ8 cfg k).1 _ rfl hl x e1
      have h1 := (h.pop hc).other (congrArg Frame.ServiceReq hf)
      obtain ⟨as, hs, h2⟩ := h1.defer rs
      have hl2 : 0 < (x.1.defer cfg rs).OSSchedLock := by
        rw [defer_lock, show x.1.OSSchedLock = k.OSSchedLock from congrArg Frame.OSSchedLock hf]
        exact hl
      obtain ⟨as', hs', h3, h4⟩ := ih h2 hl2 e2
      refine ⟨as ++ as', hs.append hs', ?_, ?_⟩
      · rw [← List.append_assoc, show dis ++ (popSRQ8 cfg k).2 :: y.2 =
          dis ++ [(popSRQ8 cfg k).2] ++ y.2 by simp]
        exact h3
      · rw [← List.append_assoc, h4]
        simp

/-- Without interrupts, the loop is the one of the model. -/
theorem serveLoop_drain (n : Nat) : ∀ {k : Kernel} {acc dis : List SQC}, Requests cfg k acc dis →
    0 < k.OSSchedLock →
    serveLoop cfg n k = (CoOS.drain cfg (List.replicate n []) k).map Prod.fst := by
  induction n with
  | zero =>
    intro k acc dis _ _
    unfold serveLoop CoOS.drain
    split
    · rfl
    · rfl
  | succ n ih =>
    intro k acc dis h hl
    unfold serveLoop
    rw [List.replicate_succ]
    unfold CoOS.drain
    split
    · rfl
    · next hc =>
      dsimp only
      rw [popSRQ8_eq hc h.fifo.cnt]
      change (serve cfg { k with ServiceReq := k.ServiceReq.pop cfg.maxServiceRequest } _ >>= _) = _
      cases e : serve cfg { k with ServiceReq := k.ServiceReq.pop cfg.maxServiceRequest }
          (k.ServiceReq.cell k.ServiceReq.head) with
      | none => rfl
      | some x =>
        have hf :=
          serve_frame cfg (s := { k with ServiceReq := k.ServiceReq.pop cfg.maxServiceRequest })
          _ rfl hl x e
        have h1 := h.pop hc
        rw [popSRQ8_eq hc h.fifo.cnt] at h1
        have hl2 : 0 < x.1.OSSchedLock := by
          rw [show x.1.OSSchedLock = k.OSSchedLock from congrArg Frame.OSSchedLock hf]
          exact hl
        have h2 := ih (h1.other (congrArg Frame.ServiceReq hf)) hl2
        change serveLoop cfg n x.1 = Option.map Prod.fst (CoOS.drain cfg _ (x.1.defer cfg []) >>= _)
        rw [h2, show x.1.defer cfg [] = x.1 from rfl]
        cases CoOS.drain cfg (List.replicate n []) x.1 with
        | none => rfl
        | some y => rfl

/-! ## Timer callbacks -/

/-- The callbacks of the application change the queue by `InsertInSRQ` only, and leave the
    scheduler as locked as they find it. -/
def Deferring (cfg : Env) : Prop :=
  ∀ f k k', cfg.runCallBack f k = some k' →
    k'.OSSchedLock = k.OSSchedLock ∧ ∃ rs, k'.ServiceReq = (k.defer cfg rs).ServiceReq

/-- Between two pops, with the scheduler locked `l` times: only insertions. -/
def Queued (cfg : Env) (acc dis : List SQC) (l : Nat) (k : Kernel) : Prop :=
  k.OSSchedLock = l ∧ ∃ as, Requests cfg k (acc ++ as) dis

theorem Queued.other {l : Nat} (h : Queued cfg acc dis l k) (hl : k'.OSSchedLock = k.OSSchedLock)
    (hq : k'.ServiceReq = k.ServiceReq) : Queued cfg acc dis l k' := by
  obtain ⟨as, h1⟩ := h.2
  exact ⟨hl.trans h.1, as, h1.other hq⟩

theorem Queued.unlock {l : Nat} {s s' : Kernel} (hl : 0 < l) (h : Queued cfg acc dis l s)
    (e1 : s'.OSSchedLock = s.OSSchedLock + 1) (e2 : s'.ServiceReq = s.ServiceReq) :
    Ensures (osSchedUnlock cfg s') (Queued cfg acc dis l) := by
  have h0 := h.1
  rw [osSchedUnlock_nested cfg (by omega)]
  refine .some (h.other ?_ e2)
  change s'.OSSchedLock - 1 = _
  omega

theorem Queued.removeTmrList {l : Nat} (hl : 0 < l) (h : Queued cfg acc dis l k) (t : Nat) :
    Ensures (removeTmrList cfg k t) (Queued cfg acc dis l) := h.unlock hl rfl rfl

theorem Queued.insertTmrList {l : Nat} (hl : 0 < l) (h : Queued cfg acc dis l k) (t : Nat) :
    Ensures (insertTmrList cfg k t) (Queued cfg acc dis l) := by
  unfold CoOS.insertTmrList
  refine .ite (fun _ => .some h) fun _ => ?_
  exact Ensures.skip fun _ => h.unlock hl rfl rfl

theorem Queued.callBack {l : Nat} (hcb : Deferring cfg) (h : Queued cfg acc dis l k) (t : Nat) :
    Ensures (callBack cfg k t) (Queued cfg acc dis l) := by
  intro k' e
  obtain ⟨as, h1⟩ := h.2
  obtain ⟨e1, rs, e2⟩ := hcb _ _ _ e
  have h2 : Requests cfg
    { k with callBacks := k.callBacks ++ [(t, k.OSTickCnt)] } (acc ++ as) dis :=
    h1.other rfl
  obtain ⟨as', _, h3⟩ := h2.defer rs
  refine ⟨e1.trans h.1, as ++ as', ?_⟩
  rw [← List.append_assoc]
  exact h3.other e2

theorem Queued.fireTmr {l : Nat} (hcb : Deferring cfg) (hl : 0 < l) (h : Queued cfg acc dis l k)
    (t : Nat) : Ensures (fireTmr cfg k t) (Queued cfg acc dis l) := by
  unfold CoOS.fireTmr
  refine .ite (fun _ => ?_) fun _ => ?_
  · refine Ensures.bind (h.removeTmrList hl t) fun s1 h1 => ?_
    have h2 : Queued cfg acc dis l { s1 with tmr := { s1.tmr with
        tmrCnt := update s1.tmr.tmrCnt t (s1.tmr.tmrReload t) } } := h1.other rfl rfl
    exact Ensures.bind (h2.insertTmrList hl t) fun s2 h3 => h3.callBack hcb t
  · refine Ensures.bind (h.removeTmrList hl t) fun s1 h1 => ?_
    have h2 : Queued cfg acc dis l (stopTmr s1 t) := h1.other rfl rfl
    exact h2.callBack hcb t

theorem Queued.tmrDispose {l : Nat} (hcb : Deferring cfg) (hl : 0 < l) (fuel : Nat) :
    ∀ {k : Kernel}, Queued cfg acc dis l k →
      Ensures (tmrDispose cfg fuel k) (Queued cfg acc dis l) := by
  induction fuel with
  | zero =>
    intro k h
    unfold CoOS.tmrDispose
    split
    · exact .some h
    · exact .ite (fun _ => .some h) fun _ => .none
  | succ fuel ih =>
    intro k h
    unfold CoOS.tmrDispose
    split
    · exact .some h
    · refine .ite (fun _ => .some h) fun _ => ?_
      exact Ensures.bind (h.fireTmr hcb hl _) fun s1 h1 => ih h1

/-- What `RespondSRQ` does to the queue: the callbacks of the timers insert `as`, and the loop
    dispatches `cs`, after which nothing that was accepted is left. -/
structure Dispatches (cfg : Env) (k k' : Kernel) (acc dis as cs : List SQC) : Prop where
  callbacks : ∃ k1 k2 k3, respondTime cfg k = some k1 ∧ respondTimer cfg k1 = some k2 ∧
    Requests cfg k2 (acc ++ as) dis ∧
    drain cfg (List.replicate cfg.maxServiceRequest []) k2 = some (k3, cs) ∧ k' = endRespond k3
  run : Requests cfg k' (acc ++ as) (dis ++ cs)
  all : acc ++ as = dis ++ cs

theorem Requests.respondSRQ (hcb : Deferring cfg) (h : Requests cfg k acc dis)
    (hl : 0 < k.OSSchedLock) (e : respondSRQ cfg k = some k') :
    ∃ as cs, Dispatches cfg k k' acc dis as cs := by
  have h0 : Queued cfg acc dis k.OSSchedLock k := ⟨rfl, [], by rw [List.append_nil]; exact h⟩
  have htime : Ensures (respondTime cfg k) (Queued cfg acc dis k.OSSchedLock) := by
    refine .ite (fun _ => ?_) fun _ => .some h0
    refine Ensures.map fun k1 e1 => ?_
    have h1 := @timeDispose_frame cfg _ cfg.tasks k rfl k1 e1
    exact h0.other (congrArg Frame.OSSchedLock h1) (congrArg Frame.ServiceReq h1)
  rw [respondSRQ_parts] at e
  obtain ⟨k1, e1, e⟩ := Option.bind_eq_some_iff.mp e
  have h1 := htime k1 e1
  have htmr : Ensures (respondTimer cfg k1) (Queued cfg acc dis k.OSSchedLock) := by
    refine .ite (fun _ => ?_) fun _ => .some h1
    refine Ensures.map fun k2 e2 => ?_
    exact (h1.tmrDispose hcb hl cfg.maxTmr k2 e2).other rfl rfl
  obtain ⟨k2, e2, e⟩ := Option.bind_eq_some_iff.mp e
  obtain ⟨hl2, as, h2⟩ := htmr k2 e2
  obtain ⟨k3, e3, e⟩ := Option.map_eq_some_iff.mp e
  rw [serveLoop_drain _ h2 (by omega)] at e3
  obtain ⟨x, e4, rfl⟩ := Option.map_eq_some_iff.mp e3
  obtain ⟨as', hs, h3, h4⟩ := h2.drain _ (by omega) e4
  have has : as' = [] := by
    rw [List.flatten_replicate_nil] at hs
    exact List.sublist_nil.mp hs
  rw [has, List.append_nil] at h3 h4
  refine ⟨as, x.2, ⟨k1, k2, x.1, e1, e2, h2, e4, e.symm⟩, ?_, h4⟩
  rw [← e]
  refine h3.other ?_
  unfold endRespond
  split
  · rfl
  · rfl

end Queue

/-- **The service request queue is a lossless FIFO**, for every sequence of `InsertInSRQ` calls
    and pops: `cnt` and `head` stay in range, a request is refused exactly when the queue is
    full, and then nothing changes; what was dispatched is what was accepted, in this order, up
    to what is still pending. A drain, whatever is inserted on its way, ends with nothing left, and
    `RespondSRQ` dispatches what was pending and what the callbacks of the timers have inserted. -/
theorem requests_lossless (cfg : Env) (hcb : Deferring cfg) {k : Kernel} {acc dis : List SQC}
    (h : Requests cfg k acc dis) :
    k.ServiceReq.cnt ≤ cfg.maxServiceRequest ∧ k.ServiceReq.head < cfg.maxServiceRequest ∧
    (∀ type id arg, (insertInSRQ8 cfg k type id arg).2 = false ↔
      k.ServiceReq.cnt = cfg.maxServiceRequest) ∧
    (∀ type id arg, k.ServiceReq.cnt = cfg.maxServiceRequest →
      (insertInSRQ8 cfg k type id arg).1 = k) ∧
    acc = dis ++ k.ServiceReq.pending cfg.maxServiceRequest ∧
    (0 < k.OSSchedLock → ∀ rss k' cs, drain cfg rss k = some (k', cs) →
      ∃ as, as.Sublist rss.flatten ∧ Requests cfg k' (acc ++ as) (dis ++ cs) ∧
        acc ++ as = dis ++ cs) ∧
    (0 < k.OSSchedLock → ∀ k', respondSRQ cfg k = some k' →
      ∃ as cs, Dispatches cfg k k' acc dis as cs) := by
  have hf := h.fifo
  refine ⟨hf.cnt, hf.head, fun type id arg => ?_, fun type id arg hc => ?_, hf.acc,
    fun hl rss k' cs e => h.drain rss hl e, fun hl k' e => h.respondSRQ hcb hl e⟩
  · rw [insertInSRQ8_false]
    exact ⟨fun h1 => Nat.le_antisymm hf.cnt h1, fun h1 => Nat.le_of_eq h1.symm⟩
  · rw [insertInSRQ8_full (Nat.le_of_eq hc.symm)]

/-- Two requests, of which one is dispatched. -/
theorem requests_lossless_shipped : ∃ k : Kernel,
    Requests shippedEnv k [⟨.SEM_REQ, 1, 0⟩, ⟨.MBOX_REQ, 2, 7⟩] [⟨.SEM_REQ, 1, 0⟩] ∧
    Deferring shippedEnv ∧ k.ServiceReq.cnt ≤ 5 ∧
    [⟨.SEM_REQ, 1, 0⟩, ⟨.MBOX_REQ, 2, 7⟩] = [⟨.SEM_REQ, 1, 0⟩] ++ k.ServiceReq.pending 5 := by
  have hcb : Deferring shippedEnv := by
    intro f k k' e
    rw [← Option.some.inj e]
    exact ⟨rfl, [], rfl⟩
  have h0 : Requests shippedEnv Kernel.zero [] [] := .start rfl rfl
  have h3 := ((h0.insert .SEM_REQ 1 0).insert .MBOX_REQ 2 7).pop (by decide)
  have h := requests_lossless shippedEnv hcb h3
  exact ⟨_, h3, hcb, h.1, h.2.2.2.2.1⟩

end CoOS
