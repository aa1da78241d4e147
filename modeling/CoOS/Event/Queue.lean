/-
  A queue is a bounded first-in first-out list. `CoPostQueueMail` tests for a full block before its
  lock, and two posters that have both passed the test put three messages into a block of two
  (`queue_overflows`).
-/
import CoOS.Event.Served

namespace CoOS

open Function (update)

/-! ## The ring of a queue block and the record of its messages -/

/-- The messages in the queue block `q`, oldest first. -/
def Kernel.ring (k : Kernel) (q : Nat) : List Nat :=
  Ring.items (k.qBuf q) (k.qHead q) (k.qMaxSize q) (k.qSize q)

/-- The messages that have left `e`, in the order in which they left: those that accepts and pends
    took, and those that were copied into the `pmail` of a released waiter. -/
def removed (e : Nat) (ms : List Move) : List Nat :=
  ms.filterMap fun mv => if mv.id = e ∧ mv.fate ≠ .posted then some mv.mail else none

section Record

variable {e : Nat}

theorem gets_eq (ms : List Move) : (history e ms).filterMap Fifo.Op.gets = removed e ms := by
  unfold history removed
  rw [List.filterMap_map, List.filterMap_filter]
  refine List.filterMap_congr fun mv _ => ?_
  obtain ⟨id, v, f⟩ := mv
  by_cases hid : id = e
  · cases f <;> simp [hid, Move.op, Fifo.Op.gets]
  · simp [hid]

end Record

/-! ## What a post returns -/

section Post

variable {cfg : Env} {m m' : Sys} {g : Ghost} {r : Nat} {F : List Nat} {rs : List SQC}

/-- A post is refused exactly when the event is full. -/
theorem Inv.post_status (h : Inv cfg m g r F) {k : EventType} {e v : Nat} (he : e < cfg.maxEvent)
    (hty : m.k.eventType e = k) (hi : k ≠ .invalid) (ho : m.k.aside.EventOk e)
    (hs : m.step cfg rs (.call (.post k e v)) = some m') :
    m'.log = m.log ++ [⟨r, .inl (.post k e v),
      some (0, if (m.k.aside.stored e).length = m.k.aside.capacity e then k.fullStatus
        else .E_OK)⟩] := by
  obtain ⟨b, q, a1, d', b', q', g', r', F', hst, -⟩ :=
    h.step (show Fine cfg m rs (.call (.post k e v)) from hi) hs
  have hlog : m'.log = a1.log := congrArg Abs.log hst.abs
  have hm := hst.mid
  cases hm with
  | call hr h0 hx =>
    obtain rfl := hx
    refine hlog.trans
      (congrArg (fun st => m.log ++ [Entry.mk r (.inl (.post k e v)) (some (0, st))]) ?_)
    unfold Data.post
    rw [if_neg (not_not.mpr ⟨he, hty⟩)]
    have hfull : m.k.aside.full e = true ↔ (m.k.aside.stored e).length = m.k.aside.capacity e :=
      full_iff ho (by rw [show m.k.aside.eventType e = k from hty]; exact hi)
    by_cases hf : m.k.aside.full e = true
    · rw [if_pos (hfull.mp hf)]
      exact congrArg Prod.snd (if_pos hf)
    · rw [if_neg (mt hfull.mpr hf)]
      exact congrArg Prod.snd (if_neg hf)

end Post

/-! ## The refinement -/

/-- The queue `e`, whose block is `q`, is a first-in first-out list of at most `size` messages. -/
structure QueueOk (cfg : Env) (s : Split) (e q size : Nat) : Prop where
  qcb : s.m.k.eventPtr e = .qcb q
  max : s.m.k.qMaxSize q = size
  fits : 0 < size ∧ size < 65536
  head : s.m.k.qHead q < size
  tail : s.m.k.qTail q < size
  tail_eq : s.m.k.qTail q = (s.m.k.qHead q + s.m.k.qSize q) % size
  le : s.m.k.qSize q ≤ size
  refines : Fifo.replay size [] (history e s.m.k.moves) = some (s.m.k.ring q)
  order : mails e .posted s.m.k.moves = removed e s.m.k.moves ++ s.m.k.ring q
  sent : Merge (s.m.log.filterMap (Entry.sent e)) (drained e s.m.k.answers)
    (mails e .posted s.m.k.moves)
  took : s.m.log.filterMap (Entry.took e) = mails e .taken s.m.k.moves
  got : ∀ t, (s.m.log.filterMap (Entry.got t e)).Sublist (mails e (.handed t) s.m.k.moves)
  full : ∀ rs v s', s.step cfg rs (.call (.post .queue e v)) = some s' →
    if (s.m.k.ring q).length = size then ∃ r,
      s'.m.log = s.m.log ++ [⟨r, .inl (.post .queue e v), some (0, .E_QUEUE_FULL)⟩]
    else s'.m = s.m ∧ s'.current = some (.tested (.post .queue e v) q)
  room : ∀ rs v w s', s.current = some (.tested (.post .queue e v) w) → s.Kept cfg .resume →
    s.step cfg rs .resume = some s' → (s.m.k.ring q).length < size ∧ ∃ r,
      s'.m.log = s.m.log ++ [⟨r, .inl (.post .queue e v), some (0, .E_OK)⟩]

/-- The queue `e` has the block `q` with room for `size` messages. -/
structure HasBlock (cfg : Env) (k : Kernel) (e q size : Nat) : Prop where
  lt : e < cfg.maxEvent
  type : k.eventType e = .queue
  ok : k.aside.EventOk e
  qcb : k.aside.qcb e = q
  max : k.qMaxSize q = size

section Tests

variable {cfg : Env} {k : Kernel} {s s' : Split} {g : Ghost} {r e q size v w : Nat} {F : List Nat}
  {rs : List SQC}

theorem HasBlock.qcbOf (h : HasBlock cfg k e q size) : qcbOf k e = q := h.qcb

theorem HasBlock.stored (h : HasBlock cfg k e q size) : k.aside.stored e = k.ring q :=
  h.qcb ▸ stored_queue h.type

theorem HasBlock.capacity (h : HasBlock cfg k e q size) : k.aside.capacity e = size := by
  unfold Aside.capacity
  rw [show k.aside.eventType e = .queue from h.type]
  exact (congrArg k.qMaxSize h.qcb).trans h.max

theorem ring_length (k : Kernel) (q : Nat) : (k.ring q).length = k.qSize q := Ring.length_items ..

theorem HasBlock.tests (h : HasBlock cfg k e q size) (v : Nat) :
    (Call.post .queue e v).tests cfg k =
      if (k.ring q).length = size then none else some q := by
  rw [Call.tests, if_neg (not_or.mpr ⟨Nat.not_le.mpr h.lt, not_not.mpr h.type⟩), h.qcbOf, h.max,
    ring_length]

/-- A post in one step puts its message in, or is refused by a full block. -/
theorem HasBlock.post (h : HasBlock cfg s.m.k e q size) (hi : Inv cfg s.m g r F) {m' : Sys}
    (hs : s.m.step cfg rs (.call (.post .queue e v)) = some m') :
    m'.log = s.m.log ++ [⟨r, .inl (.post .queue e v),
      some (0, if (s.m.k.ring q).length = size then .E_QUEUE_FULL else .E_OK)⟩] := by
  have := hi.post_status h.lt h.type (by decide) h.ok hs
  rwa [h.stored, h.capacity] at this

/-- A post is refused when the block is full, else it goes on behind its test. -/
theorem HasBlock.post_full (h : HasBlock cfg s.m.k e q size) (hi : Inv cfg s.m g r F)
    (hs : s.step cfg rs (.call (.post .queue e v)) = some s') :
    if (s.m.k.ring q).length = size then ∃ r,
      s'.m.log = s.m.log ++ [⟨r, .inl (.post .queue e v), some (0, .E_QUEUE_FULL)⟩]
    else s'.m = s.m ∧ s'.current = some (.tested (.post .queue e v) q) := by
  have ht := h.tests v
  split
  · next hfull =>
    rw [if_pos hfull] at ht
    have hlog := h.post hi (Split.call_none ht hs)
    rw [if_pos hfull] at hlog
    exact ⟨r, hlog⟩
  · next hfull =>
    rw [if_neg hfull] at ht
    exact Split.call_some ht ⟨r, hi.stable.running⟩ hs

/-- A post that goes on behind its test and finds the block as it was puts its message in. -/
theorem HasBlock.post_room (h : HasBlock cfg s.m.k e q size) (hi : Inv cfg s.m g r F)
    (ha : s.Alone) (hcur : s.current = some (.tested (.post .queue e v) w))
    (hkept : s.Kept cfg .resume) (hs : s.step cfg rs .resume = some s') :
    (s.m.k.ring q).length ≠ size ∧ ∃ r,
      s'.m.log = s.m.log ++ [⟨r, .inl (.post .queue e v), some (0, .E_OK)⟩] := by
  have hset : ∀ id, Call.post .queue e v ≠ .setFlag id := fun _ => nofun
  obtain ⟨ht, hstep⟩ := Split.resume_tested ha hi.ringOk hset hcur hkept hs
  have hfull : (s.m.k.ring q).length ≠ size := by
    intro hf
    rw [h.tests, if_pos hf] at ht
    cases ht
  have hlog := h.post hi hstep
  rw [if_neg hfull] at hlog
  exact ⟨hfull, r, hlog⟩

end Tests

section Runs

variable {cfg : Env} {i : Idle} {us us' : List Setup} {m0 : Sys} {s : Split} {k1 k2 : Kernel}
  {qStart size sort e : Nat}

/-- **A queue is a bounded FIFO**, as long as each post that has been interrupted behind its test
    finds the block not full when it goes on: `e` is a queue that was created before the start. -/
theorem queue_fifo (hu : ∀ u ∈ us ++ .queue qStart size sort :: us', u.Valid)
    (hb : boot cfg i (us ++ .queue qStart size sort :: us') = some m0)
    (h1 : setUpTo cfg i us = some k1)
    (h2 : coCreateQueue cfg.served k1 qStart size sort = some (k2, e)) (he : e ≠ INVALID_ID)
    (h : Split.Reach cfg (Split.Ok cfg (Fine cfg)) m0 s) : ∃ q, QueueOk cfg s e q size := by
  obtain ⟨⟨g1, n1, hbf⟩, hsame⟩ :=
    @boot_same cfg m0 i us us' (.queue qStart size sort) k1 k2 hu hb h1
    (congrArg (Option.map Prod.fst) h2)
  obtain ⟨hlt, hpos, t1, q0, t2, t3, t4⟩ := coCreateQueue_event hbf h2 he
  have hs := hsame e (by rw [t1]; decide)
  have hty0 : m0.k.aside.eventType e = .queue := hs.type.trans t1
  obtain ⟨g, r, F, hi, hl⟩ := h.ledger hu hb
  have hty : s.m.k.aside.eventType e = .queue := (congrFun hl.kinds.type e).trans hty0
  obtain ⟨hq, hring, hmax⟩ := (eventOk_queue hty).mp (hl.flow.ok.ok e)
  have hqcb : k2.aside.qcb e = q0 := by
    unfold Aside.qcb
    rw [show k2.aside.eventPtr e = .qcb q0 from t2]
  have hcap0 : m0.k.aside.capacity e = size := by
    rw [hs.capacity]
    unfold Aside.capacity
    rw [show k2.aside.eventType e = .queue from t1]
    exact (congrArg k2.aside.qMaxSize hqcb).trans t3
  have hinit : m0.k.aside.stored e = [] := by
    rw [hs.stored, stored_queue t1, hqcb, show k2.aside.qSize q0 = 0 from t4]
    rfl
  have hmaxq : s.m.k.qMaxSize (s.m.k.aside.qcb e) = size := by
    have hcap := (congrFun hl.flow.capacity e).trans hcap0
    change s.m.k.aside.capacity e = size at hcap
    unfold Aside.capacity at hcap
    rwa [hty] at hcap
  have hbl : HasBlock cfg s.m.k e (s.m.k.aside.qcb e) size :=
    ⟨hlt, hty, hl.flow.ok.ok e, rfl, hmaxq⟩
  have hrep := hl.flow.replay e
  rw [hcap0, hinit, show (s.m.abs cfg.served g).d.aside.stored e = _ from hbl.stored] at hrep
  have hord := Fifo.replay_conserves _ hrep
  rw [puts_eq, gets_eq, List.nil_append] at hord
  change Ring.Ok _ _ (s.m.k.qMaxSize (s.m.k.aside.qcb e)) _ at hring
  change s.m.k.qMaxSize (s.m.k.aside.qcb e) < 65536 at hmax
  rw [hmaxq] at hring hmax
  refine ⟨s.m.k.aside.qcb e, hq, hmaxq, ⟨hpos, hmax⟩, hring.lt, hring.tail_lt,
    hring.tail_eq, hring.le, hrep, hord, hl.served.sent e, hl.served.took e, fun t => ?_,
    fun rs v s' hstep => hbl.post_full hi hstep, fun rs v w s' hcur hkept hstep => ?_⟩
  · exact (List.sublist_append_left _ _).trans (hl.served.got t e)
  · obtain ⟨hfull, hlog⟩ := hbl.post_room hi h.alone hcur hkept hstep
    exact ⟨Nat.lt_of_le_of_ne ((ring_length ..).trans_le hring.le) hfull, hlog⟩

/-- The third post is refused, and a task that has passed its test posts when it goes on. -/
theorem queue_fifo_shipped : ∃ m0 s q, boot shippedEnv shippedIdle
      ([.plainTask 5] ++ .queue 1 2 sortFifo :: [.plainTask 10]) = some m0 ∧
    Split.Reach shippedEnv (Split.Ok shippedEnv (Fine shippedEnv)) m0 s ∧ s.m.k.ring 0 = [8, 0] ∧
    removed 0 s.m.k.moves = [7, 9] ∧ QueueOk shippedEnv s 0 q 2 := by
  obtain ⟨m0, s, hb, hr, hf⟩ :=
    @Split.ran shippedEnv (Split.Ok shippedEnv (Fine shippedEnv)) _ shippedIdle
    ([.plainTask 5] ++ .queue 1 2 sortFifo :: [.plainTask 10])
    [([], .call (.pend .queue 0 3)), ([], .resume), ([], .call (.post .queue 0 7)), ([], .resume),
      ([], .resume), ([], .call (.post .queue 0 9)), ([], .resume), ([], .call (.accept .queue 0)),
      ([], .call (.post .queue 0 8)), ([], .resume), ([⟨.QUEUE_REQ, 0, 0⟩], .tick),
        ([], .call (.post .queue 0 6))] _
    (fun s => (s.m.k.ring 0, removed 0 s.m.k.moves)) ([8, 0], [7, 9]) (by decide +kernel)
  obtain ⟨k1, h1, h2⟩ : ∃ k1, setUpTo shippedEnv shippedIdle [.plainTask 5] = some k1 ∧
      (coCreateQueue shippedEnv.served k1 1 2 sortFifo).map Prod.snd = some 0 := by
    have : ((setUpTo shippedEnv shippedIdle [.plainTask 5]).bind fun k1 =>
        (coCreateQueue shippedEnv.served k1 1 2 sortFifo).map Prod.snd) = some 0 := by
          decide +kernel
    exact Option.bind_eq_some_iff.mp this
  obtain ⟨⟨k2, e⟩, h3, rfl⟩ := Option.map_eq_some_iff.mp h2
  obtain ⟨q, h4⟩ := queue_fifo (by decide) hb h1 h3 (by decide) hr
  exact ⟨m0, s, q, hb, hr, congrArg Prod.fst hf, congrArg Prod.snd hf, h4⟩

/-- Task 2 has passed the test of `CoPostQueueMail`; task 1, which the tick wakes, posts the second
    message; then task 2 posts, and its message takes the place of the oldest one. -/
theorem queue_overflows : ∃ m0 s, boot shippedEnv shippedIdle
      [.plainTask 5, .queue 1 2 sortFifo, .plainTask 10] = some m0 ∧
    Split.Reach shippedEnv (fun s rs a => Fine shippedEnv s.m rs (s.does a)) m0 s ∧
    s.m.log =
    [⟨1, .inl (.post .queue 0 6), some (0, .E_OK)⟩, ⟨1, .inl (.tickDelay 1), some (0, .E_OK)⟩,
      ⟨1, .inl (.post .queue 0 7), some (0, .E_OK)⟩, ⟨1, .inl (.tickDelay 1), some (0, .E_OK)⟩,
      ⟨2, .inl (.post .queue 0 8), some (0, .E_OK)⟩] ∧
    s.m.k.qMaxSize 0 = 2 ∧ s.m.k.qSize 0 = 3 ∧ s.m.k.qBuf 0 0 = 8 := by
  obtain ⟨m0, s, h1, h2, h3⟩ :=
    @Split.ran shippedEnv (fun s rs a => Fine shippedEnv s.m rs (s.does a)) _
    shippedIdle [.plainTask 5, .queue 1 2 sortFifo, .plainTask 10]
    [([], .call (.post .queue 0 6)), ([], .resume), ([], .call (.tickDelay 1)),
      ([], .call (.post .queue 0 8)),
      ([], .tick), ([], .call (.post .queue 0 7)), ([], .resume), ([], .call (.tickDelay 1)),
        ([], .resume)] _
    (fun s => (s.m.log, s.m.k.qMaxSize 0, s.m.k.qSize 0, s.m.k.qBuf 0 0))
    ([⟨1, .inl (.post .queue 0 6), some (0, .E_OK)⟩, ⟨1, .inl (.tickDelay 1), some (0, .E_OK)⟩,
      ⟨1, .inl (.post .queue 0 7), some (0, .E_OK)⟩, ⟨1, .inl (.tickDelay 1), some (0, .E_OK)⟩,
      ⟨2, .inl (.post .queue 0 8), some (0, .E_OK)⟩], 2, 3, 8) (by decide +kernel)
  exact ⟨m0, s, h1, h2, congrArg (·.1) h3, congrArg (·.2.1) h3, congrArg (·.2.2.1) h3,
    congrArg (·.2.2.2) h3⟩

end Runs

end CoOS
