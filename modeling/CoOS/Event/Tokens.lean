/-
  Semaphores: no token is lost or made up.

  A token is the mail `0xffffffff`, so the ledger of the mails counts tokens: what was posted
  and what was there at the start is what was taken, what was handed to waiting tasks, and what
  is left in the counter. `CoPostSem` tests for the maximum before its lock, and two posters that
  have both passed the test overflow the semaphore (`sem_overflows`).
-/
import CoOS.Event.Served
import Mathlib.Data.List.Perm.Subperm

namespace CoOS

open Function (update)

/-! ## Counting -/

/-- The call has returned with `E_OK`. -/
def Entry.ok (en : Entry) : Bool := en.okVal.isSome

/-- `CoAcceptSem(e)` returned `E_OK`. -/
def Entry.acceptedSem (e : Nat) (en : Entry) : Bool :=
  match en.op with
  | .inl (.accept .sem e') => e' = e && en.ok
  | _ => false

/-- `CoPendSem(e, _)` took a token without blocking. -/
def Entry.pendedSem (e : Nat) (en : Entry) : Bool :=
  match en.op with
  | .inl (.pend .sem e' _) => e' = e && en.ok
  | _ => false

/-- `CoPendSem(e, _)` returned `E_OK` after it had blocked. -/
def Entry.wokeSem (e : Nat) (en : Entry) : Bool :=
  match en.op with
  | .inr (.wait .sem e' _) => e' = e && en.ok
  | _ => false

/-- `CoPostSem(e)` returned `E_OK`. -/
def Entry.postedSem (e : Nat) (en : Entry) : Bool :=
  match en.op with
  | .inl (.post .sem e' _) => e' = e && en.ok
  | _ => false

/-- The request is one for `CoPostSem(e)`, which returned `E_OK`. -/
def SQC.postedSem (e : Nat) (x : SQC × StatusType) : Bool :=
  x.1.type = .SEM_REQ && (x.1.id = e && x.2 = .E_OK)

/-- The executions of `CoPostSem(e)` that returned `E_OK`: by tasks, and by `RespondSRQ`. -/
def posts (e : Nat) (log : List Entry) (answers : List (SQC × StatusType)) : Nat :=
  log.countP (Entry.postedSem e) + answers.countP (SQC.postedSem e)

/-- The task that the move releases from the waiting list of `e`. -/
def Move.releases (e : Nat) (mv : Move) : Option Nat :=
  match mv.fate with
  | .handed t => if mv.id = e then some t else none
  | _ => none

/-- The waiters of `e` that a post has released. -/
def releases (e : Nat) (ms : List Move) : Nat := (ms.filterMap (Move.releases e)).length

section Counts

variable {e : Nat}

theorem gets_length (ms : List Move) : ((history e ms).filterMap Fifo.Op.gets).length =
    (mails e .taken ms).length + releases e ms := by
  induction ms with
  | nil => rfl
  | cons mv ms ih =>
    unfold releases at ih ⊢
    rw [← List.singleton_append, history_append, List.filterMap_append, List.length_append, ih,
      mails_append, List.filterMap_append, List.length_append, List.length_append]
    have : ((history e [mv]).filterMap Fifo.Op.gets).length =
        (mails e .taken [mv]).length + ([mv].filterMap (Move.releases e)).length := by
      obtain ⟨id, v, f⟩ := mv
      by_cases hid : id = e
      · cases f
          <;> simp [history, hid, Move.op, Fifo.Op.gets, mails, Move.releases, List.filterMap_cons]
      · cases f <;> simp [history, hid, mails, Move.releases, List.filterMap_cons]
    omega

/-- A token that a section took was accepted or pended for. -/
theorem took_sem {ty : Nat → EventType} {en : Entry} (hs : ty e = .sem) (ht : en.Typed ty) :
    (en.took e).isSome = (en.acceptedSem e || en.pendedSem e) := by
  have hcase : ∀ {k : EventType} {e' : Nat}, (en.okVal ≠ none → ty e' = k) →
      (if e' = e then en.okVal.map k.mail else none).isSome =
        (decide (k = .sem) && (decide (e' = e) && en.ok)) := by
    intro k e' h
    by_cases he : e' = e
    · rw [if_pos he, Option.isSome_map]
      cases ho : en.okVal with
      | none =>
        unfold Entry.ok
        rw [ho, Option.isSome_none, Bool.and_false]
        cases k <;> rfl
      | some v =>
        have hk : k = .sem := by
          rw [← h (by rw [ho]; exact Option.some_ne_none v), he, hs]
        unfold Entry.ok
        rw [ho, hk, decide_eq_true he]
        rfl
    · rw [if_neg he, decide_eq_false he, Bool.false_and]
      cases k <;> rfl
  unfold Entry.Typed at ht
  unfold Entry.took Entry.acceptedSem Entry.pendedSem
  split
  · next k e' h1 =>
    rw [h1] at ht ⊢
    rw [hcase ht]
    cases k <;> simp
  · next k e' n h1 =>
    rw [h1] at ht ⊢
    rw [hcase ht]
    cases k <;> simp
  · next h1 h2 =>
    split
    · next h3 => exact (h1 _ _ h3).elim
    · split
      · next h3 => exact (h2 _ _ _ h3).elim
      · rfl

theorem took_length {ty : Nat → EventType} (hs : ty e = .sem) {log : List Entry}
    (ht : ∀ en ∈ log, en.Typed ty) : (log.filterMap (Entry.took e)).length =
      log.countP (Entry.acceptedSem e) + log.countP (Entry.pendedSem e) := by
  induction log with
  | nil => rfl
  | cons en log ih =>
    have h1 := took_sem hs (ht en (List.mem_cons_self ..))
    have h2 := ih fun en' hen => ht en' (List.mem_cons_of_mem _ hen)
    have hno : ¬ (en.acceptedSem e = true ∧ en.pendedSem e = true) := by
      unfold Entry.acceptedSem Entry.pendedSem
      rintro ⟨h3, h4⟩
      split at h3
      · next h5 =>
        rw [h5] at h4
        exact nomatch h4
      · exact nomatch h3
    rw [List.length_filterMap_eq_countP] at h2 ⊢
    rw [List.countP_cons, List.countP_cons, List.countP_cons, h2, h1]
    cases h3 : en.acceptedSem e with
    | false =>
      rw [Bool.false_or]
      simp only [Bool.false_eq_true, if_false]
      omega
    | true =>
      have h4 : en.pendedSem e = false := Bool.eq_false_iff.mpr fun h4 => hno ⟨h3, h4⟩
      rw [h4]
      simp only [Bool.or_false, Bool.false_eq_true, if_true, if_false]
      omega

theorem sent_length {ty : Nat → EventType} (hs : ty e = .sem) {log : List Entry}
    (ht : ∀ en ∈ log, en.Typed ty) : (log.filterMap (Entry.sent e)).length =
    log.countP (Entry.postedSem e) := by
  rw [List.length_filterMap_eq_countP]
  refine List.countP_congr fun en hen => ?_
  have h := ht en hen
  unfold Entry.Typed at h
  unfold Entry.sent Entry.postedSem Entry.ok
  split
  · next k e' v h1 =>
    rw [h1] at h ⊢
    by_cases he : e' = e
    · rw [if_pos he, Option.isSome_map]
      by_cases ho : en.okVal = none
      · cases k <;> simp [ho]
      · have hk : k = .sem := (h ho).symm.trans (by rw [he, hs])
        simp [hk, he]
    · rw [if_neg he]
      cases k <;> simp [he]
  · next h1 =>
    split
    · next h2 => exact (h1 _ _ _ h2).elim
    · simp

theorem drained_length {ty : Nat → EventType} (hs : ty e = .sem) {as : List (SQC × StatusType)}
    (ht : ∀ x ∈ as, SQC.Typed ty x) : (drained e as).length = as.countP (SQC.postedSem e) := by
  unfold drained
  rw [List.length_filterMap_eq_countP]
  refine List.countP_congr fun x hx => ?_
  have h := ht x hx
  unfold SQC.Typed SQC.kind at h
  unfold SQC.sent SQC.postedSem
  by_cases he : x.1.id = e ∧ x.2 = .E_OK
  · rw [he.1, hs] at h
    cases hty : x.1.type with
    | SEM_REQ => simp [he.1, he.2]
    | FLAG_REQ => simp
    | MBOX_REQ =>
      rw [hty] at h
      exact nomatch h nofun he.2
    | QUEUE_REQ =>
      rw [hty] at h
      exact nomatch h nofun he.2
  · rw [if_neg fun e => he e.2]
    simp only [Option.isSome_none, Bool.false_eq_true, false_iff, Bool.and_eq_true,
      decide_eq_true_eq]
    exact fun e => he e.2

/-- The tasks that came back from waiting for `e`. -/
def Entry.back (e : Nat) (en : Entry) : Option Nat := if en.wokeSem e then some en.task else none

/-- Who comes back from waiting was released. -/
theorem woke_le {a : Abs} (h : ∀ t, (a.got t e).Sublist (a.handed t e)) :
    a.log.countP (Entry.wokeSem e) ≤ releases e a.d.aside.moves := by
  have hw : a.log.countP (Entry.wokeSem e) = (a.log.filterMap (Entry.back e)).length := by
    rw [List.length_filterMap_eq_countP]
    refine List.countP_congr fun en _ => ?_
    unfold Entry.back
    split
    · next h1 => exact iff_of_true h1 rfl
    · next h1 => exact iff_of_false h1 (by decide)
  rw [hw]
  refine List.Subperm.length_le (List.subperm_ext_iff.mpr fun t _ => ?_)
  rw [List.count_filterMap, List.count_filterMap]
  calc a.log.countP (fun en => Entry.back e en == some t)
      ≤ (a.log.filterMap (Entry.got t e)).length := by
        rw [List.length_filterMap_eq_countP]
        refine List.countP_mono_left fun en _ h1 => ?_
        have h1 := eq_of_beq h1
        unfold Entry.back at h1
        split at h1
        · next h2 =>
          unfold Entry.wokeSem at h2
          split at h2
          · next e' n h3 =>
            rw [Bool.and_eq_true, decide_eq_true_iff] at h2
            unfold Entry.got
            rw [h3]
            dsimp only
            rw [if_pos ⟨Option.some.inj h1, h2.1⟩]
            exact h2.2
          · exact nomatch h2
        · exact nomatch h1
    _ ≤ (a.handed t e).length := by
        refine Nat.le_trans ?_ (h t).length_le
        unfold Abs.got
        rw [List.length_append]
        exact Nat.le_add_right ..
    _ ≤ a.d.aside.moves.countP fun mv => Move.releases e mv == some t := by
        unfold Abs.handed mails
        rw [List.length_filterMap_eq_countP]
        refine List.countP_mono_left fun mv _ h1 => ?_
        split at h1
        · next h2 =>
          unfold Move.releases
          rw [h2.2]
          dsimp only
          rw [if_pos h2.1]
          exact beq_self_eq_true _
        · exact nomatch h1

end Counts

/-! ## Conservation -/

section Runs

variable {cfg : Env} {i : Idle} {us us' : List Setup} {m0 : Sys} {s : Split} {k1 k2 : Kernel}
  {initCnt maxCnt sort e : Nat}

/-- **Tokens are conserved**, as long as each post that has been interrupted behind its test finds
    the semaphore not full when it goes on: `e` is a semaphore that was created before the start. -/
theorem sem_conserved (hu : ∀ u ∈ us ++ .sem initCnt maxCnt sort :: us', u.Valid)
    (hb : boot cfg i (us ++ .sem initCnt maxCnt sort :: us') = some m0)
    (h1 : setUpTo cfg i us = some k1)
    (h2 : coCreateSem cfg.served k1 initCnt maxCnt sort = some (k2, e)) (he : e ≠ INVALID_ID)
    (h : Split.Reach cfg (Split.Ok cfg (Fine cfg)) m0 s) :
    s.m.k.initialEventCounter e = maxCnt ∧ s.m.k.eventCounter e ≤ maxCnt ∧ maxCnt < 65536 ∧
      s.m.k.eventCounter e + s.m.log.countP (Entry.acceptedSem e) +
      s.m.log.countP (Entry.pendedSem e) +
        releases e s.m.k.moves = initCnt + posts e s.m.log s.m.k.answers ∧
      s.m.log.countP (Entry.acceptedSem e) + s.m.log.countP (Entry.pendedSem e) +
        s.m.log.countP (Entry.wokeSem e) ≤ initCnt + posts e s.m.log s.m.k.answers := by
  obtain ⟨⟨g1, n1, hbf⟩, hsame⟩ :=
    @boot_same cfg m0 i us us' (.sem initCnt maxCnt sort) k1 k2 hu hb h1
    (congrArg (Option.map Prod.fst) h2)
  obtain ⟨t1, t2, t3⟩ := coCreateSem_event hbf h2 he
  have hs := hsame e (by rw [t1]; decide)
  have hty0 : m0.k.aside.eventType e = .sem := hs.type.trans t1
  have hinit : m0.k.aside.stored e = List.replicate initCnt 0xffffffff := by
    rw [stored_sem hty0, hs.cnt]
    exact congrArg (List.replicate · _) t2
  obtain ⟨g, r, F, -, hl⟩ := h.ledger hu hb
  have hty : s.m.k.aside.eventType e = .sem := (congrFun hl.kinds.type e).trans hty0
  have hmax : s.m.k.initialEventCounter e = maxCnt :=
    (congrFun hl.kinds.init e).trans (hs.init.trans t3)
  have hok := (eventOk_sem hty).mp (hl.flow.ok.ok e)
  -- what was posted is what the calls and the requests were told
  have hposts := (hl.served.sent e).length
  rw [sent_length hty0 hl.typed, drained_length hty0 hl.asked] at hposts
  -- what went in is what came out and what is there
  have hcons := congrArg List.length (Fifo.replay_conserves _ (hl.flow.replay e))
  rw [List.length_append, List.length_append, puts_eq, hposts, gets_length, ← hl.served.took e,
    took_length hty0 hl.typed, hinit, List.length_replicate,
    show (s.m.abs cfg.served g).d.aside.stored e = _ from stored_sem hty,
      List.length_replicate] at hcons
  have hwoke := woke_le fun t => hl.served.got t e
  change initCnt + posts e s.m.log s.m.k.answers = s.m.log.countP (Entry.acceptedSem e) +
    s.m.log.countP (Entry.pendedSem e) + releases e s.m.k.moves + s.m.k.eventCounter e at hcons
  change s.m.log.countP (Entry.wokeSem e) ≤ releases e s.m.k.moves at hwoke
  refine ⟨hmax, hmax ▸ hok.1, hmax ▸ hok.2, ?_, ?_⟩
  · omega
  · omega

/-- A task and an interrupt post; the task is preempted behind its test, and the other one takes a
    token in between. -/
theorem sem_conserved_shipped : ∃ m0 s, boot shippedEnv shippedIdle
      ([.plainTask 5] ++ .sem 1 2 sortFifo :: [.plainTask 10]) = some m0 ∧
    Split.Reach shippedEnv (Split.Ok shippedEnv (Fine shippedEnv)) m0 s ∧
    s.m.k.eventCounter 0 = 1 ∧ posts 0 s.m.log s.m.k.answers = 2 ∧
    s.m.k.eventCounter 0 + s.m.log.countP (Entry.acceptedSem 0) +
    s.m.log.countP (Entry.pendedSem 0) +
      releases 0 s.m.k.moves = 1 + posts 0 s.m.log s.m.k.answers := by
  obtain ⟨m0, s, hb, hr, hf⟩ :=
    @Split.ran shippedEnv (Split.Ok shippedEnv (Fine shippedEnv)) _ shippedIdle
    ([.plainTask 5] ++ .sem 1 2 sortFifo :: [.plainTask 10])
    [([], .call (.pend .sem 0 3)), ([], .call (.pend .sem 0 3)), ([], .resume),
      ([], .call (.post .sem 0 0)), ([⟨.SEM_REQ, 0, 0⟩], .tick), ([], .resume),
      ([], .call (.tickDelay 3)), ([], .resume)] _
    (fun s => (s.m.k.eventCounter 0, posts 0 s.m.log s.m.k.answers)) (1, 2) (by decide +kernel)
  obtain ⟨k1, h1, h2⟩ : ∃ k1, setUpTo shippedEnv shippedIdle [.plainTask 5] = some k1 ∧
      (coCreateSem shippedEnv.served k1 1 2 sortFifo).map Prod.snd = some 0 := by
    have : ((setUpTo shippedEnv shippedIdle [.plainTask 5]).bind fun k1 =>
        (coCreateSem shippedEnv.served k1 1 2 sortFifo).map Prod.snd) = some 0 := by decide +kernel
    exact Option.bind_eq_some_iff.mp this
  obtain ⟨⟨k2, e⟩, h3, rfl⟩ := Option.map_eq_some_iff.mp h2
  obtain ⟨-, -, -, h4, -⟩ := sem_conserved (by decide) hb h1 h3 (by decide) hr
  exact ⟨m0, s, hb, hr, congrArg Prod.fst hf, congrArg Prod.snd hf, h4⟩

/-- Task 2 has passed the test of `CoPostSem`; task 1, which the tick wakes, posts; then task 2
    posts, and the semaphore of at most one token has two. -/
theorem sem_overflows : ∃ m0 s, boot shippedEnv shippedIdle
      [.plainTask 5, .sem 0 1 sortFifo, .plainTask 10] = some m0 ∧
    Split.Reach shippedEnv (fun s rs a => Fine shippedEnv s.m rs (s.does a)) m0 s ∧
    s.m.log =
    [⟨1, .inl (.tickDelay 1), some (0, .E_OK)⟩, ⟨1, .inl (.post .sem 0 0), some (0, .E_OK)⟩,
      ⟨1, .inl (.tickDelay 1), some (0, .E_OK)⟩, ⟨2, .inl (.post .sem 0 0), some (0, .E_OK)⟩] ∧
    s.m.k.initialEventCounter 0 = 1 ∧ s.m.k.eventCounter 0 = 2 := by
  obtain ⟨m0, s, h1, h2, h3⟩ :=
    @Split.ran shippedEnv (fun s rs a => Fine shippedEnv s.m rs (s.does a)) _
    shippedIdle [.plainTask 5, .sem 0 1 sortFifo, .plainTask 10]
    [([], .call (.tickDelay 1)), ([], .call (.post .sem 0 0)), ([], .tick),
      ([], .call (.post .sem 0 0)),
      ([], .resume), ([], .call (.tickDelay 1)), ([], .resume)] _
    (fun s => (s.m.log, s.m.k.initialEventCounter 0, s.m.k.eventCounter 0))
    ([⟨1, .inl (.tickDelay 1), some (0, .E_OK)⟩, ⟨1, .inl (.post .sem 0 0), some (0, .E_OK)⟩,
      ⟨1, .inl (.tickDelay 1), some (0, .E_OK)⟩, ⟨2, .inl (.post .sem 0 0), some (0, .E_OK)⟩], 1, 2)
    (by decide +kernel)
  exact ⟨m0, s, h1, h2, congrArg (·.1) h3, congrArg (·.2.1) h3, congrArg (·.2.2) h3⟩

end Runs

end CoOS
