/-
  What semaphores, mailboxes and queues hold: one list of mails for each event, whatever its
  kind. A token of a semaphore is the mark `0xffffffff`.

  The three ways in which the code takes a mail out and the one in which it stores one are
  put and get of a bounded list here (`store_spec`, `take_spec`, `handOver_spec`), so nothing
  after this module looks at counters or rings.
-/
import CoOS.Run.Boot

namespace CoOS

open Function (update)

/-! ## The mails of an event -/

/-- The mails in the event `e`, oldest first. -/
def Aside.stored (a : Aside) (e : Nat) : List Nat :=
  match a.eventType e with
  | .sem => List.replicate (a.eventCounter e) 0xffffffff
  | .mbox => if a.eventCounter e = 1 then [(a.eventPtr e).mailVal] else []
  | .queue => Ring.items (a.qBuf (a.qcb e)) (a.qHead (a.qcb e)) (a.qMaxSize (a.qcb e))
      (a.qSize (a.qcb e))
  | .invalid => []

/-- How many it can hold. -/
def Aside.capacity (a : Aside) (e : Nat) : Nat :=
  match a.eventType e with
  | .sem => a.initialEventCounter e
  | .mbox => 1
  | .queue => a.qMaxSize (a.qcb e)
  | .invalid => 0

/-- The columns of the event `e` are in order; the counters and indices fit in 16 bits. -/
def Aside.EventOk (a : Aside) (e : Nat) : Prop :=
  match a.eventType e with
  | .sem => a.eventCounter e ≤ a.initialEventCounter e ∧ a.initialEventCounter e < 65536
  | .mbox => a.eventCounter e ≤ 1
  | .queue => a.eventPtr e = .qcb (a.qcb e) ∧ Ring.Ok (a.qHead (a.qcb e)) (a.qTail (a.qcb e))
      (a.qMaxSize (a.qcb e)) (a.qSize (a.qcb e)) ∧ a.qMaxSize (a.qcb e) < 65536
  | .invalid => True

structure EventsOk (a : Aside) : Prop where
  ok : ∀ e, a.EventOk e
  own : ∀ e e', a.eventType e = .queue → a.eventType e' = .queue → a.qcb e = a.qcb e' → e = e'

section Cases

variable {a : Aside} {e : Nat}

theorem stored_sem (h : a.eventType e = .sem) :
    a.stored e = List.replicate (a.eventCounter e) 0xffffffff := by
  unfold Aside.stored
  rw [h]

theorem stored_mbox (h : a.eventType e = .mbox) :
    a.stored e = if a.eventCounter e = 1 then [(a.eventPtr e).mailVal] else [] := by
  unfold Aside.stored
  rw [h]

theorem stored_queue (h : a.eventType e = .queue) : a.stored e =
    Ring.items (a.qBuf (a.qcb e)) (a.qHead (a.qcb e)) (a.qMaxSize (a.qcb e))
    (a.qSize (a.qcb e)) := by
  unfold Aside.stored
  rw [h]

theorem eventOk_sem (h : a.eventType e = .sem) : a.EventOk e ↔
    a.eventCounter e ≤ a.initialEventCounter e ∧ a.initialEventCounter e < 65536 := by
  unfold Aside.EventOk
  rw [h]

theorem eventOk_mbox (h : a.eventType e = .mbox) : a.EventOk e ↔ a.eventCounter e ≤ 1 := by
  unfold Aside.EventOk
  rw [h]

theorem eventOk_queue (h : a.eventType e = .queue) : a.EventOk e ↔
    a.eventPtr e = .qcb (a.qcb e) ∧ Ring.Ok (a.qHead (a.qcb e)) (a.qTail (a.qcb e))
      (a.qMaxSize (a.qcb e)) (a.qSize (a.qcb e)) ∧ a.qMaxSize (a.qcb e) < 65536 := by
  unfold Aside.EventOk
  rw [h]

/-- The tests of the calls, in terms of the list. -/
theorem avail_iff : a.avail e = true ↔ a.stored e ≠ [] := by
  unfold Aside.avail Aside.stored
  cases a.eventType e with
  | sem =>
    rw [decide_eq_true_iff, Ne, List.replicate_eq_nil_iff]
    exact Nat.pos_iff_ne_zero
  | mbox =>
    rw [decide_eq_true_iff]
    by_cases hc : a.eventCounter e = 1
    · simp [hc]
    · simp [hc]
  | queue =>
    rw [decide_eq_true_iff, Ne, Ne, ← List.length_eq_zero_iff, Ring.length_items]
  | invalid => simp

theorem full_iff (h : a.EventOk e) (hty : a.eventType e ≠ .invalid) :
    a.full e = true ↔ (a.stored e).length = a.capacity e := by
  cases ht : a.eventType e with
  | sem =>
    unfold Aside.full Aside.stored Aside.capacity
    rw [ht, decide_eq_true_iff, List.length_replicate]
  | mbox =>
    have := (eventOk_mbox ht).mp h
    unfold Aside.full Aside.stored Aside.capacity
    rw [ht, decide_eq_true_iff]
    by_cases hc : a.eventCounter e = 1
    · simp [hc]
    · have h0 : a.eventCounter e = 0 := by omega
      simp [h0]
  | queue =>
    unfold Aside.full Aside.stored Aside.capacity
    rw [ht, decide_eq_true_iff, Ring.length_items]
  | invalid => exact absurd ht hty

theorem stored_length (h : a.EventOk e) : (a.stored e).length ≤ a.capacity e := by
  cases ht : a.eventType e with
  | sem =>
    unfold Aside.capacity
    rw [stored_sem ht, ht, List.length_replicate]
    exact ((eventOk_sem ht).mp h).1
  | mbox =>
    unfold Aside.capacity
    rw [stored_mbox ht, ht]
    split
    · exact Nat.le_refl 1
    · exact Nat.zero_le 1
  | queue =>
    unfold Aside.capacity
    rw [stored_queue ht, ht, Ring.length_items]
    exact ((eventOk_queue ht).mp h).2.1.le
  | invalid =>
    unfold Aside.stored
    rw [ht]
    exact Nat.zero_le _

end Cases

/-! ## Frames -/

section Frame

variable {a a' : Aside} {e : Nat}

theorem SameEvent.stored (h : SameEvent a a' e) : a'.stored e = a.stored e := by
  unfold Aside.stored
  rw [h.type, h.ptr, h.cnt, h.qcb]
  cases ht : a.eventType e with
  | queue =>
    obtain ⟨h1, h2, h3, h4, h5⟩ := h.queue ht
    dsimp only
    rw [h1, h2, h4, h5]
  | _ => rfl

theorem SameEvent.ok (h : SameEvent a a' e) (ho : a.EventOk e) : a'.EventOk e := by
  unfold Aside.EventOk at ho ⊢
  rw [h.type, h.ptr, h.cnt, h.init, h.qcb]
  cases ht : a.eventType e with
  | queue =>
    obtain ⟨h1, h2, h3, h4, h5⟩ := h.queue ht
    rw [ht] at ho
    dsimp only at ho ⊢
    rw [h2, h3, h4, h5]
    exact ho
  | _ =>
    rw [ht] at ho
    exact ho

theorem SameEvent.capacity (h : SameEvent a a' e) : a'.capacity e = a.capacity e := by
  unfold Aside.capacity
  rw [h.type, h.init, h.qcb]
  cases ht : a.eventType e with
  | queue => exact (h.queue ht).2.2.2.1
  | _ => rfl

theorem sameEvent_of_part (h : a'.evtPart = a.evtPart) (e : Nat) : SameEvent a a' e :=
  ⟨congrFun (congrArg EvtPart.eventType h) e, congrFun (congrArg EvtPart.eventPtr h) e,
    congrFun (congrArg EvtPart.eventCounter h) e,
      congrFun (congrArg EvtPart.initialEventCounter h) e,
    fun _ => ⟨congrFun (congrArg EvtPart.qBuf h) _, congrFun (congrArg EvtPart.qHead h) _,
      congrFun (congrArg EvtPart.qTail h) _, congrFun (congrArg EvtPart.qMaxSize h) _,
      congrFun (congrArg EvtPart.qSize h) _⟩⟩

theorem EventsOk.congr (h : EventsOk a) (hs : ∀ e, SameEvent a a' e) :
    EventsOk a' ∧ a'.stored = a.stored := by
  refine ⟨⟨fun e => (hs e).ok (h.ok e), fun e e' h1 h2 h3 => ?_⟩, funext fun e => (hs e).stored⟩
  rw [(hs e).type] at h1
  rw [(hs e').type] at h2
  rw [(hs e).qcb, (hs e').qcb] at h3
  exact h.own e e' h1 h2 h3

/-- Only the event `e` has changed. -/
structure OnlyEvent (a a' : Aside) (e : Nat) : Prop where
  type : a'.eventType e = a.eventType e
  init : a'.initialEventCounter = a.initialEventCounter
  max : a'.qMaxSize = a.qMaxSize
  qcb : a.eventType e = .queue → a'.qcb e = a.qcb e
  other : ∀ e', e' ≠ e → SameEvent a a' e'

/-- The event `e` holds `l` now, and no other event has changed. -/
structure Edit (a a' : Aside) (e : Nat) (l : List Nat) : Prop where
  ok : EventsOk a'
  stored : a'.stored = update a.stored e l
  capacity : a'.capacity = a.capacity

theorem EventsOk.only (h : EventsOk a) (ho : OnlyEvent a a' e) (he : a'.EventOk e) {l : List Nat}
    (hl : a'.stored e = l) : Edit a a' e l := by
  have hq : ∀ e', a'.eventType e' = a.eventType e' ∧
    (a.eventType e' = .queue → a'.qcb e' = a.qcb e') := by
    intro e'
    by_cases hee : e' = e
    · rw [hee]
      exact ⟨ho.type, ho.qcb⟩
    · exact ⟨(ho.other e' hee).type, fun _ => (ho.other e' hee).qcb⟩
  refine ⟨⟨fun e' => ?_, fun e1 e2 h1 h2 h3 => ?_⟩, funext fun e' => ?_, funext fun e' => ?_⟩
  · by_cases hee : e' = e
    · rw [hee]
      exact he
    · exact (ho.other e' hee).ok (h.ok e')
  · rw [(hq e1).1] at h1
    rw [(hq e2).1] at h2
    rw [(hq e1).2 h1, (hq e2).2 h2] at h3
    exact h.own e1 e2 h1 h2 h3
  · by_cases hee : e' = e
    · rw [hee, Function.update_self, hl]
    · rw [Function.update_of_ne hee]
      exact (ho.other e' hee).stored
  · unfold Aside.capacity
    rw [(hq e').1, ho.init, ho.max]
    cases ht : a.eventType e' with
    | queue =>
      dsimp only
      rw [(hq e').2 ht]
    | _ => rfl

end Frame

/-! ## Writes to one event -/

/-- `eventPtr` and `eventCounter` of the event `e` are written. -/
def Aside.setCell (a : Aside) (e : Nat) (p : EventPtr) (c : Nat) : Aside :=
  { a with eventPtr := update a.eventPtr e p, eventCounter := update a.eventCounter e c }

/-- The queue block `q` is written. -/
def Aside.setQueue (a : Aside) (q : Nat) (buf : Nat → Nat) (head tail size : Nat) : Aside :=
  { a with
    qBuf := update a.qBuf q buf
    qHead := update a.qHead q head
    qTail := update a.qTail q tail
    qSize := update a.qSize q size }

section Write

variable {a : Aside} {e : Nat} {p : EventPtr} {c : Nat} {buf : Nat → Nat} {head tail size : Nat}

theorem setCell_ptr : (a.setCell e p c).eventPtr e = p := Function.update_self ..

theorem setCell_cnt : (a.setCell e p c).eventCounter e = c := Function.update_self ..

theorem setCell_only (hty : a.eventType e ≠ .queue) : OnlyEvent a (a.setCell e p c) e :=
  ⟨rfl, rfl, rfl, fun hq => absurd hq hty, fun _ hne => ⟨rfl, Function.update_of_ne hne ..,
    Function.update_of_ne hne .., rfl, fun _ => ⟨rfl, rfl, rfl, rfl, rfl⟩⟩⟩

theorem EventsOk.setSem (h : EventsOk a) (ht : a.eventType e = .sem)
    (hc : c ≤ a.initialEventCounter e) :
    Edit a (a.setCell e p c) e (List.replicate c 0xffffffff) := by
  have ht' : (a.setCell e p c).eventType e = .sem := ht
  refine h.only (setCell_only (by rw [ht]; decide)) ((eventOk_sem ht').mpr ?_) ?_
  · rw [setCell_cnt]
    exact ⟨hc, ((eventOk_sem ht).mp (h.ok e)).2⟩
  · rw [stored_sem ht', setCell_cnt]

theorem EventsOk.setMbox (h : EventsOk a) (ht : a.eventType e = .mbox) (hc : c ≤ 1) :
    Edit a (a.setCell e p c) e (if c = 1 then [p.mailVal] else []) := by
  have ht' : (a.setCell e p c).eventType e = .mbox := ht
  refine h.only (setCell_only (by rw [ht]; decide)) ((eventOk_mbox ht').mpr ?_) ?_
  · rw [setCell_cnt]
    exact hc
  · rw [stored_mbox ht', setCell_cnt, setCell_ptr]

theorem setQueue_only (h : EventsOk a) (ht : a.eventType e = .queue) :
    OnlyEvent a (a.setQueue (a.qcb e) buf head tail size) e := by
  refine ⟨rfl, rfl, rfl, fun _ => rfl, fun e' hne => ⟨rfl, rfl, rfl, rfl, fun ht1 => ?_⟩⟩
  have hqq : a.qcb e' ≠ a.qcb e := fun hc => hne (h.own e' e ht1 ht hc)
  exact ⟨Function.update_of_ne hqq .., Function.update_of_ne hqq .., Function.update_of_ne hqq ..,
    rfl, Function.update_of_ne hqq ..⟩

theorem EventsOk.setQueue (h : EventsOk a) (ht : a.eventType e = .queue)
    (hr : Ring.Ok head tail (a.qMaxSize (a.qcb e)) size) :
    Edit a (a.setQueue (a.qcb e) buf head tail size) e
      (Ring.items buf head (a.qMaxSize (a.qcb e)) size) := by
  have ht' : (a.setQueue (a.qcb e) buf head tail size).eventType e = .queue := ht
  have h1 : (a.setQueue (a.qcb e) buf head tail size).qBuf (a.qcb e) = buf :=
    Function.update_self ..
  have h2 : (a.setQueue (a.qcb e) buf head tail size).qHead (a.qcb e) = head :=
    Function.update_self ..
  have h3 : (a.setQueue (a.qcb e) buf head tail size).qTail (a.qcb e) = tail :=
    Function.update_self ..
  have h4 : (a.setQueue (a.qcb e) buf head tail size).qSize (a.qcb e) = size :=
    Function.update_self ..
  have hq : (a.setQueue (a.qcb e) buf head tail size).qcb e = a.qcb e := rfl
  obtain ⟨k1, -, k3⟩ := (eventOk_queue ht).mp (h.ok e)
  refine h.only (setQueue_only h ht) ((eventOk_queue ht').mpr ?_) ?_
  · rw [hq, h2, h3, h4]
    exact ⟨k1, hr, k3⟩
  · rw [stored_queue ht', hq, h1, h2, h4]
    rfl

end Write

/-! ## Put and get -/

section Move

variable {a : Aside} {e v t : Nat} {l : List Nat}

theorem length_lt_of_not_full (h : EventsOk a) (hty : a.eventType e ≠ .invalid)
    (hf : a.full e = false) : (a.stored e).length < a.capacity e := by
  refine Nat.lt_of_le_of_ne (stored_length (h.ok e)) fun hc => ?_
  rw [(full_iff (h.ok e) hty).mpr hc] at hf
  exact nomatch hf

/-- A mail is stored behind the others. -/
theorem store_spec (h : EventsOk a) (hty : a.eventType e ≠ .invalid) (hf : a.full e = false)
    (hv : a.eventType e = .sem → v = 0xffffffff) :
    Edit a (a.store e v) e (a.stored e ++ [v]) := by
  have hlt := length_lt_of_not_full h hty hf
  unfold Aside.capacity at hlt
  cases ht : a.eventType e with
  | sem =>
    rw [stored_sem ht, ht, List.length_replicate] at hlt
    have h2 := ((eventOk_sem ht).mp (h.ok e)).2
    have hst : a.store e v = a.setCell e (a.eventPtr e) (a.eventCounter e + 1) := by
      unfold Aside.store Aside.setCell
      rw [ht, Function.update_eq_self]
      dsimp only at hlt ⊢
      rw [Nat.mod_eq_of_lt (by omega)]
    rw [hst, stored_sem ht, hv ht, ← List.replicate_succ']
    exact h.setSem ht hlt
  | mbox =>
    rw [ht] at hlt
    have hst : a.store e v = a.setCell e (.mail v) 1 := by
      unfold Aside.store
      rw [ht]
      rfl
    rw [hst, List.length_eq_zero_iff.mp (Nat.lt_one_iff.mp hlt)]
    exact h.setMbox ht (Nat.le_refl 1)
  | queue =>
    obtain ⟨h1, h2, h3⟩ := (eventOk_queue ht).mp (h.ok e)
    rw [stored_queue ht, ht, Ring.length_items] at hlt
    dsimp only at hlt
    have hst : a.store e v = a.setQueue (a.qcb e) (update (a.qBuf (a.qcb e)) (a.qTail (a.qcb e)) v)
        (a.qHead (a.qcb e)) ((a.qTail (a.qcb e) + 1) % a.qMaxSize (a.qcb e))
          (a.qSize (a.qcb e) + 1) := by
      unfold Aside.store Aside.setQueue
      rw [ht]
      dsimp only
      rw [Ring.next_eq h2.tail_lt h3, Nat.mod_eq_of_lt (by omega : a.qSize (a.qcb e) + 1 < 65536),
        Function.update_eq_self]
    rw [hst, stored_queue ht, ← Ring.items_put h2 hlt v]
    exact h.setQueue ht (h2.put hlt)
  | invalid => exact absurd ht hty

/-- The oldest mail leaves the event `e`. -/
def Aside.pop (a : Aside) (e : Nat) : Aside :=
  match a.eventType e with
  | .sem => a.setCell e (a.eventPtr e) (a.eventCounter e - 1)
  | .mbox => a.setCell e .null 0
  | .queue => a.setQueue (a.qcb e) (a.qBuf (a.qcb e))
      ((a.qHead (a.qcb e) + 1) % a.qMaxSize (a.qcb e)) (a.qTail (a.qcb e)) (a.qSize (a.qcb e) - 1)
  | .invalid => a

theorem stored_cons_sem (ht : a.eventType e = .sem) (hs : a.stored e = v :: l) :
    v = 0xffffffff ∧ l = List.replicate (a.eventCounter e - 1) 0xffffffff ∧
    0 < a.eventCounter e := by
  rw [stored_sem ht] at hs
  obtain ⟨n, hn⟩ : ∃ n, a.eventCounter e = n + 1 := by
    refine Nat.exists_eq_succ_of_ne_zero fun h0 => ?_
    rw [h0] at hs
    exact nomatch hs
  rw [hn, List.replicate_succ, List.cons.injEq] at hs
  rw [hn]
  exact ⟨hs.1.symm, hs.2.symm, Nat.succ_pos n⟩

theorem stored_cons_mbox (ht : a.eventType e = .mbox) (hs : a.stored e = v :: l) :
    a.eventCounter e = 1 ∧ v = (a.eventPtr e).mailVal ∧ l = [] := by
  rw [stored_mbox ht] at hs
  split at hs
  · next hc =>
    rw [List.cons.injEq] at hs
    exact ⟨hc, hs.1.symm, hs.2.symm⟩
  · exact nomatch hs

theorem stored_cons_queue (h : EventsOk a) (ht : a.eventType e = .queue)
    (hs : a.stored e = v :: l) :
    ∃ n, a.qSize (a.qcb e) = n + 1 ∧ v = a.qBuf (a.qcb e) (a.qHead (a.qcb e)) ∧
      l = Ring.items (a.qBuf (a.qcb e)) ((a.qHead (a.qcb e) + 1) % a.qMaxSize (a.qcb e))
        (a.qMaxSize (a.qcb e)) n := by
  rw [stored_queue ht] at hs
  obtain ⟨n, hn⟩ : ∃ n, a.qSize (a.qcb e) = n + 1 := by
    refine Nat.exists_eq_succ_of_ne_zero fun h0 => ?_
    rw [h0] at hs
    exact nomatch hs
  rw [hn, Ring.items_get ((eventOk_queue ht).mp (h.ok e)).2.1.lt, List.cons.injEq] at hs
  exact ⟨n, hn, hs.1.symm, hs.2.symm⟩

theorem pop_spec (h : EventsOk a) (hs : a.stored e = v :: l) :
    Edit a (a.pop e) e l := by
  unfold Aside.pop
  cases ht : a.eventType e with
  | sem =>
    obtain ⟨-, hl, -⟩ := stored_cons_sem ht hs
    rw [hl]
    exact h.setSem ht (Nat.le_trans (Nat.sub_le _ 1) ((eventOk_sem ht).mp (h.ok e)).1)
  | mbox =>
    obtain ⟨-, -, hl⟩ := stored_cons_mbox ht hs
    rw [hl]
    exact h.setMbox ht (Nat.zero_le 1)
  | queue =>
    obtain ⟨n, hn, -, hl⟩ := stored_cons_queue h ht hs
    have hr := ((eventOk_queue ht).mp (h.ok e)).2.1
    rw [hn] at hr
    rw [hl, hn]
    exact h.setQueue ht hr.get
  | invalid =>
    unfold Aside.stored at hs
    rw [ht] at hs
    exact nomatch hs

/-- The three copies of the code that takes a mail out do the same. -/
theorem take_eq (h : EventsOk a) (hs : a.stored e = v :: l) :
    a.take e = ((a.pop e).note e v .taken, if a.eventType e = .sem then 0 else v) := by
  unfold Aside.take Aside.pop
  cases ht : a.eventType e with
  | sem =>
    rw [(stored_cons_sem ht hs).1]
    unfold Aside.setCell
    dsimp only
    rw [Function.update_eq_self]
    rfl
  | mbox =>
    rw [(stored_cons_mbox ht hs).2.1]
    rfl
  | queue =>
    obtain ⟨n, hn, hv, -⟩ := stored_cons_queue h ht hs
    obtain ⟨-, h2, h3⟩ := (eventOk_queue ht).mp (h.ok e)
    have hsz : (a.qSize (a.qcb e) + 65535) % 65536 = a.qSize (a.qcb e) - 1 := by
      have := h2.le
      omega
    unfold Aside.setQueue
    dsimp only
    rw [Ring.next_eq h2.lt h3, hsz, ← hv, Function.update_eq_self, Function.update_eq_self]
    rfl
  | invalid =>
    unfold Aside.stored at hs
    rw [ht] at hs
    exact nomatch hs

theorem handOver_eq (h : EventsOk a) (hs : a.stored e = v :: l) :
    a.handOver e t = { a.pop e with pmail := update a.pmail t v }.note e v (.handed t) := by
  unfold Aside.handOver Aside.pop
  cases ht : a.eventType e with
  | sem =>
    obtain ⟨hv, -, hc⟩ := stored_cons_sem ht hs
    obtain ⟨h1, h2⟩ := (eventOk_sem ht).mp (h.ok e)
    have hd : (a.eventCounter e + 65535) % 65536 = a.eventCounter e - 1 := by omega
    unfold Aside.setCell
    dsimp only
    rw [hv, hd, Function.update_eq_self]
  | mbox =>
    obtain ⟨hc, hv, -⟩ := stored_cons_mbox ht hs
    unfold Aside.setCell
    dsimp only
    rw [hv, hc]
  | queue =>
    obtain ⟨n, hn, hv, -⟩ := stored_cons_queue h ht hs
    obtain ⟨h1, h2, h3⟩ := (eventOk_queue ht).mp (h.ok e)
    have hsz : (a.qSize (a.qcb e) + 65535) % 65536 = a.qSize (a.qcb e) - 1 := by
      have := h2.le
      omega
    unfold Aside.setQueue
    dsimp only
    rw [h1]
    dsimp only
    rw [Ring.next_eq h2.lt h3, hsz, ← hv, Function.update_eq_self, Function.update_eq_self]
  | invalid =>
    unfold Aside.stored at hs
    rw [ht] at hs
    exact nomatch hs

/-- What a put or a get leaves alone. -/
structure Rest (a a' : Aside) : Prop where
  pmail : a'.pmail = a.pmail
  moves : a'.moves = a.moves
  answers : a'.answers = a.answers
  sort : a'.eventSortType = a.eventSortType
  prio : a'.prio = a.prio
  type : a'.eventType = a.eventType

theorem store_rest (a : Aside) (e v : Nat) : Rest a (a.store e v) := by
  unfold Aside.store
  split
  · exact ⟨rfl, rfl, rfl, rfl, rfl, rfl⟩
  · exact ⟨rfl, rfl, rfl, rfl, rfl, rfl⟩
  · exact ⟨rfl, rfl, rfl, rfl, rfl, rfl⟩
  · exact ⟨rfl, rfl, rfl, rfl, rfl, rfl⟩

theorem pop_rest (a : Aside) (e : Nat) : Rest a (a.pop e) := by
  unfold Aside.pop
  split
  · exact ⟨rfl, rfl, rfl, rfl, rfl, rfl⟩
  · exact ⟨rfl, rfl, rfl, rfl, rfl, rfl⟩
  · exact ⟨rfl, rfl, rfl, rfl, rfl, rfl⟩
  · exact ⟨rfl, rfl, rfl, rfl, rfl, rfl⟩

end Move

/-! ## A post -/

theorem mail_sem {k : EventType} {v : Nat} (h : k = .sem) : k.mail v = 0xffffffff := by
  rw [h]
  rfl

/-- A post to an event for which nobody waits. -/
structure Kept (d d' : Data) (e v : Nat) : Prop where
  edit : Edit d.aside d'.aside e (d.aside.stored e ++ [v])
  moves : d'.aside.moves = d.aside.moves ++ [⟨e, v, .posted⟩]
  pmail : d'.aside.pmail = d.aside.pmail
  sort : d'.aside.eventSortType = d.aside.eventSortType
  prio : d'.aside.prio = d.aside.prio
  evt : d'.evt = d.evt
  timed : d'.timed = d.timed

/-- A post that releases the task `t` with the mail `x`. -/
structure Handed (d d' : Data) (e v t x : Nat) (l rest : List Nat) : Prop where
  lst : d.evt.lst e = t :: l
  oldest : d.aside.stored e ++ [v] = x :: rest
  edit : Edit d.aside d'.aside e rest
  moves : d'.aside.moves = d.aside.moves ++ [⟨e, v, .posted⟩, ⟨e, x, .handed t⟩]
  pmail : d'.aside.pmail = update d.aside.pmail t x
  sort : d'.aside.eventSortType = d.aside.eventSortType
  prio : d'.aside.prio = d.aside.prio
  evt : d'.evt = d.evt.take e t l
  timed : d'.timed = fun u => u ≠ t ∧ d.timed u

theorem postOk_cases {d : Data} {e v : Nat} (h : EventsOk d.aside)
    (hty : d.aside.eventType e ≠ .invalid)
    (hf : d.aside.full e = false) (hv : d.aside.eventType e = .sem → v = 0xffffffff) :
    (d.evt.lst e = [] ∧ Kept d (d.postOk e v) e v) ∨
      ∃ t x l rest, Handed d (d.postOk e v) e v t x l rest := by
  have h1 := store_spec h hty hf hv
  have r1 := store_rest d.aside e v
  have ho : EventsOk ((d.aside.store e v).note e v .posted) := ⟨h1.ok.ok, h1.ok.own⟩
  unfold Data.postOk Data.release
  cases hl : d.evt.lst e with
  | nil =>
    refine Or.inl ⟨rfl, ⟨ho, h1.stored, h1.capacity⟩, ?_, r1.pmail, r1.sort, r1.prio, rfl, rfl⟩
    exact congrArg (· ++ [⟨e, v, .posted⟩]) r1.moves
  | cons t l =>
    have hs : ((d.aside.store e v).note e v .posted).stored e = d.aside.stored e ++ [v] := by
      refine (congrFun h1.stored e).trans ?_
      rw [Function.update_self]
    obtain ⟨x, rest, hx⟩ := List.exists_cons_of_ne_nil (List.append_ne_nil_of_right_ne_nil
      (d.aside.stored e) (List.cons_ne_nil v []))
    rw [hx] at hs
    have h2 := pop_spec ho hs
    have r2 := pop_rest ((d.aside.store e v).note e v .posted) e
    have heq := @handOver_eq _ e x t rest ho hs
    refine Or.inr ⟨t, x, l, rest, hl, hx, ?_, ?_, ?_, ?_, ?_, rfl, rfl⟩
    · dsimp only
      rw [heq]
      refine ⟨⟨h2.ok.ok, h2.ok.own⟩, ?_, h2.capacity.trans h1.capacity⟩
      refine h2.stored.trans ?_
      rw [show ((d.aside.store e v).note e v .posted).stored = (d.aside.store e v).stored from rfl,
        h1.stored, Function.update_idem]
    · dsimp only
      rw [heq]
      change (((d.aside.store e v).note e v .posted).pop e).moves ++ [⟨e, x, .handed t⟩] = _
      rw [r2.moves]
      change ((d.aside.store e v).moves ++ [⟨e, v, .posted⟩]) ++ [⟨e, x, .handed t⟩] = _
      rw [r1.moves, List.append_assoc]
      rfl
    · dsimp only
      rw [heq]
      exact congrArg (fun p => update p t x) r1.pmail
    · dsimp only
      rw [heq]
      exact r2.sort.trans r1.sort
    · dsimp only
      rw [heq]
      exact r2.prio.trans r1.prio

end CoOS
