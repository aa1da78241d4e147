/-
  Who holds the queue control blocks.

  `CoCreateQueue` takes a queue block first and an event block afterwards, `CoDelQueue` gives back
  the event block first. In between the queue block is held by the task that makes the call, else
  by the event whose `eventPtr` points to it (`Holder`). The bits of `QueueIDVessel` are the queue
  blocks that are held, and each is held once (`Bits`): a step takes a block, moves it from a task
  to an event or back, or gives it up.
-/
import Mathlib.Logic.Equiv.Basic
import CoOS.Event.PoolRun

namespace CoOS

open Function (update)

/-! ## Bits and holders -/

/-- An event, or a task in the middle of a call. -/
inductive Holder where
  | ev (e : Nat)
  | task (t : Nat)
  deriving DecidableEq

/-- The bits of `V` are the blocks that are held, and no block has two holders. -/
structure Bits (V : Nat → Bool) (H : Nat → Holder → Prop) : Prop where
  set : ∀ i, V i = true ↔ ∃ x, H i x
  once : ∀ i x y, H i x → H i y → x = y

section Bits

variable {V V' : Nat → Bool} {H H' : Nat → Holder → Prop} {i : Nat}

/-- Holders change their names. -/
theorem Bits.rename (h : Bits V H) (f : Equiv.Perm Holder) (hH : ∀ i x, H' i x ↔ H i (f x)) :
    Bits V H' := by
  refine ⟨fun i => (h.set i).trans ?_, fun i x y hx hy => ?_⟩
  · constructor
    · rintro ⟨x, hx⟩
      exact ⟨f.symm x, (hH i _).mpr (by rwa [f.apply_symm_apply])⟩
    · rintro ⟨x, hx⟩
      exact ⟨f x, (hH i x).mp hx⟩
  · exact f.injective (h.once i _ _ ((hH i x).mp hx) ((hH i y).mp hy))

theorem Bits.congr (h : Bits V H) (hH : ∀ i x, H' i x ↔ H i x) : Bits V H' :=
  h.rename (Equiv.refl Holder) hH

/-- A free block is taken. -/
theorem Bits.take (h : Bits V H) (hi : V i = false) {x : Holder}
    (hH : ∀ j y, H' j y ↔ (j = i ∧ y = x) ∨ H j y) : Bits (update V i true) H' := by
  have hn : ∀ y, ¬ H i y := fun y hy => by
    rw [(h.set i).mpr ⟨y, hy⟩] at hi
    cases hi
  constructor
  · intro j
    by_cases hj : j = i
    · subst hj
      rw [Function.update_self]
      exact iff_of_true rfl ⟨x, (hH j x).mpr (Or.inl ⟨rfl, rfl⟩)⟩
    · rw [Function.update_of_ne hj, h.set j]
      refine exists_congr fun y => ((hH j y).trans (or_iff_right ?_)).symm
      exact fun e => hj e.1
  · intro j y z hy hz
    rcases (hH j y).mp hy with ⟨rfl, rfl⟩ | hy
    · rcases (hH j z).mp hz with ⟨-, rfl⟩ | hz
      · rfl
      · exact absurd hz (hn z)
    · rcases (hH j z).mp hz with ⟨rfl, rfl⟩ | hz
      · exact absurd hy (hn y)
      · exact h.once j y z hy hz

/-- A block is given up. -/
theorem Bits.drop (h : Bits V H) {x : Holder} (hx : H i x)
    (hH : ∀ j y, H' j y ↔ y ≠ x ∧ H j y) (hone : ∀ j, H j x → j = i) :
    Bits (update V i false) H' := by
  constructor
  · intro j
    by_cases hj : j = i
    · subst hj
      rw [Function.update_self]
      refine iff_of_false (fun e => nomatch e) fun ⟨y, hy⟩ => ?_
      obtain ⟨hne, hy⟩ := (hH j y).mp hy
      exact hne (h.once j y x hy hx)
    · rw [Function.update_of_ne hj, h.set j]
      refine exists_congr fun y => ((hH j y).trans (and_iff_right_of_imp ?_)).symm
      rintro hy rfl
      exact hj (hone j hy)
  · intro j y z hy hz
    exact h.once j y z ((hH j y).mp hy).2 ((hH j z).mp hz).2

end Bits

/-! ## The columns -/

/-- The columns that say which event holds which queue block. -/
structure QcbView where
  eventType : Nat → EventType
  link : Nat → EventPtr
  QueueIDVessel : Nat → Bool
  qId : Nat → Nat

def EcbView.qcbs (p : EcbView) : QcbView := ⟨p.eventType, p.link, p.QueueIDVessel, p.qId⟩

def Kernel.qcbs (s : Kernel) : QcbView := s.pool.qcbs

/-- The event `e` is a queue with the block `i`. -/
def QcbView.At (v : QcbView) (e i : Nat) : Prop := v.eventType e = .queue ∧ v.link e = .qcb i

/-- The event block `e` gets another type and another pointer. -/
def QcbView.setAt (v : QcbView) (e : Nat) (ty : EventType) (p : EventPtr) : QcbView :=
  { v with eventType := update v.eventType e ty, link := update v.link e p }

theorem queueAt_iff {s : Kernel} {e i : Nat} :
    s.qcbs.At e i ↔ s.eventType e = .queue ∧ s.eventPtr e = .qcb i := by
  refine and_congr_right fun he => ?_
  change s.link e = .qcb i ↔ _
  unfold Kernel.link
  rw [show s.eventType e = .queue from he]
  rfl

theorem qcbs_mk (s : Kernel) : s.qcbs = ⟨s.eventType, s.link, s.QueueIDVessel, s.qId⟩ := rfl

theorem qcbs_of_pool {s s' : Kernel} (h : s'.pool = s.pool) : s'.qcbs = s.qcbs :=
  congrArg EcbView.qcbs h

section Columns

variable {cfg : Env} {s : Kernel}

theorem takeECB_qcbs (ht : s.tmr.TmrList = none) : Ensures (takeECB cfg.served s) fun x =>
    x.1.qcbs = s.qcbs ∧ x.2 = s.FreeEventList := by
  unfold takeECB
  dsimp only
  split
  · next hf =>
    refine Ensures.bind (osSchedUnlock_pool cfg (s := osSchedLock s) rfl ht) fun s1 e1 => .some ?_
    exact ⟨qcbs_of_pool e1, hf.symm⟩
  · next e hf =>
    let s0 : Kernel := { osSchedLock s with FreeEventList := s.nextECB e }
    refine Ensures.bind (osSchedUnlock_pool cfg (s := s0) rfl ht) fun s1 e1 => .some ?_
    exact ⟨show s1.qcbs = s0.qcbs from qcbs_of_pool e1, hf.symm⟩

theorem link_setAt {s s' : Kernel} {e : Nat} {ty : EventType} {ptr : EventPtr}
    (h1 : s'.eventType = update s.eventType e ty) (h2 : s'.eventPtr = update s.eventPtr e ptr) :
    s'.link = update s.link e (if ty = .mbox then .null else ptr) := by
  funext a
  unfold Kernel.link
  by_cases ha : a = e
  · subst ha
    simp only [h1, h2, Function.update_self]
  · simp only [h1, h2, Function.update_of_ne ha]

theorem fillECB_qcbs (s : Kernel) (e : Nat) (ty : EventType) (sort : Nat) (ptr : EventPtr) :
    (fillECB s e ty sort ptr).qcbs = s.qcbs.setAt e ty (if ty = .mbox then .null else ptr) := by
  have h : (fillECB s e ty sort ptr).link = update s.link e (if ty = .mbox then .null else ptr) :=
    link_setAt rfl rfl
  rw [qcbs_mk, h]
  rfl

theorem initEvent_qcbs (s : Kernel) (e : Nat) (ty : EventType) (sort : Nat) (ptr : EventPtr)
    (initCnt maxCnt : Nat) : (initEvent s e ty sort ptr initCnt maxCnt).qcbs =
      (fillECB s e ty sort ptr).qcbs := by
  unfold initEvent
  split <;> rfl

theorem releaseECB_qcbs (ht : s.tmr.TmrList = none) (e : Nat) : Ensures (releaseECB cfg.served s e)
    fun s' => ∃ p, s'.qcbs = s.qcbs.setAt e .invalid p := by
  obtain ⟨ptr, heq, -⟩ := releaseECB_eq cfg.served s e
  rw [heq]
  let s1 : Kernel := { osSchedLock { s with eventType := update s.eventType e .invalid } with
    eventPtr := update s.eventPtr e ptr, FreeEventList := some e }
  refine (osSchedUnlock_pool cfg (s := s1) rfl ht).imp fun s2 e2 => ⟨ptr, ?_⟩
  have hl : s1.link = update s.link e ptr := @link_setAt s s1 _ _ _ rfl rfl
  rw [qcbs_of_pool e2, qcbs_mk, hl]
  rfl

end Columns

/-! ## The invariant -/

/-- The queue block that a task holds between the sections of a creation or a deletion. -/
def EvtCont.qcb : EvtCont → Option Nat
  | .take i _ _ => some i
  | .fill _ .queue _ (.qcb i) _ _ => some i
  | .clear q => some q
  | _ => Option.none

/-- The same, once the block has its number. -/
def EvtCont.named : EvtCont → Option Nat
  | .take .. => Option.none
  | c => c.qcb

/-- A queue is created with a queue block, and deleted with the one it has. -/
def EvtCont.QcbOk (v : QcbView) : EvtCont → Prop
  | .fill _ ty _ ptr _ _ => ty = .queue → ∃ i, ptr = .qcb i
  | .release e (some q) => v.At e q
  | .release e Option.none => v.eventType e ≠ .queue
  | _ => True

def holds (v : QcbView) (rest : Nat → EvtCont) (i : Nat) : Holder → Prop
  | .ev e => v.At e i
  | .task t => (rest t).qcb = some i

structure QcbInv (v : QcbView) (rest : Nat → EvtCont) : Prop where
  bits : Bits v.QueueIDVessel (holds v rest)
  ptr : ∀ e, v.eventType e = .queue → ∃ i, v.At e i
  evId : ∀ e i, v.At e i → v.qId i = i
  taskId : ∀ t i, (rest t).named = some i → v.qId i = i
  cont : ∀ t, (rest t).QcbOk v

section Step

variable {v v' : QcbView} {rest : Nat → EvtCont} {r e : Nat} {c : EvtCont}

theorem EvtCont.named_qcb {c : EvtCont} {i : Nat} (h : c.named = some i) : c.qcb = some i := by
  cases c with
  | take => exact nomatch h
  | _ => exact h

theorem EvtCont.not_named {c : EvtCont} (h : c.qcb = Option.none) (i : Nat) : c.named ≠ some i :=
  fun hi => by
  rw [EvtCont.named_qcb hi] at h
  cases h

/-- A deletion depends on the event that it releases. -/
theorem EvtCont.QcbOk.congr (h : c.QcbOk v) (he : ∀ a, c.releases = some a →
    v'.eventType a = v.eventType a ∧ v'.link a = v.link a) : c.QcbOk v' := by
  cases c with
  | release e q =>
    obtain ⟨h1, h2⟩ := he e rfl
    cases q with
    | none => exact fun hq => h (h1.symm.trans hq)
    | some q => exact ⟨h1.trans h.1, h2.trans h.2⟩
  | fill => exact h
  | _ => trivial

theorem update_cases {α : Type} {f : Nat → α} {P : α → Prop} {x : α} (hx : P x)
    (hf : ∀ t, t ≠ r → P (f t)) (t : Nat) : P (update f r x t) := by
  by_cases h : t = r
  · rw [h, Function.update_self]
    exact hx
  · rw [Function.update_of_ne h]
    exact hf t h

/-- A section of `r` that writes the events of `E`, and leaves `c` to do. -/
theorem QcbInv.next (h : QcbInv v rest) (E : Nat → Prop)
    (hbits : Bits v'.QueueIDVessel (holds v' (update rest r c)))
    (hne : ∀ a, ¬ E a → v'.eventType a = v.eventType a ∧ v'.link a = v.link a)
    (hrel : ∀ t a, t ≠ r → E a → (rest t).releases ≠ some a)
    (hptr : ∀ a, E a → v'.eventType a = .queue → ∃ i, v'.At a i)
    (hid : ∀ i, (∃ x, holds v' (update rest r c) i x) → v.qId i = i → v'.qId i = i)
    (hev : ∀ a i, E a → v'.At a i → v'.qId i = i)
    (hc : c.QcbOk v') (hn : ∀ i, c.named = some i → v'.qId i = i) :
    QcbInv v' (update rest r c) := by
  have hat : ∀ {a i}, ¬ E a → v'.At a i → v.At a i := fun ha hi =>
    ⟨(hne _ ha).1 ▸ hi.1, (hne _ ha).2 ▸ hi.2⟩
  refine ⟨hbits, fun a ha => ?_, fun a i hi => ?_, fun t i ht => ?_, ?_⟩
  · by_cases hE : E a
    · exact hptr a hE ha
    · obtain ⟨i, hi⟩ := h.ptr a ((hne a hE).1 ▸ ha)
      exact ⟨i, ha, (hne a hE).2.trans hi.2⟩
  · by_cases hE : E a
    · exact hev a i hE hi
    · exact hid i ⟨.ev a, hi⟩ (h.evId a i (hat hE hi))
  · by_cases htr : t = r
    · rw [htr, Function.update_self] at ht
      exact hn i ht
    · have hx : holds v' (update rest r c) i (.task t) := EvtCont.named_qcb ht
      rw [Function.update_of_ne htr] at ht
      exact hid i ⟨.task t, hx⟩ (h.taskId t i ht)
  · refine update_cases hc fun t ht => (h.cont t).congr fun a ha => hne a fun hE => ?_
    exact hrel t a ht hE ha

/-- The holders after a section of `r` that writes no event. -/
theorem holds_task (hty : v'.eventType = v.eventType) (hl : v'.link = v.link) (i : Nat)
    (x : Holder) :
    holds v' (update rest r c) i x ↔ (x = .task r ∧ c.qcb = some i) ∨ (x ≠ .task r ∧
      holds v rest i x) := by
  cases x with
  | ev e =>
    have : holds v' (update rest r c) i (.ev e) ↔ holds v rest i (.ev e) := by
      unfold holds QcbView.At
      rw [hty, hl]
    rw [this]
    exact ⟨fun h => Or.inr ⟨(fun e => nomatch e), h⟩,
      fun h => h.elim (fun h => nomatch h.1) And.right⟩
  | task t =>
    by_cases htr : t = r
    · subst htr
      change (update rest t c t).qcb = some i ↔ _
      rw [Function.update_self]
      exact ⟨fun h => Or.inl ⟨rfl, h⟩, fun h => h.elim And.right fun h => absurd rfl h.1⟩
    · change (update rest r c t).qcb = some i ↔ _
      rw [Function.update_of_ne htr]
      have hne : Holder.task t ≠ .task r := fun e => htr (Holder.task.inj e)
      exact ⟨fun h => Or.inr ⟨hne, h⟩, fun h => h.elim (fun h => absurd h.1 hne) And.right⟩

/-- A section of `r` that leaves the columns alone and holds the same block afterwards. -/
theorem QcbInv.keep (h : QcbInv v rest) (hq : c.qcb = (rest r).qcb) (hc : c.QcbOk v)
    (hn : ∀ i, c.named = some i → v.qId i = i) : QcbInv v (update rest r c) := by
  refine h.next (fun _ => False) (h.bits.congr fun i x => ?_) (fun _ _ => ⟨rfl, rfl⟩)
    (fun _ _ _ e => e.elim) (fun _ e => e.elim) (fun _ _ e => e) (fun _ _ e => e.elim) hc hn
  rw [holds_task rfl rfl, hq]
  by_cases hx : x = .task r
  · subst hx
    exact ⟨fun h => h.elim And.right fun h => absurd rfl h.1, fun h => Or.inl ⟨rfl, h⟩⟩
  · exact ⟨fun h => h.elim (fun h => absurd h.1 hx) And.right, fun h => Or.inr ⟨hx, h⟩⟩

/-- The first section of `CoCreateQueue`. -/
theorem QcbInv.take (h : QcbInv v rest) {i size sort : Nat} (hi : v.QueueIDVessel i = false)
    (hr : (rest r).qcb = none) :
    QcbInv { v with QueueIDVessel := update v.QueueIDVessel i true }
    (update rest r (.take i size sort)) := by
  refine h.next (fun _ => False) (@Bits.take _ _ _ i h.bits hi (.task r) fun j x => ?_)
    (fun _ _ => ⟨rfl, rfl⟩) (fun _ _ _ e => e.elim) (fun _ e => e.elim) (fun _ _ e => e)
    (fun _ _ e => e.elim) trivial fun _ e => nomatch e
  rw [holds_task rfl rfl]
  refine or_congr ?_ ?_
  · exact ⟨fun h => ⟨(Option.some.inj h.2).symm, h.1⟩, fun h => ⟨h.2, by rw [h.1]; rfl⟩⟩
  · refine and_iff_right_of_imp ?_
    rintro hx rfl
    change (rest r).qcb = some j at hx
    rw [hr] at hx
    cases hx

/-- The block gets its number, and the event block is taken. -/
theorem QcbInv.number (h : QcbInv v rest) {e i size sort : Nat} (hr : rest r = .take i size sort) :
    QcbInv { v with qId := update v.qId i i }
    (update rest r (.fill e .queue sort (.qcb i) 0 0)) := by
  have hid : ∀ j, v.qId j = j → update v.qId i i j = j := fun j hj => by
    by_cases hji : j = i
    · rw [hji, Function.update_self]
    · rwa [Function.update_of_ne hji]
  refine h.next (fun _ => False) (h.bits.congr fun j x => ?_) (fun _ _ => ⟨rfl, rfl⟩)
    (fun _ _ _ e => e.elim) (fun _ e => e.elim) (fun j _ => hid j) (fun _ _ e => e.elim)
    (fun _ => ⟨i, rfl⟩) fun j hj => ?_
  · rw [holds_task rfl rfl]
    by_cases hx : x = .task r
    · subst hx
      have : holds v rest j (.task r) ↔ some i = some j := by
        change (rest r).qcb = some j ↔ _
        rw [hr]
        rfl
      rw [this]
      exact ⟨fun h => h.elim And.right fun h => absurd rfl h.1, fun h => Or.inl ⟨rfl, h⟩⟩
    · exact ⟨fun h => h.elim (fun h => absurd h.1 hx) And.right, fun h => Or.inr ⟨hx, h⟩⟩
  · obtain rfl : i = j := Option.some.inj hj
    exact Function.update_self ..

/-- `r` and the event `e` exchange the queue blocks that they hold: the end of a creation, and
    `ReleaseECB`. -/
theorem QcbInv.exchange (h : QcbInv v rest) {ty : EventType} {p : EventPtr}
    (hx : ∀ i, c.qcb = some i ↔ v.At e i)
    (hy : ∀ i, (v.setAt e ty p).At e i ↔ (rest r).qcb = some i)
    (hrel : ∀ t, t ≠ r → (rest t).releases ≠ some e) (hptr : ty = .queue → ∃ i, p = .qcb i)
    (hid : ∀ i, (rest r).qcb = some i → v.qId i = i) (hc : c.QcbOk (v.setAt e ty p)) :
    QcbInv (v.setAt e ty p) (update rest r c) := by
  have hne : ∀ a, a ≠ e → (v.setAt e ty p).eventType a = v.eventType a ∧
      (v.setAt e ty p).link a = v.link a := fun a ha =>
    ⟨Function.update_of_ne ha .., Function.update_of_ne ha ..⟩
  refine h.next (fun a => a = e) (h.bits.rename (Equiv.swap (.task r) (.ev e)) fun i x => ?_)
    (fun a ha => hne a ha) (fun t a ht ha => ha ▸ hrel t ht) (fun a ha hq => ?_) (fun _ _ e => e)
    (fun a i ha hi => ?_) hc fun i hi => h.evId e i ((hx i).mp (EvtCont.named_qcb hi))
  · cases x with
    | ev a =>
      by_cases ha : a = e
      · subst ha
        rw [Equiv.swap_apply_right]
        exact hy i
      · have hswap : Equiv.swap (.task r) (.ev e) (Holder.ev a) = .ev a :=
          Equiv.swap_apply_of_ne_of_ne (by simp) fun e => ha (Holder.ev.inj e)
        rw [hswap]
        exact and_congr (by rw [(hne a ha).1]) (by rw [(hne a ha).2])
    | task t =>
      by_cases htr : t = r
      · subst htr
        rw [Equiv.swap_apply_left]
        change (update rest t c t).qcb = some i ↔ v.At e i
        rw [Function.update_self]
        exact hx i
      · have hswap : Equiv.swap (.task r) (.ev e) (Holder.task t) = .task t :=
          Equiv.swap_apply_of_ne_of_ne (fun e => htr (Holder.task.inj e)) (by simp)
        rw [hswap]
        change (update rest r c t).qcb = some i ↔ (rest t).qcb = some i
        rw [Function.update_of_ne htr]
  · subst ha
    have hty : update v.eventType a ty a = .queue := hq
    rw [Function.update_self] at hty
    obtain ⟨i, hi⟩ := hptr hty
    exact ⟨i, hq, (Function.update_self ..).trans hi⟩
  · subst ha
    exact hid i ((hy i).mp hi)

/-- The end of `CoDelQueue`. -/
theorem QcbInv.clear (h : QcbInv v rest) {q : Nat} (hr : rest r = .clear q) :
    QcbInv { v with
      QueueIDVessel := update v.QueueIDVessel (v.qId q) false
      qId := update v.qId q 0 } (update rest r .none) := by
  have hq : v.qId q = q := h.taskId r q (by rw [hr]; rfl)
  have hself : ∀ j, holds v rest j (.task r) → j = q := fun j hj => by
    change (rest r).qcb = some j at hj
    rw [hr] at hj
    exact (Option.some.inj hj).symm
  have hmine : holds v rest q (.task r) := by
    change (rest r).qcb = some q
    rw [hr]
    rfl
  have hbits : ∀ j x, holds { v with
      QueueIDVessel := update v.QueueIDVessel (v.qId q) false
      qId := update v.qId q 0 } (update rest r .none) j x ↔ x ≠ .task r ∧ holds v rest j x :=
        fun j x => by
    rw [holds_task rfl rfl]
    exact or_iff_right fun h => nomatch h.2
  refine h.next (fun _ => False) ?_ (fun _ _ => ⟨rfl, rfl⟩)
    (fun _ _ _ e => e.elim) (fun _ e => e.elim) (fun j hj hid => ?_) (fun _ _ e => e.elim) trivial
    fun _ e => nomatch e
  · rw [hq] at hbits ⊢
    exact h.bits.drop hmine hbits hself
  · obtain ⟨x, hx⟩ := hj
    obtain ⟨hxr, hx⟩ := (hbits j x).mp hx
    have hjq : j ≠ q := fun e => hxr (h.bits.once q x (.task r) (e ▸ hx) hmine)
    exact (Function.update_of_ne hjq ..).trans hid

end Step

end CoOS
