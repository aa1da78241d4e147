/-
  Every mail that was posted is stored, on its way, or was returned by one call.

  There are two exceptions. The mail `0` handed to a task that waits with a timeout: its pend finds
  `0` in `pmail` when it goes on, takes that for a timeout, and the mail is gone. And a `CoPostMail`
  that goes on behind its test when the mailbox has been filled meanwhile: it overwrites the mail.
-/
import CoOS.Event.Queue
import CoOS.Event.Race

namespace CoOS

open Function (update)

/-! ## Splitting a list by a key -/

section Fibres

variable {α β : Type}

theorem flatMap_single {n u : Nat} (hu : u < n) (l : List β) :
    (List.range n).flatMap (fun t => if u = t then l else []) = l := by
  induction n with
  | zero => exact absurd hu (Nat.not_lt_zero u)
  | succ n ih =>
    rw [List.range_succ, List.flatMap_append, List.flatMap_singleton]
    by_cases h : u = n
    · have : (List.range n).flatMap (fun t => if u = t then l else []) = [] := by
        rw [List.flatMap_eq_nil_iff]
        intro t ht
        rw [if_neg]
        have := List.mem_range.mp ht
        omega
      rw [this, if_pos h, List.nil_append]
    · rw [ih (by omega), if_neg h, List.append_nil]

/-- The items of a list, by their keys. -/
theorem perm_fibres {n : Nat} (key : α → Nat) (f : α → Option β) : ∀ (xs : List α),
    (∀ x ∈ xs, f x ≠ none → key x < n) →
    (xs.filterMap f).Perm ((List.range n).flatMap fun t =>
      xs.filterMap fun x => if key x = t then f x else none) := by
  intro xs
  induction xs with
  | nil =>
    intro _
    have h0 : (List.range n).flatMap (fun t => ([] : List α).filterMap fun x =>
        if key x = t then f x else none) = [] := List.flatMap_eq_nil_iff.mpr fun _ _ => rfl
    rw [h0]
    exact List.Perm.refl _
  | cons x xs ih =>
    intro h
    have ih := ih fun y hy => h y (List.mem_cons_of_mem _ hy)
    have hone : (List.range n).flatMap (fun t => if key x = t then (f x).toList else []) =
      (f x).toList := by
      cases hf : f x with
      | none => exact List.flatMap_eq_nil_iff.mpr fun _ _ => ite_self _
      | some v =>
        exact flatMap_single
          (h x (List.mem_cons_self ..) (by rw [hf]; exact Option.some_ne_none v)) _
    have hsplit : (fun t => (x :: xs).filterMap fun x => if key x = t then f x else none) =
        fun t => (if key x = t then (f x).toList else []) ++
          xs.filterMap fun x => if key x = t then f x else none := by
      funext t
      rw [List.filterMap_cons]
      by_cases ht : key x = t
      · rw [if_pos ht, if_pos ht]
        cases f x <;> rfl
      · rw [if_neg ht, if_neg ht]
        rfl
    rw [hsplit]
    refine List.Perm.trans ?_ (List.flatMap_append_perm ..)
    rw [hone]
    have hcons : (x :: xs).filterMap f = (f x).toList ++ xs.filterMap f := by
      rw [List.filterMap_cons]
      cases f x <;> rfl
    rw [hcons]
    exact ih.append_left _

/-- Two kinds of items. -/
theorem perm_split {f g h : α → Option β} : ∀ (xs : List α),
    (∀ x ∈ xs, (f x = g x ∧ h x = none) ∨ (f x = h x ∧ g x = none)) →
    (xs.filterMap f).Perm (xs.filterMap g ++ xs.filterMap h) := by
  intro xs
  induction xs with
  | nil => exact fun _ => List.Perm.refl _
  | cons x xs ih =>
    intro hx
    have ih := ih fun y hy => hx y (List.mem_cons_of_mem _ hy)
    have hcons : ∀ f' : α → Option β, (x :: xs).filterMap f' = (f' x).toList ++
      xs.filterMap f' := by
      intro f'
      rw [List.filterMap_cons]
      cases f' x <;> rfl
    rw [hcons f, hcons g, hcons h]
    rcases hx x (List.mem_cons_self ..) with ⟨h1, h2⟩ | ⟨h1, h2⟩
    · rw [h1, h2, List.append_assoc]
      exact ih.append_left _
    · rw [h1, h2]
      change ((h x).toList ++ xs.filterMap f).Perm
        (xs.filterMap g ++ ((h x).toList ++ xs.filterMap h))
      refine (ih.append_left _).trans ?_
      rw [← List.append_assoc, ← List.append_assoc]
      exact List.perm_append_comm.append_right _

end Fibres

/-! ## What was returned, and what is on its way -/

/-- The mail of `e` that the section returned with `E_OK`. -/
def Entry.received (e : Nat) (en : Entry) : Option Nat :=
  match en.op with
  | .inl (.accept _ e') | .inl (.pend _ e' _) | .inr (.wait _ e' _) =>
    if e' = e then en.okVal else none
  | _ => none

/-- The mail of `e` in the `pmail` of `t`, which a post has released and whose pend has not
    returned yet. -/
def Sys.underway (m : Sys) (e t : Nat) : List Nat :=
  match m.cont t with
  | .wait _ e' n => if e' = e ∧ m.k.eventID t = INVALID_ID ∧ (n = 0 ∨ m.k.pmail t ≠ 0)
      then [m.k.pmail t] else []
  | _ => []

/-- The mails in a mailbox or a queue. -/
def Kernel.stored (k : Kernel) (e : Nat) : List Nat :=
  match k.eventType e with
  | .mbox => if k.eventCounter e = 1 then [(k.eventPtr e).mailVal] else []
  | .queue => k.ring (qcbOf k e)
  | _ => []

/-- The move hands the mail `0` to a task that waits with a timeout. -/
def Move.lost (cont : Nat → Cont) (mv : Move) : Bool :=
  match mv.fate with
  | .handed t =>
    match cont t with
    | .wait _ e n => mv.mail = 0 && mv.id = e && n ≠ 0
    | _ => false
  | _ => false

/-- The call is `CoDelTask` or `CoExitTask`. -/
def Act.deletes : Act → Bool
  | .call (.delTask _) => true
  | .call .exitTask => true
  | _ => false

/-- No task is deleted, a call that goes on behind its tests finds things as it has tested them, and
    no post of the step hands the mail `0` to a task that waits with a timeout. -/
def NoZero (cfg : Env) (s : Split) (rs : List SQC) (a : Act) : Prop :=
  Split.Ok cfg (Fine cfg) s rs a ∧ (s.does a).deletes = false ∧ ∀ s' ∈ s.step cfg rs a,
    ∀ mv ∈ s'.m.k.moves.drop s.m.k.moves.length, mv.lost s'.m.cont = false

instance (cfg : Env) (s : Split) (rs : List SQC) (a : Act) : Decidable (NoZero cfg s rs a) :=
  inferInstanceAs (Decidable (_ ∧ _ ∧ ∀ s' ∈ _, _))

/-! ## One step -/

section Step

variable {cfg : Env} {a a' : Abs} {r : Nat}

/-- What every task got is what it was handed. -/
def Exact (a : Abs) : Prop := ∀ t e, a.got t e = a.handed t e

/-- A mail was lost after the first `n` moves. -/
def Slipped (n : Nat) (a : Abs) : Prop := ∃ mv ∈ a.d.aside.moves.drop n, mv.lost a.cont = true

theorem Shift.exact (h : Shift a a') (hal : ∀ t, a.alive t → a'.alive t) (hex : Exact a) {n : Nat}
    (hn : n ≤ a.d.aside.moves.length) : Exact a' ∨ Slipped n a' := by
  cases h with
  | same h =>
    refine Or.inl fun t e => ?_
    rw [(h t e).1, (h t e).2]
    exact hex t e
  | @handed t e x y ms hm hx ha hc hy h1 h2 h =>
    rcases hy with rfl | ⟨rfl, rfl, k, n', hw, hn'⟩
    · refine Or.inl fun t' e' => ?_
      by_cases hte : t' = t ∧ e' = e
      · rw [hte.1, hte.2, h1, h2, hex t e]
      · rw [(h t' e' hte).1, (h t' e' hte).2]
        exact hex t' e'
    · refine Or.inr ⟨_, ?_, show Move.lost a'.cont ⟨e, 0, .handed t⟩ = true from ?_⟩
      · rw [hm, List.drop_append_of_le_length hn]
        exact List.mem_append_right _ hx
      · unfold Move.lost
        dsimp only
        rw [hc, hw]
        simp [hn']
  | lost ha ha' => exact absurd (hal _ ha) ha'

theorem Turn.moves {act : Act} {a1 : Abs} (h : Turn cfg r a act a1) (ho : EventsOk a.d.aside) :
    ∃ ms, a1.d.aside.moves = a.d.aside.moves ++ ms := by
  have hsame : ∀ {l : List Move}, l = a.d.aside.moves → ∃ ms, l = a.d.aside.moves ++ ms := fun h =>
    ⟨[], h.trans (List.append_nil _).symm⟩
  cases h with
  | quiet hr hd ht hc he => exact hsame hd.like.moves
  | ask h0 hk hs => exact hsame rfl
  | @take c k e v l hc h0 hk hs =>
    exact ⟨_, congrArg (· ++ [Move.mk e v .taken]) (pop_rest a.d.aside e).moves⟩
  | @post k e v h0 hk hi hf =>
    obtain ⟨ms, h1, -⟩ := @postOk_moves a.d k e v ho hi hk.2 hf
    exact ⟨ms, h1⟩
  | create h0 ha he => exact hsame rfl
  | @delete c t en hc h0 he => exact hsame (congrArg EvtPart.moves (expire_evtPart a.d [t]))
  | @setPrio t p en h0 hp he => exact hsame (by dsimp only; rw [setPrio_aside])
  | wait h0 => exact hsame rfl
  | @back k e n h0 =>
    refine hsame ?_
    unfold Data.pendReturn
    dsimp only
    split
    · rfl
    · rfl
  | @tick T hT => exact hsame (congrArg EvtPart.moves (expire_evtPart a.d T))

theorem Turn.alive {act : Act} {a1 : Abs} (h : Turn cfg r a act a1)
    (hd : act.deletes = false) (t : Nat)
    (ht : a.alive t) : a1.alive t := by
  cases h with
  | create h0 ha he => exact Or.inr ht
  | @delete c t en hc h0 he =>
    cases c with
    | delTask t => exact nomatch hd
    | exitTask => exact nomatch hd
    | _ => exact nomatch hc
  | _ => exact ht

theorem At.moves {m : Sys} (h : At cfg m a r) : a.d.aside.moves = m.k.moves := by
  obtain ⟨g, F, b, q, -, rfl⟩ := h
  rfl

/-- A given step keeps what was got exact, or a mail is lost. -/
theorem exact_keeps (init : Aside) (m : Sys) (rs : List SQC) (act : Act) (hf : Fine cfg m rs act)
    (hdel : act.deletes = false) :
    Keeps cfg (fun m1 rs1 act1 => m1 = m ∧ rs1 = rs ∧ act1 = act) (Ledger init) fun a =>
      m.k.moves.length ≤ a.d.aside.moves.length ∧ (Exact a ∨ Slipped m.k.moves.length a) := by
  refine Keeps.turns (by rintro _ _ _ ⟨rfl, rfl, rfl⟩; exact hf) (fun _ h _ => h.flow.ok)
    (fun {a d} hl _ h => ?_) (fun {a k e} v hg hw hi hk hfl h => ?_)
    fun {m1 rs1 act1 a a1 r} hok hat hg h ht => ?_
  · obtain ⟨h1, h2⟩ := h
    refine ⟨by dsimp only; rw [hl.moves]; exact h1, ?_⟩
    rcases h2 with h2 | ⟨mv, h3, h4⟩
    · exact (Shift.like hl).exact (fun _ ht => ht) h2 h1
    · refine Or.inr ⟨mv, ?_, h4⟩
      dsimp only
      rw [hl.moves]
      exact h3
  · obtain ⟨ms, hms, -⟩ := @postOk_moves a.d k e v hg.flow.ok hi hk.2 hfl
    obtain ⟨h1, h2⟩ := h
    refine ⟨?_, ?_⟩
    · dsimp only
      rw [hms, List.length_append]
      exact Nat.le_add_right_of_le h1
    · rcases h2 with h2 | ⟨mv, h3, h4⟩
      · have hs : Shift a { a with d := a.d.postOk e (k.mail v) } :=
          Shift.post hg.waits hw hg.flow.ok hi hk.2 hfl rfl (fun _ _ => rfl)
            (fun _ _ _ _ => Iff.rfl)
            fun _ _ => rfl
        exact hs.exact (fun _ ht => ht) h2 h1
      · refine Or.inr ⟨mv, ?_, h4⟩
        dsimp only
        rw [hms, List.drop_append_of_le_length h1]
        exact List.mem_append_left _ h3
  · obtain ⟨rfl, rfl, rfl⟩ := hok
    obtain ⟨h1, h2⟩ := h
    obtain ⟨ms, hms⟩ := ht.moves hg.flow.ok
    refine ⟨?_, ?_⟩
    · rw [hms, List.length_append]
      exact Nat.le_add_right_of_le h1
    · rcases h2 with h2 | ⟨mv, h3, -⟩
      · exact (ht.shift hg.waits hat.wf hg.flow.ok hat.caller).exact (ht.alive hdel) h2 h1
      · rw [hat.moves, List.drop_length] at h3
        exact nomatch h3

/-- Mails are handed to tasks that exist. -/
def Bounded (cfg : Env) (a : Abs) : Prop :=
  (∀ t, a.alive t → t < cfg.tasks) ∧ ∀ t e, cfg.tasks ≤ t → a.handed t e = []

theorem Shift.bounded (h : Shift a a') (hb : Bounded cfg a)
    (hal : ∀ t, a'.alive t → t < cfg.tasks) :
    Bounded cfg a' := by
  refine ⟨hal, fun t e ht => ?_⟩
  cases h with
  | same h =>
    rw [(h t e).2]
    exact hb.2 t e ht
  | @handed t0 e0 x y ms hm hx ha hc hy h1 h2 h =>
    have hne : ¬ (t = t0 ∧ e = e0) := by
      rintro ⟨rfl, -⟩
      exact absurd (hb.1 t ha) (Nat.not_lt.mpr ht)
    rw [(h t e hne).2]
    exact hb.2 t e ht
  | @lost t0 _ _ h1 h2 h =>
    by_cases htt : t = t0
    · rw [htt, h2, ← htt]
      exact hb.2 t e ht
    · rw [(h t e htt).2]
      exact hb.2 t e ht

theorem bounded_keeps {ok : Sys → List SQC → Act → Prop} (init : Aside)
    (hfine : ∀ m rs act, ok m rs act → Fine cfg m rs act) :
    Keeps cfg ok (Ledger init) (Bounded cfg) := by
  refine Keeps.turns hfine (fun _ h _ => h.flow.ok) (fun hl _ h => (Shift.like hl).bounded h h.1)
    (fun {a k e} v hg hw hi hk hfl h => ?_) fun {m rs act a a1 r} _ hat hg h ht => ?_
  · have hs : Shift a { a with d := a.d.postOk e (k.mail v) } :=
      Shift.post hg.waits hw hg.flow.ok hi hk.2 hfl rfl (fun _ _ => rfl) (fun _ _ _ _ => Iff.rfl)
        fun _ _ => rfl
    exact hs.bounded h h.1
  · refine (ht.shift hg.waits hat.wf hg.flow.ok hat.caller).bounded h fun t hal => ?_
    cases ht with
    | create h0 ha he hi =>
      rcases hal with rfl | hal
      · exact hi
      · exact h.1 t hal
    | delete hc h0 he => exact h.1 t hal.2
    | _ => exact h.1 t hal

end Step

/-! ## Runs -/

section Runs

variable {cfg : Env} {i : Idle} {us : List Setup} {m0 : Sys} {s : Split}

/-- What every task got is still what it was handed, if no mail is lost. -/
theorem Inv.exact_step {init : Aside} {m m' : Sys} {g : Ghost} {r : Nat} {F : List Nat}
    {rs : List SQC}
    {act : Act} (hi : Inv cfg m g r F) (hl : Ledger init (m.abs cfg.served g))
    (hbd : Bounded cfg (m.abs cfg.served g)) (hex : Exact (m.abs cfg.served g))
    (hf : Fine cfg m rs act)
    (hdel : act.deletes = false)
    (hno : ∀ mv ∈ m'.k.moves.drop m.k.moves.length, mv.lost m'.cont = false)
    (hs : m.step cfg rs act = some m') : ∃ g r F, Inv cfg m' g r F ∧
      Ledger init (m'.abs cfg.served g) ∧ Bounded cfg (m'.abs cfg.served g) ∧
        Exact (m'.abs cfg.served g) := by
  have hfine : ∀ m1 rs1 act1, (m1 = m ∧ rs1 = rs ∧ act1 = act) → Fine cfg m1 rs1 act1 := by
    rintro _ _ _ ⟨rfl, rfl, rfl⟩
    exact hf
  have hk := ((ledger_keeps hfine init).and (bounded_keeps init hfine)).and
    ((exact_keeps init m rs act hf hdel).mono fun _ h => h.1)
  obtain ⟨g', r', F', hi', ⟨hl', hbd'⟩, -, hex'⟩ := hk.step hi
    ⟨⟨hl, hbd⟩, Nat.le_refl _, Or.inl hex⟩ ⟨rfl, rfl, rfl⟩ hf hs
  refine ⟨g', r', F', hi', hl', hbd', hex'.resolve_right ?_⟩
  rintro ⟨mv, h1, h2⟩
  rw [show Move.lost (m'.abs cfg.served g').cont mv = false from hno mv h1] at h2
  exact nomatch h2

theorem Split.Reach.exact (hu : ∀ u ∈ us, u.Valid) (hb : boot cfg i us = some m0)
    (h : Split.Reach cfg (NoZero cfg) m0 s) : ∃ g r F, Inv cfg s.m g r F ∧
      Ledger m0.k.aside (s.m.abs cfg.served g) ∧ Bounded cfg (s.m.abs cfg.served g) ∧
        Exact (s.m.abs cfg.served g) := by
  obtain ⟨g0, r0, hbt, -⟩ := booted hu hb
  induction h with
  | start =>
    obtain ⟨n, hf⟩ := hbt.fresh
    have hno : ∀ t e, (m0.abs cfg.served g0).handed t e = [] := by
      intro t e
      change mails e (.handed t) m0.k.moves = []
      rw [show m0.k.moves = [] from hf.moves]
      rfl
    refine ⟨g0, r0, [], hbt.inv, hbt.ledger, ⟨fun t ht => ht.1, fun t e _ => hno t e⟩,
      fun t e => ?_⟩
    unfold Abs.got
    rw [hno, inFlight_idle (congrFun hbt.cont t), show (m0.abs cfg.served g0).log = [] from hbt.log]
    rfl
  | @step s s' rs act hreach hok hs ih =>
    obtain ⟨g, r, F, hi, hl, hbd, hex⟩ := ih
    obtain ⟨⟨hkept, hf⟩, hdel, hno⟩ := hok
    have hno := hno s' hs
    have hm := Split.step_cases hreach.alone hi.ringOk hkept hs
    generalize s'.m = m' at hm hno
    cases hm with
    | tests hr => exact ⟨g, r, F, hi, hl, hbd, hex⟩
    | step h => exact hi.exact_step hl hbd hex hf hdel hno h
    | write hr hd hb hn => exact ⟨g, r, F, hi.withRdy _, hl.setRdy _, hbd, hex⟩
    | @written id _ hd hb hset h =>
      have hf : Fine cfg { s.m with k := s.m.k.withRdy (s.m.k.flagRdy &&& ~~~ flagBit id) } rs
        (.call (.setFlag id)) := trivial
      exact (hi.withRdy (s.m.k.flagRdy &&& ~~~ flagBit id)).exact_step
        (hl.setRdy (s.m.k.flagRdy &&& ~~~ flagBit id)) hbd hex hf rfl hno h

/-- The mails that were handed to some task. -/
def handedOver (e : Nat) (ms : List Move) : List Nat := ms.filterMap fun mv =>
  match mv.fate with
  | .handed _ => if mv.id = e then some mv.mail else none
  | _ => none

theorem removed_perm (e : Nat) (ms : List Move) :
    (removed e ms).Perm (mails e .taken ms ++ handedOver e ms) := by
  refine perm_split ms fun mv _ => ?_
  obtain ⟨id, v, f⟩ := mv
  cases f <;> simp

theorem handedOver_perm {n e : Nat} {ms : List Move}
    (h : ∀ t, n ≤ t → mails e (.handed t) ms = []) :
    (handedOver e ms).Perm ((List.range n).flatMap fun t => mails e (.handed t) ms) := by
  have hp := @perm_fibres Move Nat n (fun mv => match mv.fate with
    | .handed t => t
    | _ => 0) (fun mv => match mv.fate with
    | .handed _ => if mv.id = e then some mv.mail else none
    | _ => none) ms fun mv hmv hne => ?_
  · refine hp.trans
      (List.Perm.of_eq (congrArg (List.flatMap · (List.range n)) (funext fun t => ?_)))
    refine List.filterMap_congr fun mv _ => ?_
    obtain ⟨id, v, f⟩ := mv
    cases f with
    | handed u =>
      by_cases hu : u = t
      · simp [hu]
      · simp [hu]
    | posted => simp
    | taken => simp
  · obtain ⟨id, v, f⟩ := mv
    cases f with
    | handed t =>
      by_contra hlt
      have h0 := h t (Nat.not_lt.mp hlt)
      have hid : id = e := by
        by_contra hid
        exact hne (if_neg hid)
      have := List.filterMap_eq_nil_iff.mp h0 _ hmv
      rw [if_pos ⟨hid, rfl⟩] at this
      exact nomatch this
    | posted => exact absurd rfl hne
    | taken => exact absurd rfl hne

/-- The mails with which some task came back from waiting. -/
def Entry.gotBack (e : Nat) (en : Entry) : Option Nat :=
  match en.op with
  | .inr (.wait _ e' _) => if e' = e then en.okVal else none
  | _ => none

theorem received_perm {e : Nat} {ty : Nat → EventType} (hty : ty e ≠ .sem) {log : List Entry}
    (h : ∀ en ∈ log, en.Typed ty) : (log.filterMap (Entry.received e)).Perm
      (log.filterMap (Entry.took e) ++ log.filterMap (Entry.gotBack e)) := by
  refine perm_split log fun en hen => ?_
  have ht := h en hen
  have hmail : ∀ {k : EventType} {e' : Nat}, (en.okVal ≠ none → ty e' = k) →
      (if e' = e then en.okVal else none) = if e' = e then en.okVal.map k.mail else none := by
    intro k e' hk
    by_cases he : e' = e
    · rw [if_pos he, if_pos he]
      cases ho : en.okVal with
      | none => rfl
      | some v =>
        have hk := hk (by rw [ho]; exact Option.some_ne_none v)
        rw [he] at hk
        rw [hk] at hty
        cases k with
        | sem => exact absurd rfl hty
        | _ => rfl
    · rw [if_neg he, if_neg he]
  unfold Entry.Typed at ht
  unfold Entry.received Entry.took Entry.gotBack
  split
  · next h1 =>
    rw [h1] at ht ⊢
    exact Or.inl ⟨hmail ht, rfl⟩
  · next h1 =>
    rw [h1] at ht ⊢
    exact Or.inl ⟨hmail ht, rfl⟩
  · next h1 =>
    rw [h1]
    exact Or.inr ⟨rfl, rfl⟩
  · next h1 h2 h3 =>
    refine Or.inl ⟨?_, ?_⟩
    · split
      · next h4 => exact (h1 _ _ h4).elim
      · next h4 => exact (h2 _ _ _ h4).elim
      · rfl
    · split
      · next h4 => exact (h3 _ _ _ h4).elim
      · rfl

theorem gotBack_perm {n e : Nat} {log : List Entry}
    (h : ∀ t, n ≤ t → log.filterMap (Entry.got t e) = []) :
    (log.filterMap (Entry.gotBack e)).Perm
      ((List.range n).flatMap fun t => log.filterMap (Entry.got t e)) := by
  have hgot : ∀ (en : Entry) (t : Nat),
    en.got t e = if en.task = t then en.gotBack e else none := by
    intro en t
    obtain ⟨u, op, ret⟩ := en
    unfold Entry.got Entry.gotBack
    dsimp only
    split
    · rw [ite_and]
    · next hno =>
      split
      · rcases op with c | c
        · rfl
        · cases c with
          | wait k e' timeout => exact (hno _ _ _ rfl).elim
          | _ => rfl
      · rfl
  have hp := @perm_fibres Entry Nat n Entry.task (Entry.gotBack e) log fun en hen hne => ?_
  · refine hp.trans
      (List.Perm.of_eq (congrArg (List.flatMap · (List.range n)) (funext fun t => ?_)))
    exact List.filterMap_congr fun en _ => (hgot en t).symm
  · by_contra hlt
    have := List.filterMap_eq_nil_iff.mp (h en.task (Nat.not_lt.mp hlt)) en hen
    rw [hgot, if_pos rfl] at this
    exact hne this

/-- Mailboxes and queues are empty at the start. -/
theorem Fresh.stored_nil {a : Aside} {n e : Nat} (h : Fresh cfg a n)
    (he : a.eventType e = .mbox ∨ a.eventType e = .queue) : a.stored e = [] := by
  have hm : Made a e := by
    refine h.made e ?_
    by_contra hn
    rw [h.raw e (Nat.le_of_not_lt hn)] at he
    rcases he with he | he
    · exact nomatch he
    · exact nomatch he
  unfold Made at hm
  rcases he with he | he
  · rw [he] at hm
    rw [stored_mbox he, hm.1]
    rfl
  · rw [he] at hm
    obtain ⟨q, h1, -, -, -, h4, -⟩ := hm
    rw [stored_queue he]
    unfold Aside.qcb
    rw [h1]
    dsimp only
    rw [h4]
    rfl

theorem stored_kernel {k : Kernel} {e : Nat} (he : k.eventType e = .mbox ∨ k.eventType e = .queue) :
    k.aside.stored e = k.stored e := by
  unfold Kernel.stored
  rcases he with he | he
  · rw [stored_mbox he, he]
    rfl
  · rw [stored_queue he, he]
    rfl

/-- The mail on its way, as the kernel has it. -/
theorem Inv.underway {g : Ghost} {r : Nat} {F : List Nat} (hi : Inv cfg m g r F)
    (hw : Waits (m.abs cfg.served g)) (t e : Nat) : (m.abs cfg.served g).inFlight t e =
    m.underway e t := by
  unfold Abs.inFlight Sys.underway
  by_cases hl : Live cfg.served g t
  · have hev : m.k.eventID t = INVALID_ID ↔ g.evt.loc t = none := by
      rw [(hi.stable.coh.task t hl).ev]
      cases hloc : g.evt.loc t with
      | none => exact iff_of_true rfl rfl
      | some e' =>
        have h1 : e' < cfg.maxEvent := (hi.stable.coh.rep.evLt t e' hloc).2
        have h2 := cfg.maxEvent_le
        refine iff_of_false (fun h => ?_) nofun
        change e' = 255 at h
        omega
    change (match m.cont t with
      | .wait _ e' n => if e' = e ∧ g.evt.loc t = none ∧ (n = 0 ∨ m.k.pmail t ≠ 0)
        then [m.k.pmail t] else []
      | _ => []) = _
    split
    · simp only [hev]
    · rfl
  · rw [(hw.dead t hl).1, show m.cont t = .none from (hw.dead t hl).1]

/-- **Every mail is delivered once**: what posts to a mailbox or queue were told `E_OK` for, those
    of tasks and those that `RespondSRQ` made, is what calls have returned, what is on its way to a
    released task, and what is stored. -/
theorem mail_delivered (hu : ∀ u ∈ us, u.Valid) (hb : boot cfg i us = some m0)
    (h : Split.Reach cfg (NoZero cfg) m0 s) (e : Nat)
    (he : s.m.k.eventType e = .mbox ∨ s.m.k.eventType e = .queue) :
    (s.m.log.filterMap (Entry.sent e) ++ drained e s.m.k.answers).Perm
      (s.m.log.filterMap (Entry.received e) ++
        ((List.range cfg.tasks).flatMap (s.m.underway e) ++ s.m.k.stored e)) := by
  obtain ⟨g0, r0, hbt, -⟩ := booted hu hb
  obtain ⟨n0, hfr⟩ := hbt.fresh
  obtain ⟨g, r, F, hi, hl, hbd, hex⟩ := h.exact hu hb
  have hty : ∀ ty, s.m.k.eventType e = ty ↔ m0.k.aside.eventType e = ty := fun ty => by
    rw [← show s.m.k.eventType e = m0.k.aside.eventType e from congrFun hl.kinds.type e]
  have hinit : m0.k.aside.stored e = [] := hfr.stored_nil (he.imp (hty _).mp (hty _).mp)
  have hsem : m0.k.aside.eventType e ≠ .sem := by
    intro hs
    rw [(hty _).mpr hs] at he
    rcases he with he | he
    · exact nomatch he
    · exact nomatch he
  -- first in, first out
  have hord := Fifo.replay_conserves _ (hl.flow.replay e)
  rw [puts_eq, gets_eq, hinit, List.nil_append,
    show (s.m.abs cfg.served g).d.aside.stored e = s.m.k.stored e from stored_kernel he] at hord
  have hhand := handedOver_perm fun t ht => hbd.2 t e ht
  have hback : ∀ t, cfg.tasks ≤ t → s.m.log.filterMap (Entry.got t e) = [] := by
    intro t ht
    have := hl.served.got t e
    rw [hbd.2 t e ht] at this
    exact (List.append_eq_nil_iff.mp (List.sublist_nil.mp this)).1
  -- what was handed over has come back or is on its way
  have hsplit : ((List.range cfg.tasks).flatMap fun t => (s.m.abs cfg.served g).handed t e).Perm
      (s.m.log.filterMap (Entry.gotBack e) ++ (List.range cfg.tasks).flatMap (s.m.underway e)) := by
    have heq : (fun t => (s.m.abs cfg.served g).handed t e) =
        fun t => s.m.log.filterMap (Entry.got t e) ++ s.m.underway e t := by
      funext t
      rw [← hex t e]
      unfold Abs.got
      rw [hi.underway hl.waits]
      rfl
    rw [heq]
    exact (List.flatMap_append_perm ..).symm.trans ((gotBack_perm hback).symm.append_right _)
  have hrec := received_perm hsem hl.typed
  rw [hl.served.took e] at hrec
  refine (hl.served.sent e).perm.symm.trans ?_
  rw [show mails e .posted (s.m.abs cfg.served g).d.aside.moves = _ from hord, ← List.append_assoc]
  refine List.Perm.append_right _ ((removed_perm e _).trans ?_)
  refine ((hhand.trans hsplit).append_left _).trans ?_
  rw [← List.append_assoc]
  exact hrec.symm.append_right _

theorem mail_delivered_shipped : ∃ m0 s, boot shippedEnv shippedIdle
      [.plainTask 5, .plainTask 10, .mbox sortFifo] = some m0 ∧
    Split.Reach shippedEnv (NoZero shippedEnv) m0 s ∧
    s.m.log.filterMap (Entry.sent 0) = [7, 0, 0] ∧ drained 0 s.m.k.answers = [9] ∧
    s.m.log.filterMap (Entry.received 0) = [7, 0] ∧
    (s.m.log.filterMap (Entry.sent 0) ++ drained 0 s.m.k.answers).Perm
      (s.m.log.filterMap (Entry.received 0) ++
        ((List.range shippedEnv.tasks).flatMap (s.m.underway 0) ++ s.m.k.stored 0)) := by
  obtain ⟨m0, s, h1, h2, h3⟩ := @Split.ran shippedEnv (NoZero shippedEnv) _ shippedIdle
    [.plainTask 5, .plainTask 10, .mbox sortFifo]
    [([], .call (.pend .mbox 0 3)), ([], .resume), ([], .call (.post .mbox 0 7)), ([], .resume),
      ([], .resume), ([], .call (.post .mbox 0 0)), ([], .resume), ([], .call (.accept .mbox 0)),
        ([], .call (.pend .mbox 0 0)),
      ([], .resume), ([], .call (.suspendTask 1)), ([], .call (.post .mbox 0 0)), ([], .resume),
      ([⟨.MBOX_REQ, 0, 9⟩], .tick)] _
    (fun s => (s.m.log.filterMap (Entry.sent 0), drained 0 s.m.k.answers,
      s.m.log.filterMap (Entry.received 0), s.m.k.eventType 0))
    ([7, 0, 0], [9], [7, 0], .mbox) (by decide +kernel)
  exact ⟨m0, s, h1, h2, congrArg (·.1) h3, congrArg (·.2.1) h3, congrArg (·.2.2.1) h3,
    mail_delivered (by decide) h1 h2 0 (Or.inl (congrArg (·.2.2.2) h3))⟩

/-- Task 2 has passed the test of `CoPostMail`; task 1, which the tick wakes, posts 8; then task 2
    posts 7, and 8 is nowhere. -/
example : ((boot shippedEnv shippedIdle [.plainTask 5, .mbox sortFifo, .plainTask 10]).bind fun m =>
      Split.runs shippedEnv (fun s rs a => Fine shippedEnv s.m rs (s.does a)) ⟨m, fun _ => none⟩
        [([], .call (.tickDelay 1)), ([], .call (.post .mbox 0 7)), ([], .tick),
          ([], .call (.post .mbox 0 8)),
          ([], .resume), ([], .call (.tickDelay 1)), ([], .resume)]).map
      (fun s => (s.m.log.filterMap (Entry.sent 0), s.m.k.stored 0)) = some ([8, 7], [7]) := by
  decide +kernel

/-- The mail `0` for a task that waits with a timeout: the post succeeds, the pend reports a
    timeout, and the mail is nowhere. -/
theorem mail_zero_lost : ∃ m0 m, boot shippedEnv shippedIdle
      [.plainTask 5, .plainTask 10, .mbox sortFifo] = some m0 ∧ Reach shippedEnv EventStep m0 m ∧
    m.log = [⟨1, .inl (.pend .mbox 0 3), none⟩, ⟨1, .inr (.block .mbox 0 3), none⟩,
      ⟨2, .inl (.post .mbox 0 0), some (0, .E_OK)⟩,
      ⟨1, .inr (.wait .mbox 0 3), some (0, .E_TIMEOUT)⟩] ∧
    m.k.eventType 0 = .mbox ∧ m.k.stored 0 = [] ∧
    (List.range shippedEnv.tasks).flatMap (m.underway 0) = [] := by
  obtain ⟨m0, m, h1, h2, h3⟩ := @ran shippedEnv EventStep _ shippedIdle
    [.plainTask 5, .plainTask 10, .mbox sortFifo]
    [([], .call (.pend .mbox 0 3)), ([], .resume), ([], .call (.post .mbox 0 0)), ([], .resume)] _
    (fun m => (m.log, m.k.eventType 0, m.k.stored 0,
      (List.range shippedEnv.tasks).flatMap (m.underway 0)))
    ([⟨1, .inl (.pend .mbox 0 3), none⟩, ⟨1, .inr (.block .mbox 0 3), none⟩,
      ⟨2, .inl (.post .mbox 0 0), some (0, .E_OK)⟩,
      ⟨1, .inr (.wait .mbox 0 3), some (0, .E_TIMEOUT)⟩], .mbox, [], []) (by decide +kernel)
  exact ⟨m0, m, h1, h2, congrArg (·.1) h3, congrArg (·.2.1) h3, congrArg (·.2.2.1) h3,
    congrArg (·.2.2.2) h3⟩

end Runs

end CoOS
