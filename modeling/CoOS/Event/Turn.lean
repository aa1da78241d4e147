/-
  What a step can do to the events, in one list of cases.

  `Mid` says what each call does; `Turn` forgets which call it was where this does not matter
  to semaphores, mailboxes and queues. `Mid.turn` is the only place where the calls are gone
  through; every invariant of the events is then proved by the cases of `Turn`, and
  `Keeps.turns` makes it an invariant of runs.
-/
import CoOS.Event.Buffer

namespace CoOS

open Function (update)

/-! ## Steps that do nothing to the events -/

/-- The events, their waiting lists and the mails on their way are the same. -/
structure Like (d d' : Data) : Prop where
  same : ∀ e, SameEvent d.aside d'.aside e
  sort : d'.aside.eventSortType = d.aside.eventSortType
  prio : d'.aside.prio = d.aside.prio
  pmail : d'.aside.pmail = d.aside.pmail
  moves : d'.aside.moves = d.aside.moves
  evt : d'.evt = d.evt

theorem Quiet.like {d d' : Data} (h : Quiet d d') : Like d d' :=
  ⟨sameEvent_of_part h.part, congrArg EvtPart.eventSortType h.part, congrArg EvtPart.prio h.part,
    congrArg EvtPart.pmail h.part, congrArg EvtPart.moves h.part, h.evt⟩

theorem Like.trans {d d' d'' : Data} (h : Like d d') (h' : Like d' d'') : Like d d'' :=
  ⟨fun e => (h.same e).trans (h'.same e), h'.sort.trans h.sort, h'.prio.trans h.prio,
    h'.pmail.trans h.pmail, h'.moves.trans h.moves, h'.evt.trans h.evt⟩

theorem like_setRing (d : Data) (b : Bool) (q : SRQ) : Like d (d.setRing b q) :=
  ⟨fun _ => ⟨rfl, rfl, rfl, rfl, fun _ => ⟨rfl, rfl, rfl, rfl, rfl⟩⟩, rfl, rfl, rfl, rfl, rfl⟩

theorem Like.stored {d d' : Data} (h : Like d d') : d'.aside.stored = d.aside.stored :=
  funext fun e => (h.same e).stored

theorem Like.capacity {d d' : Data} (h : Like d d') : d'.aside.capacity = d.aside.capacity :=
  funext fun e => (h.same e).capacity

theorem Like.ok {d d' : Data} (h : Like d d') (ho : EventsOk d.aside) : EventsOk d'.aside :=
  (ho.congr h.same).1

/-- The value that came with `E_OK`. -/
def Entry.okVal (en : Entry) : Option Nat :=
  match en.ret with
  | some (v, .E_OK) => some v
  | _ => none

theorem okVal_failed {r v : Nat} {op : Call ⊕ Cont} {st : StatusType} (h : st ≠ .E_OK) :
    Entry.okVal ⟨r, op, some (v, st)⟩ = none := by
  unfold Entry.okVal
  split
  · next h2 => exact absurd (congrArg Prod.snd (Option.some.inj h2)) h
  · rfl

/-- The section is no call of an event that succeeds. -/
def Entry.silent (en : Entry) : Prop :=
  match en.op with
  | .inl (.accept _ _) | .inl (.pend _ _ _) | .inl (.post _ _ _) => en.okVal = none
  | .inr (.wait _ _ _) => False
  | _ => True

/-! ## The cases -/

inductive Turn (cfg : Env) (r : Nat) (a : Abs) : Act → Abs → Prop
  | quiet {act : Act} {d : Data} {c : Cont} {en : Entry} (hr : (a.cont r).quiet) (hd : Quiet a.d d)
      (ht : ∀ u, d.timed u → u = r ∨ a.d.timed u) (hc : c.quiet) (he : en.silent) :
      Turn cfg r a act ⟨d, a.alive, update a.cont r c, a.log ++ [en]⟩
  /-- A pend that finds nothing. -/
  | ask {k : EventType} {e n : Nat} (h0 : a.cont r = .none) (hk : a.d.aside.isKind cfg k e)
      (hs : a.d.aside.stored e = []) :
      Turn cfg r a (.call (.pend k e n)) ⟨a.d, a.alive, update a.cont r (.block k e n),
        a.log ++ [⟨r, .inl (.pend k e n), none⟩]⟩
  /-- An accept or a pend that finds a mail. -/
  | take {c : Call} {k : EventType} {e v : Nat} {l : List Nat}
      (hc : c = .accept k e ∨ ∃ n, c = .pend k e n) (h0 : a.cont r = .none)
      (hk : a.d.aside.isKind cfg k e) (hs : a.d.aside.stored e = v :: l) :
      Turn cfg r a (.call c) ⟨{ a.d with aside := (a.d.aside.pop e).note e v .taken }, a.alive,
        update a.cont r .none, a.log ++ [⟨r, .inl c, some (if k = .sem then 0 else v, .E_OK)⟩]⟩
  | post {k : EventType} {e v : Nat} (h0 : a.cont r = .none) (hk : a.d.aside.isKind cfg k e)
      (hi : k ≠ .invalid) (hf : a.d.aside.full e = false) :
      Turn cfg r a (.call (.post k e v)) ⟨a.d.postOk e (k.mail v), a.alive, update a.cont r .none,
        a.log ++ [⟨r, .inl (.post k e v), some (0, .E_OK)⟩]⟩
  | create {act : Act} {i p : Nat} {w : Bool} {en : Entry} (h0 : a.cont r = .none)
      (ha : ¬ a.alive i)
      (he : en.silent) (hi : i < cfg.tasks) :
      Turn cfg r a act ⟨a.d.create i p w, fun u => u = i ∨ a.alive u, update a.cont r .none,
        a.log ++ [en]⟩
  | delete {c : Call} {t : Nat} {en : Entry} (hc : c.ends r = some t) (h0 : a.cont r = .none)
      (he : en.silent) :
      Turn cfg r a (.call c) ⟨a.d.delete t, fun u => u ≠ t ∧ a.alive u,
        update (update a.cont r .none) t .none, a.log ++ [en]⟩
  | setPrio {t p : Nat} {en : Entry} (h0 : a.cont r = .none) (hp : a.d.aside.prio t ≠ p)
      (he : en.silent) :
      Turn cfg r a (.call (.setPriority t p)) ⟨a.d.setPrio t p, a.alive, update a.cont r .none,
        a.log ++ [en]⟩
  /-- The second section of a pend. -/
  | wait {k : EventType} {e n : Nat} (h0 : a.cont r = .block k e n) :
      Turn cfg r a .resume ⟨a.d.wait e r n, a.alive, update a.cont r (.wait k e n),
        a.log ++ [⟨r, .inr (.block k e n), none⟩]⟩
  /-- A pend returns to a caller that has waited. -/
  | back {k : EventType} {e n : Nat} (h0 : a.cont r = .wait k e n) :
      Turn cfg r a .resume ⟨(a.d.pendReturn r n).1, a.alive, update a.cont r .none,
        a.log ++ [⟨r, .inr (.wait k e n), some (a.d.pendReturn r n).2⟩]⟩
  | tick {T : List Nat} (hT : ∀ t ∈ T, a.d.timed t) :
      Turn cfg r a .tick { a with d := a.d.expire T }

section Calls

variable {cfg : Env} {a : Abs} {r : Nat} {x : Out}

theorem setFlag_timed {d : Data} {id u : Nat} (hu : (d.setFlag cfg id).1.timed u) : d.timed u := by
  unfold Data.setFlag at hu
  split at hu
  · exact hu
  · split at hu
    · exact hu
    · exact hu.2

/-- Only the caller of a quiet call starts to wait for the time. -/
theorem Call.Does.timed {c : Call} (hx : c.Does cfg a r x) (hq : c.quiet = true) {u : Nat}
    (hu : x.d.timed u) : u = r ∨ a.d.timed u := by
  cases c with
  | suspendTask t =>
    obtain ⟨st, rfl | rfl⟩ := hx
    · exact Or.inr hu
    · exact Or.inr hu
  | awakeTask t =>
    obtain ⟨st, rfl | ⟨rfl, -⟩⟩ := hx
    · exact Or.inr hu
    · exact Or.inr hu
  | tickDelay n =>
    obtain ⟨st, rfl | rfl⟩ := hx
    · exact Or.inr hu
    · exact hu
  | resetDelay t n =>
    obtain ⟨st, rfl | ⟨rfl, -⟩⟩ := hx
    · exact Or.inr hu
    · exact Or.inr hu.2
  | createFlag auto init =>
    obtain rfl := hx
    change (a.d.createFlag auto init).1.timed u at hu
    unfold Data.createFlag at hu
    split at hu
    · exact Or.inr hu
    · exact Or.inr hu
  | delFlag id opt =>
    obtain rfl := hx
    change (a.d.delFlag cfg id opt).1.timed u at hu
    unfold Data.delFlag at hu
    refine Or.inr ?_
    split at hu
    · exact hu
    · split at hu
      · split at hu
        · exact hu
        · exact hu
      · split at hu
        · exact hu.2
        · exact hu
  | setFlag id =>
    obtain rfl := hx
    exact Or.inr (setFlag_timed hu)
  | clearFlag id =>
    obtain rfl := hx
    change (a.d.clearFlag id).1.timed u at hu
    unfold Data.clearFlag at hu
    split at hu
    · exact Or.inr hu
    · exact Or.inr hu
  | acceptFlag id =>
    obtain rfl := hx
    change (a.d.acceptFlag id).1.timed u at hu
    unfold Data.acceptFlag at hu
    refine Or.inr ?_
    split at hu
    · exact hu
    · split at hu
      · exact hu
      · exact hu
  | acceptFlags flags ty =>
    obtain rfl := hx
    change (a.d.acceptFlags flags ty).1.timed u at hu
    unfold Data.acceptFlags at hu
    refine Or.inr ?_
    split at hu
    · exact hu
    · split at hu
      · exact hu
      · exact hu
  | waitFlag id n =>
    have hw : (a.d.waitFlag r id n).1.timed u → u = r ∨ a.d.timed u := by
      unfold Data.waitFlag
      split
      · exact Or.inr
      · split
        · exact Or.inr
        · exact Or.imp_left And.left
    obtain rfl := hx
    split at hu
    · next e => exact hw (by rw [e]; exact hu)
    · next e => exact hw (by rw [e]; exact hu)
  | waitFlags flags ty n =>
    have hw : (a.d.waitFlags r flags ty n).1.timed u → u = r ∨ a.d.timed u := by
      unfold Data.waitFlags
      split
      · exact Or.inr
      · split
        · exact Or.inr
        · exact Or.imp_left And.left
    obtain rfl := hx
    split at hu
    · next e => exact hw (by rw [e]; exact hu)
    · next e => exact hw (by rw [e]; exact hu)
  | _ => exact nomatch hq

theorem fullStatus_ne {k : EventType} : k.fullStatus ≠ .E_OK := by
  cases k with
  | sem => decide
  | mbox => decide
  | queue => decide
  | invalid => decide

theorem emptyStatus_ne {k : EventType} : k.emptyStatus ≠ .E_OK := by
  cases k with
  | sem => decide
  | mbox => decide
  | queue => decide
  | invalid => decide

/-- A call that does nothing to the events. -/
theorem turn_failed {c : Call} {ret : Ret} (h0 : a.cont r = .none)
    (he : Entry.silent ⟨r, .inl c, some ret⟩) :
    Turn cfg r a (.call c) ⟨a.d, a.alive, update a.cont r .none,
      a.log ++ [⟨r, .inl c, some ret⟩]⟩ := by
  refine .quiet ?_ (Quiet.refl _) (fun u hu => Or.inr hu) trivial he
  rw [h0]
  trivial

theorem turn_delete {c : Call} {t : Nat} (hx : a.Deletes t x) (h0 : a.cont r = .none)
    (hc : c.ends r = some t) (he : ∀ ret, Entry.silent ⟨r, .inl c, ret⟩) :
    Turn cfg r a (.call c) (a.after r (.inl c) (c.ends r) x) := by
  obtain ⟨st, hst, rfl⟩ | rfl := hx
  · unfold Abs.after
    rw [hc, show (a.now a.d (0, st)).ret = some (0, st) from rfl, forget_failed hst]
    exact turn_failed h0 (he _)
  · unfold Abs.after
    rw [hc]
    exact .delete hc h0 (he _)

/-- The calls of events. -/
theorem turn_accept {k : EventType} {e : Nat} (ho : EventsOk a.d.aside) (h0 : a.cont r = .none) :
    Turn cfg r a (.call (.accept k e)) ⟨(a.d.accept cfg k e).1, a.alive, update a.cont r .none,
      a.log ++ [⟨r, .inl (.accept k e), some (a.d.accept cfg k e).2⟩]⟩ := by
  unfold Data.accept
  split
  · exact turn_failed h0 rfl
  · next hk =>
    split
    · next ha =>
      obtain ⟨v, l, hs⟩ := List.exists_cons_of_ne_nil (avail_iff.mp ha)
      rw [take_eq ho hs, (not_not.mp hk).2]
      exact .take (Or.inl rfl) h0 (not_not.mp hk) hs
    · exact turn_failed h0 (okVal_failed emptyStatus_ne)

theorem turn_pend {k : EventType} {e n : Nat} (ho : EventsOk a.d.aside) (h0 : a.cont r = .none)
    (hx : (Call.pend k e n).Does cfg a r x) :
    Turn cfg r a (.call (.pend k e n)) (a.after r (.inl (.pend k e n)) none x) := by
  obtain rfl := hx
  unfold Data.pend
  split
  · next d ret he =>
    split at he
    · cases he
      exact turn_failed h0 rfl
    · next hk =>
      split at he
      · next ha =>
        obtain ⟨v, l, hs⟩ := List.exists_cons_of_ne_nil (avail_iff.mp ha)
        rw [take_eq ho hs, (not_not.mp hk).2] at he
        cases he
        exact .take (Or.inr ⟨n, rfl⟩) h0 (not_not.mp hk) hs
      · exact nomatch he
  · next d he =>
    split at he
    · exact nomatch he
    · next hk =>
      split at he
      · exact nomatch he
      · next ha =>
        cases he
        exact .ask h0 (not_not.mp hk) (not_not.mp (mt avail_iff.mpr ha))

theorem turn_post {k : EventType} {e v : Nat} (hi : k ≠ .invalid) (h0 : a.cont r = .none) :
    Turn cfg r a (.call (.post k e v)) ⟨(a.d.post cfg k e (k.mail v)).1, a.alive,
      update a.cont r .none,
      a.log ++ [⟨r, .inl (.post k e v), some (0, (a.d.post cfg k e (k.mail v)).2)⟩]⟩ := by
  unfold Data.post
  split
  · exact turn_failed h0 rfl
  · next hk =>
    split
    · exact turn_failed h0 (okVal_failed fullStatus_ne)
    · next hf => exact .post h0 (not_not.mp hk) hi (Bool.eq_false_iff.mpr hf)

theorem silent_of_quiet {c : Call} {ret : Option Ret} (hq : c.quiet = true) :
    Entry.silent ⟨r, .inl c, ret⟩ := by
  cases c with
  | accept k e => exact nomatch hq
  | pend k e n => exact nomatch hq
  | post k e v => exact nomatch hq
  | _ => trivial

theorem ends_of_quiet {c : Call} (hq : c.quiet = true) : c.ends r = none := by
  cases c with
  | delTask t => exact nomatch hq
  | exitTask => exact nomatch hq
  | _ => rfl

/-- **Every effect of a step is one of the cases** -/
theorem Mid.turn {act : Act} {a1 : Abs} (hm : Mid cfg r a act a1) (ho : EventsOk a.d.aside)
    {cfg' : Env} {m : Sys} {rs : List SQC} (hf : Fine cfg' m rs act) : Turn cfg r a act a1 := by
  cases hm with
  | @call c x hr h0 hx =>
    by_cases hq : c.quiet = true
    · obtain ⟨h1, h2, h3⟩ := hx.quiet hq
      unfold Abs.after
      rw [h2, ends_of_quiet hq]
      refine .quiet ?_ h1 (fun u hu => hx.timed hq hu) h3 (silent_of_quiet hq)
      rw [h0]
      trivial
    · cases c with
      | createTask task stk parameter =>
        obtain rfl | ⟨i, p, w, hi, ha, rfl⟩ := hx
        · exact turn_failed h0 trivial
        · exact .create h0 ha trivial hi
      | delTask t => exact turn_delete hx h0 rfl fun _ => trivial
      | exitTask => exact turn_delete hx h0 rfl fun _ => trivial
      | setPriority t p =>
        obtain ⟨st, ⟨rfl, -⟩ | ⟨rfl, -, -, hp⟩⟩ := hx
        · exact turn_failed h0 trivial
        · exact .setPrio h0 hp trivial
      | accept k e =>
        obtain rfl := hx
        exact turn_accept ho h0
      | pend k e n => exact turn_pend ho h0 hx
      | post k e v =>
        obtain rfl := hx
        exact turn_post hf h0
      | enterMutex i => exact hx.elim
      | leaveMutex i => exact hx.elim
      | _ => exact absurd rfl hq
  | @resume x h0 hx =>
    cases hc : a.cont r with
    | none => exact absurd hc h0
    | block k e n =>
      rw [hc] at hx
      obtain rfl := hx
      exact .wait hc
    | wait k e n =>
      rw [hc] at hx
      obtain rfl := hx
      exact .back hc
    | waitFlag id n =>
      rw [hc] at hx
      obtain rfl := hx
      refine .quiet (by rw [hc]; trivial) (waitFlagReturn_quiet ..)
        (fun u hu => Or.inr ?_) trivial trivial
      change (a.d.waitFlagReturn r id n).1.timed u at hu
      unfold Data.waitFlagReturn at hu
      split at hu
      · exact hu
      · exact hu
    | waitFlags flags ty n =>
      rw [hc] at hx
      obtain rfl := hx
      refine .quiet (by rw [hc]; trivial) (waitFlagsReturn_quiet ..)
        (fun u hu => Or.inr ?_) trivial trivial
      change (a.d.waitFlagsReturn r flags n).1.timed u at hu
      unfold Data.waitFlagsReturn at hu
      split at hu
      · exact hu
      · exact hu
    | enterMutex i =>
      rw [hc] at hx
      exact hx.elim
  | tick hT => exact .tick hT

end Calls

/-! ## Deferred requests -/

/-- The kind of event that a request posts to. -/
def SQC.kind (c : SQC) : EventType :=
  match c.type with
  | .SEM_REQ => .sem
  | .MBOX_REQ => .mbox
  | .QUEUE_REQ => .queue
  | .FLAG_REQ => .invalid

/-- The mail of a request. -/
def SQC.mail (c : SQC) : Nat := c.kind.mail c.arg

/-- The mail that a request has posted to `e`, when its call was answered with `st`. -/
def SQC.sent (e : Nat) (c : SQC) (st : StatusType) : Option Nat :=
  if c.type ≠ .FLAG_REQ ∧ c.id = e ∧ st = .E_OK then some c.mail else none

theorem kind_ne {c : SQC} (hc : c.type ≠ .FLAG_REQ) : c.kind ≠ .invalid := by
  unfold SQC.kind
  cases ht : c.type with
  | SEM_REQ => decide
  | MBOX_REQ => decide
  | QUEUE_REQ => decide
  | FLAG_REQ => exact absurd ht hc

theorem request_post {cfg : Env} {d : Data} {c : SQC} (hc : c.type ≠ .FLAG_REQ) :
    d.request cfg c = d.post cfg c.kind c.id c.mail := by
  unfold Data.request SQC.mail SQC.kind
  cases ht : c.type with
  | SEM_REQ => rfl
  | MBOX_REQ => rfl
  | QUEUE_REQ => rfl
  | FLAG_REQ => exact absurd ht hc

theorem like_answer (d : Data) (c : SQC) (st : StatusType) : Like d (d.answer c st) :=
  ⟨fun _ => ⟨rfl, rfl, rfl, rfl, fun _ => ⟨rfl, rfl, rfl, rfl, rfl⟩⟩, rfl, rfl, rfl, rfl, rfl⟩

/-- The call of a request does nothing to the events, or is a post that succeeds. -/
theorem request_cases (cfg : Env) (d : Data) (c : SQC) :
    (Like d (d.request cfg c).1 ∧ (d.request cfg c).1.aside.answers = d.aside.answers ∧
      (∀ u, (d.request cfg c).1.timed u → d.timed u) ∧ ∀ e, c.sent e (d.request cfg c).2 = none) ∨
    (c.type ≠ .FLAG_REQ ∧ d.aside.isKind cfg c.kind c.id ∧ d.aside.full c.id = false ∧
      d.request cfg c = (d.postOk c.id c.mail, .E_OK)) := by
  by_cases hc : c.type = .FLAG_REQ
  · have he : d.request cfg c = d.setFlag cfg c.id := by
      unfold Data.request
      rw [hc]
    have hq := @setFlag_quiet cfg d c.id
    rw [he]
    exact Or.inl ⟨Quiet.like ⟨hq.1, hq.2⟩, congrArg EvtPart.answers hq.1,
      fun u hu => setFlag_timed hu,
      fun e => if_neg fun h => h.1 hc⟩
  · have hno : ∀ {st : StatusType}, st ≠ .E_OK → ∀ e, c.sent e st = none := fun hst e =>
      if_neg fun h => hst h.2.2
    rw [request_post hc]
    unfold Data.post
    split
    · exact Or.inl ⟨(Quiet.refl d).like, rfl, fun _ hu => hu, hno nofun⟩
    · next hk =>
      split
      · refine Or.inl ⟨(Quiet.refl d).like, rfl, fun _ hu => hu, hno ?_⟩
        cases c.kind <;> exact nofun
      · next hf => exact Or.inr ⟨hc, not_not.mp hk, Bool.eq_false_iff.mpr hf, rfl⟩

/-- A deferred request is a post that succeeds, or does nothing to the events. -/
theorem serve_cases (cfg : Env) (d : Data) (c : SQC) :
    (Like d (d.serve cfg c) ∧ ∀ u, (d.serve cfg c).timed u → d.timed u) ∨
      ∃ k e v, k ≠ EventType.invalid ∧ d.aside.isKind cfg k e ∧ d.aside.full e = false ∧
        d.serve cfg c = (d.postOk e (k.mail v)).answer c .E_OK := by
  unfold Data.serve
  rcases request_cases cfg d c with ⟨h1, -, h3, -⟩ | ⟨h1, h2, h3, h4⟩
  · exact Or.inl ⟨h1.trans (like_answer ..), h3⟩
  · rw [h4]
    exact Or.inr ⟨c.kind, c.id, c.arg, kind_ne h1, h2, h3, rfl⟩

section Rule

variable {cfg : Env} {ok : Sys → List SQC → Act → Prop} {G P : Abs → Prop}

/-- The rule for invariants of the events and of the answers to requests. -/
theorem Keeps.answered (hfine : ∀ m rs act, ok m rs act → Fine cfg m rs act)
    (hG : ∀ a, G a → P a → EventsOk a.d.aside)
    (like : ∀ {a : Abs} {d : Data}, Like a.d d → d.aside.answers = a.d.aside.answers →
      (∀ u, d.timed u → a.d.timed u) → P a → P { a with d := d })
    (other : ∀ {a : Abs} {c : SQC} {st : StatusType}, (∀ e, c.sent e st = none) → P a →
      P { a with d := a.d.answer c st })
    (post : ∀ {a : Abs} (c : SQC), G a → Wf cfg.served a.d → c.type ≠ .FLAG_REQ →
      a.d.aside.isKind cfg c.kind c.id → a.d.aside.full c.id = false → P a →
      P { a with d := (a.d.postOk c.id c.mail).answer c .E_OK })
    (turn : ∀ {m : Sys} {rs : List SQC} {act : Act} {a a1 : Abs} {r : Nat}, ok m rs act →
      At cfg m a r → G a → P a → Turn cfg.served r a act a1 → P a1) : Keeps cfg ok G P := by
  refine ⟨fun b q h => like (like_setRing _ b q) rfl (fun _ hu => hu) h, fun {a} c hg h hw => ?_,
    fun hok hat hg h hm => turn hok hat hg h (hm.turn (hG _ hg h) (hfine _ _ _ hok))⟩
  unfold Data.serve
  rcases request_cases cfg.served a.d c with ⟨h1, h2, h3, h4⟩ | ⟨h1, h2, h3, h4⟩
  · exact other h4 (like h1 h2 h3 h)
  · rw [h4]
    exact post c hg hw h1 h2 h3 h

/-- **The rule for invariants of the events** -/
theorem Keeps.turns (hfine : ∀ m rs act, ok m rs act → Fine cfg m rs act)
    (hG : ∀ a, G a → P a → EventsOk a.d.aside)
    (like : ∀ {a : Abs} {d : Data}, Like a.d d → (∀ u, d.timed u → a.d.timed u) → P a →
      P { a with d := d })
    (post : ∀ {a : Abs} {k : EventType} {e : Nat} (v : Nat), G a → Wf cfg.served a.d →
      k ≠ .invalid → a.d.aside.isKind cfg k e → a.d.aside.full e = false → P a →
      P { a with d := a.d.postOk e (k.mail v) })
    (turn : ∀ {m : Sys} {rs : List SQC} {act : Act} {a a1 : Abs} {r : Nat}, ok m rs act →
      At cfg m a r → G a → P a → Turn cfg.served r a act a1 → P a1) : Keeps cfg ok G P := by
  refine Keeps.answered hfine hG (fun hl _ => like hl)
    (fun {a c st} _ h => like (like_answer a.d c st) (fun _ hu => hu) h)
    (fun {a} c hg hw hc hk hf h => ?_) turn
  exact @like { a with d := a.d.postOk c.id c.mail } _ (like_answer ..) (fun _ hu => hu)
    (post c.arg hg hw (kind_ne hc) hk hf h)

end Rule

end CoOS
