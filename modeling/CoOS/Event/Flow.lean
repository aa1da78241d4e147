/-
  Mails and their receivers, along runs.

  `Flow`: the record of the mails that were moved, replayed on bounded lists, gives what the
  events hold. `Waits`: who is in a waiting list is in the second half of a pend, and a mail is
  on its way (`pmail`) only to a task that has left the list. `Served`: what the calls have
  returned is what the record says was moved.
-/
import CoOS.Event.Turn

namespace CoOS

open Function (update)

/-! ## The mails of an event, in and out -/

/-- The mail enters the event, or leaves it. -/
def Move.op (mv : Move) : Fifo.Op Nat :=
  match mv.fate with
  | .posted => .put mv.mail
  | _ => .get mv.mail

/-- The history of the event `e`. -/
def history (e : Nat) (ms : List Move) : List (Fifo.Op Nat) := (ms.filter (·.id = e)).map Move.op

theorem history_append (e : Nat) (ms ms' : List Move) :
    history e (ms ++ ms') = history e ms ++ history e ms' := by
  unfold history
  rw [List.filter_append, List.map_append]

theorem history_self {e : Nat} {ms : List Move} (h : ∀ mv ∈ ms, mv.id = e) :
    history e ms = ms.map Move.op := by
  unfold history
  rw [List.filter_eq_self.mpr]
  intro mv hm
  exact decide_eq_true (h mv hm)

theorem history_other {e e' : Nat} {ms : List Move} (h : ∀ mv ∈ ms, mv.id = e) (he : e' ≠ e) :
    history e' ms = [] := by
  unfold history
  rw [List.filter_eq_nil_iff.mpr, List.map_nil]
  intro mv hm hc
  exact he ((of_decide_eq_true hc).symm.trans (h mv hm))

/-- The record is a history of bounded lists, from the mails in `init` to those in `a`. -/
structure Flow (init a : Aside) : Prop where
  ok : EventsOk a
  capacity : a.capacity = init.capacity
  replay : ∀ e, Fifo.replay (init.capacity e) (init.stored e) (history e a.moves) =
    some (a.stored e)

section Flow

variable {init a a' : Aside} {e v : Nat} {l : List Nat}

theorem Flow.congr (h : Flow init a) (ho : EventsOk a') (hs : a'.stored = a.stored)
    (hc : a'.capacity = a.capacity) (hm : a'.moves = a.moves) : Flow init a' := by
  refine ⟨ho, hc.trans h.capacity, fun e => ?_⟩
  rw [hs, hm]
  exact h.replay e

theorem Flow.like {d d' : Data} (h : Flow init d.aside) (hl : Like d d') : Flow init d'.aside :=
  h.congr (hl.ok h.ok) hl.stored hl.capacity hl.moves

theorem Flow.part (h : Flow init a) (hp : a'.evtPart = a.evtPart) : Flow init a' := by
  have hs := sameEvent_of_part hp
  exact h.congr (h.ok.congr hs).1 (h.ok.congr hs).2 (funext fun e => (hs e).capacity)
    (congrArg EvtPart.moves hp)

/-- Mails of the event `e` are moved. -/
theorem Flow.move (h : Flow init a) {ms : List Move} (hd : Edit a a' e l)
    (hm : a'.moves = a.moves ++ ms) (hid : ∀ mv ∈ ms, mv.id = e)
    (hs : Fifo.replay (a.capacity e) (a.stored e) (ms.map Move.op) = some l) : Flow init a' := by
  refine ⟨hd.ok, hd.capacity.trans h.capacity, fun e' => ?_⟩
  rw [hd.stored, hm, history_append]
  by_cases he : e' = e
  · rw [he, history_self hid, Function.update_self]
    rw [h.capacity] at hs
    exact Fifo.replay_append (h.replay e) hs
  · rw [history_other hid he, Function.update_of_ne he, List.append_nil]
    exact h.replay e'

theorem Flow.post {d : Data} {k : EventType} (h : Flow init d.aside) (hi : k ≠ .invalid)
    (hk : d.aside.eventType e = k) (hf : d.aside.full e = false) :
    Flow init (d.postOk e (k.mail v)).aside := by
  have hty : d.aside.eventType e ≠ .invalid := by
    rw [hk]
    exact hi
  have hput := @Fifo.step_put Nat _ _ _ (length_lt_of_not_full h.ok hty hf) (k.mail v)
  rcases postOk_cases h.ok hty hf (fun hs => mail_sem (hk.symm.trans hs))
    with ⟨-, hp⟩ | ⟨t, x, l, rest, hp⟩
  · exact h.move hp.edit hp.moves (by simp) (Fifo.replay_one hput)
  · refine h.move hp.edit hp.moves (by simp) ?_
    rw [hp.oldest] at hput
    exact Fifo.replay_append (Fifo.replay_one hput) (Fifo.replay_one (Fifo.step_get x rest))

end Flow

section Turns

variable {cfg : Env} {ok : Sys → List SQC → Act → Prop} {init : Aside}

theorem Flow.take {a : Aside} {e v : Nat} {l : List Nat} (h : Flow init a)
    (hs : a.stored e = v :: l) :
    Flow init ((a.pop e).note e v .taken) := by
  have hp := pop_spec h.ok hs
  refine @Flow.move init a _ e l h [⟨e, v, .taken⟩] ⟨⟨hp.ok.ok, hp.ok.own⟩, hp.stored,
    hp.capacity⟩ ?_
    (by simp) ?_
  · exact congrArg (· ++ [⟨e, v, .taken⟩]) (pop_rest a e).moves
  · rw [hs]
    exact Fifo.replay_one (Fifo.step_get v l)

/-- Columns that are no event's. -/
theorem Flow.aside {a : Aside} (h : Flow init a) (prio mutexID pmail : Nat → Nat)
    (pnode : Nat → PNode) :
    Flow init { a with prio := prio, mutexID := mutexID, pmail := pmail, pnode := pnode } :=
  h.congr ⟨h.ok.ok, h.ok.own⟩ rfl rfl rfl

theorem flow_keeps (hfine : ∀ m rs act, ok m rs act → Fine cfg m rs act) :
    Keeps cfg ok (fun _ => True) fun a => Flow init a.d.aside := by
  refine Keeps.turns hfine (fun _ _ h => h.ok) (fun hl _ h => h.like hl)
    (fun v _ _ hi hk hf h => h.post hi hk.2 hf) fun {m rs act a a1 r} _ _ _ h ht => ?_
  cases ht with
  | quiet hr hd ht hc he => exact h.part hd.part
  | ask h0 hk hs => exact h
  | take hc h0 hk hs => exact h.take hs
  | post h0 hk hi hf => exact h.post hi hk.2 hf
  | create h0 ha he => exact h.aside ..
  | delete hc h0 he => exact h.part (expire_evtPart ..)
  | setPrio h0 hp he =>
    dsimp only
    rw [setPrio_aside]
    exact h.aside _ a.d.aside.mutexID a.d.aside.pmail a.d.aside.pnode
  | wait h0 => exact h
  | back h0 =>
    dsimp only
    unfold Data.pendReturn
    split
    · exact h
    · exact h.aside a.d.aside.prio a.d.aside.mutexID _ a.d.aside.pnode
  | tick hT => exact h.part (expire_evtPart ..)

end Turns

/-! ## Who waits -/

/-- In a waiting list is who is in the second half of a pend, and who waits without a timeout
    is not in the delay list; a mail is on its way only to a task that has left its list. -/
structure Waits (a : Abs) : Prop where
  loc : ∀ t e, a.d.evt.loc t = some e → ∃ k n, a.cont t = .wait k e n ∧ (n = 0 → ¬ a.d.timed t)
  mail : ∀ t, a.alive t → a.d.aside.pmail t ≠ 0 → a.d.evt.loc t = none ∧
    ∃ k e n, a.cont t = .wait k e n
  dead : ∀ t, ¬ a.alive t → a.cont t = .none ∧ a.d.evt.loc t = none

section Waits

variable {cfg : Env} {ok : Sys → List SQC → Act → Prop} {a : Abs} {r : Nat}

/-- The running task `r` goes on; nothing else happens to who waits. -/
theorem Waits.run (h : Waits a) (hr : a.d.evt.loc r = none) (ha : a.alive r) {d : Data} {c : Cont}
    {log : List Entry} (he : ∀ t, d.evt.loc t = a.d.evt.loc t)
    (ht : ∀ u, d.timed u → u = r ∨ a.d.timed u)
    (hp : ∀ t, t ≠ r → d.aside.pmail t = a.d.aside.pmail t) (h0 : d.aside.pmail r = 0) :
    Waits ⟨d, a.alive, update a.cont r c, log⟩ := by
  refine ⟨fun t e hl => ?_, fun t hal hpm => ?_, fun t hal => ?_⟩
  · have hl' : a.d.evt.loc t = some e := (he t).symm.trans hl
    have htr : t ≠ r := by
      rintro rfl
      rw [hr] at hl'
      exact nomatch hl'
    obtain ⟨k, n, h1, h2⟩ := h.loc t e hl'
    refine ⟨k, n, (Function.update_of_ne htr ..).trans h1, fun hn hti => h2 hn ?_⟩
    exact (ht t hti).resolve_left htr
  · have htr : t ≠ r := by
      rintro rfl
      exact hpm h0
    obtain ⟨h1, k, e, n, h2⟩ := h.mail t hal (by rw [← hp t htr]; exact hpm)
    exact ⟨(he t).trans h1, k, e, n, (Function.update_of_ne htr ..).trans h2⟩
  · have htr : t ≠ r := by
      rintro rfl
      exact hal ha
    obtain ⟨h1, h2⟩ := h.dead t hal
    exact ⟨(Function.update_of_ne htr ..).trans h1, (he t).trans h2⟩

/-- No mail is on its way to a task that is not in a pend. -/
theorem Waits.no_mail (h : Waits a) (ha : a.alive r) (hc : ∀ k e n, a.cont r ≠ .wait k e n) :
    a.d.aside.pmail r = 0 := by
  by_contra hp
  obtain ⟨-, k, e, n, h1⟩ := h.mail r ha hp
  exact hc k e n h1

theorem Waits.like (h : Waits a) {d : Data} (hl : Like a.d d) (ht : ∀ u, d.timed u → a.d.timed u) :
    Waits { a with d := d } := by
  refine ⟨fun t e he => ?_, fun t hal hp => ?_, fun t hal => ?_⟩
  · obtain ⟨k, n, h1, h2⟩ := h.loc t e (by rw [← hl.evt]; exact he)
    exact ⟨k, n, h1, fun hn hti => h2 hn (ht t hti)⟩
  · change d.evt.loc t = none ∧ _
    rw [hl.evt]
    exact h.mail t hal (by rw [← hl.pmail]; exact hp)
  · change _ ∧ d.evt.loc t = none
    rw [hl.evt]
    exact h.dead t hal

theorem Waits.post (h : Waits a) (hw : Wf cfg a.d) {k : EventType} {e v : Nat}
    (ho : EventsOk a.d.aside)
    (hi : k ≠ .invalid) (hk : a.d.aside.eventType e = k) (hf : a.d.aside.full e = false) :
    Waits { a with d := a.d.postOk e (k.mail v) } := by
  rcases postOk_cases ho (by rw [hk]; exact hi) hf (fun hs => mail_sem (hk.symm.trans hs)) with
    ⟨-, hp⟩ | ⟨t, x, l, rest, hp⟩
  · refine ⟨fun t e he => ?_, fun t hal hm => ?_, fun t hal => ?_⟩
    · obtain ⟨k, n, h1, h2⟩ := h.loc t e (by rw [← hp.evt]; exact he)
      exact ⟨k, n, h1, fun hn hti => h2 hn (by rw [← hp.timed]; exact hti)⟩
    · dsimp only
      rw [hp.evt]
      exact h.mail t hal (by rw [← hp.pmail]; exact hm)
    · dsimp only
      rw [hp.evt]
      exact h.dead t hal
  · have hloc : a.d.evt.loc t = some e :=
      (hw.evt.mem e t).mp (by rw [hp.lst]; exact List.mem_cons_self)
    have hne : ∀ {u}, u ≠ t → (a.d.evt.take e t l).loc u = a.d.evt.loc u := fun hu =>
      DList.Family.take_loc_ne _ _ hu
    refine ⟨fun u e' he => ?_, fun u hal hm => ?_, fun u hal => ?_⟩
    · have he : (a.d.evt.take e t l).loc u = some e' := by
        rw [← hp.evt]
        exact he
      have hut : u ≠ t := by
        rintro rfl
        rw [DList.Family.take_loc_self] at he
        exact nomatch he
      rw [hne hut] at he
      obtain ⟨k', n, h1, h2⟩ := h.loc u e' he
      refine ⟨k', n, h1, fun hn hti => h2 hn ?_⟩
      rw [show (a.d.postOk e (k.mail v)).timed u = _ from congrFun hp.timed u] at hti
      exact hti.2
    · dsimp only at hm ⊢
      rw [hp.evt]
      by_cases hut : u = t
      · subst hut
        obtain ⟨k, n, h1, -⟩ := h.loc u e hloc
        exact ⟨DList.Family.take_loc_self .., k, e, n, h1⟩
      · rw [hne hut]
        refine h.mail u hal ?_
        rw [hp.pmail, Function.update_of_ne hut] at hm
        exact hm
    · dsimp only
      rw [hp.evt]
      have hut : u ≠ t := by
        rintro rfl
        rw [(h.dead u hal).2] at hloc
        exact nomatch hloc
      rw [hne hut]
      exact h.dead u hal

/-- Tasks leave the lists. -/
theorem Waits.expire (h : Waits a) {T : List Nat} : Waits { a with d := a.d.expire T } := by
  have hpm : (a.d.expire T).aside.pmail = a.d.aside.pmail :=
    congrArg EvtPart.pmail (expire_evtPart a.d T)
  have hloc : ∀ t, (a.d.expire T).evt.loc t = if t ∈ T then none else a.d.evt.loc t := fun _ => rfl
  refine ⟨fun t e he => ?_, fun t hal hm => ?_, fun t hal => ?_⟩
  · dsimp only at he
    rw [hloc] at he
    split at he
    · exact nomatch he
    · obtain ⟨k, n, h1, h2⟩ := h.loc t e he
      exact ⟨k, n, h1, fun hn hti => h2 hn hti.2⟩
  · dsimp only at hm ⊢
    rw [hpm] at hm
    obtain ⟨h1, h2⟩ := h.mail t hal hm
    rw [hloc, h1, ite_self]
    exact ⟨rfl, h2⟩
  · dsimp only
    rw [hloc, (h.dead t hal).2, ite_self]
    exact ⟨(h.dead t hal).1, rfl⟩

theorem pendReturn_pmail (d : Data) (t n : Nat) :
    (d.pendReturn t n).1.aside.pmail = update d.aside.pmail t 0 := by
  unfold Data.pendReturn
  split
  · next h =>
    rw [← h.2, Function.update_eq_self]
  · rfl

theorem pendReturn_lists (d : Data) (t n : Nat) : (d.pendReturn t n).1.evt = d.evt ∧
    (d.pendReturn t n).1.timed = d.timed := by
  unfold Data.pendReturn
  split
  · exact ⟨rfl, rfl⟩
  · exact ⟨rfl, rfl⟩

theorem Waits.create (h : Waits a) {i p : Nat} {w : Bool} (hi : ¬ a.alive i) :
    Waits { a with d := a.d.create i p w, alive := fun u => u = i ∨ a.alive u } := by
  refine ⟨h.loc, fun t hal hm => ?_, fun t hal => h.dead t fun ha => hal (Or.inr ha)⟩
  have hti : t ≠ i := by
    rintro rfl
    exact hm (Function.update_self ..)
  exact h.mail t (hal.resolve_left hti)
    (by rw [← Function.update_of_ne hti 0 a.d.aside.pmail]; exact hm)

theorem Waits.delete (h : Waits a) (t : Nat) :
    Waits { a with
      d := a.d.delete t, alive := fun u => u ≠ t ∧ a.alive u, cont := update a.cont t .none } := by
  have h1 := @Waits.expire a h [t]
  refine ⟨fun u e he => ?_, fun u hal hm => ?_, fun u hal => ?_⟩
  · have hut : u ≠ t := by
      rintro rfl
      rw [show (a.d.delete u).evt.loc u = none from if_pos (List.mem_singleton_self u)] at he
      exact nomatch he
    obtain ⟨k, n, h2, h3⟩ := h1.loc u e he
    exact ⟨k, n, (Function.update_of_ne hut ..).trans h2, h3⟩
  · obtain ⟨h2, k, e, n, h3⟩ := h1.mail u hal.2 hm
    exact ⟨h2, k, e, n, (Function.update_of_ne hal.1 ..).trans h3⟩
  · by_cases hut : u = t
    · rw [hut]
      exact ⟨Function.update_self .., if_pos (List.mem_singleton_self t)⟩
    · obtain ⟨h2, h3⟩ := h1.dead u fun ha => hal ⟨hut, ha⟩
      exact ⟨(Function.update_of_ne hut ..).trans h2, h3⟩

theorem Waits.wait (h : Waits a) (hc : Caller cfg a r) {k : EventType} {e n : Nat}
    (h0 : a.cont r = .block k e n) {log : List Entry} :
    Waits ⟨a.d.wait e r n, a.alive, update a.cont r (.wait k e n), log⟩ := by
  have hpm : a.d.aside.pmail r = 0 := h.no_mail hc.alive (by rw [h0]; exact fun _ _ _ => nofun)
  refine ⟨fun t e' he => ?_, fun t hal hm => ?_, fun t hal => ?_⟩
  · by_cases htr : t = r
    · subst htr
      rw [show (a.d.wait e t n).evt.loc t = some e from DList.Family.put_loc_self ..] at he
      obtain rfl := Option.some.inj he
      refine ⟨k, n, Function.update_self .., fun hn hti => ?_⟩
      rcases hti with hti | hti
      · exact hti.2 hn
      · exact hc.timed hti
    · rw [show (a.d.wait e r n).evt.loc t = a.d.evt.loc t from
        DList.Family.put_loc_ne _ _ htr] at he
      obtain ⟨k', n', h1, h2⟩ := h.loc t e' he
      refine ⟨k', n', (Function.update_of_ne htr ..).trans h1, fun hn hti => h2 hn ?_⟩
      exact hti.resolve_left fun hti => htr hti.1
  · have htr : t ≠ r := by
      rintro rfl
      exact hm hpm
    obtain ⟨h1, k', e', n', h2⟩ := h.mail t hal hm
    exact ⟨(DList.Family.put_loc_ne _ _ htr).trans h1, k', e', n',
      (Function.update_of_ne htr ..).trans h2⟩
  · have htr : t ≠ r := by
      rintro rfl
      exact hal hc.alive
    obtain ⟨h1, h2⟩ := h.dead t hal
    exact ⟨(Function.update_of_ne htr ..).trans h1, (DList.Family.put_loc_ne _ _ htr).trans h2⟩

theorem waits_keeps (hfine : ∀ m rs act, ok m rs act → Fine cfg m rs act) :
    Keeps cfg ok (fun a => EventsOk a.d.aside) Waits := by
  refine Keeps.turns hfine (fun _ h _ => h) (fun hl ht h => h.like hl ht)
    (fun v hg hw hi hk hf h => h.post hw hg hi hk.2 hf) fun {m rs act a a1 r} _ hat hg h ht => ?_
  have hc := hat.caller
  have hidle : a.cont r = .none → a.d.aside.pmail r = 0 := fun h0 =>
    h.no_mail hc.alive (by rw [h0]; exact fun _ _ _ => nofun)
  have hrun : ∀ (c : Cont) (log : List Entry), a.cont r = .none →
      Waits ⟨a.d, a.alive, update a.cont r c, log⟩ := fun c log h0 =>
    h.run hc.evt hc.alive (fun _ => rfl) (fun _ hu => Or.inr hu) (fun _ _ => rfl) (hidle h0)
  cases ht with
  | quiet hr hd ht hq he =>
    refine h.run hc.evt hc.alive (fun t => by rw [hd.evt]) ht (fun t _ => ?_) ?_
    · rw [hd.like.pmail]
    · rw [hd.like.pmail]
      refine h.no_mail hc.alive fun k e n hw => ?_
      rw [hw] at hr
      exact hr
  | ask h0 hk hs => exact hrun _ _ h0
  | @take c k e v l hcl h0 hk hs =>
    have hp : ∀ t, (a.d.aside.pop e).pmail t = a.d.aside.pmail t := fun t =>
      congrFun (pop_rest a.d.aside e).pmail t
    exact h.run hc.evt hc.alive (fun _ => rfl) (fun _ hu => Or.inr hu) (fun t _ => hp t)
      ((hp r).trans (hidle h0))
  | post h0 hk hi hf => exact (hrun .none _ h0).post hat.wf hg hi hk.2 hf
  | create h0 ha he => exact (hrun .none _ h0).create ha
  | delete hcl h0 he => exact (hrun .none _ h0).delete _
  | @setPrio t p en h0 hp he =>
    have hpm : (a.d.setPrio t p).aside.pmail = a.d.aside.pmail := by rw [setPrio_aside]
    refine h.run hc.evt hc.alive (setPrio_loc a.d t p) (fun u hu => ?_) (fun u _ => by rw [hpm]) ?_
    · rw [setPrio_timed] at hu
      exact Or.inr hu
    · rw [hpm]
      exact hidle h0
  | wait h0 => exact h.wait hc h0
  | back h0 =>
    obtain ⟨h1, h2⟩ := pendReturn_lists a.d r _
    refine h.run hc.evt hc.alive (fun t => by rw [h1])
      (fun u hu => Or.inr (by rw [h2] at hu; exact hu))
      (fun t ht => ?_) ?_
    · rw [pendReturn_pmail, Function.update_of_ne ht]
    · rw [pendReturn_pmail, Function.update_self]
  | tick hT => exact h.expire

end Waits

end CoOS
