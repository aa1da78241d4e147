/-
  The order of the waiting lists: by arrival, or by priority and then by arrival.

  The code keeps no time of arrival, so the run does: `Arrivals` numbers the steps and stamps a
  task with the number of the step that last put it in a waiting list. This is the second section
  of its pend, or a `CoSetPriority` that moved it in a list ordered by priority.
-/
import CoOS.Event.Served
import CoOS.Run.Coherent

namespace CoOS

open Function (update)
open DList KeyOrder

/-! ## Stamps -/

/-- The task that the step puts in a waiting list, or puts there anew. -/
def Sys.inserts (cfg : Env) (m : Sys) : Act → Option Nat
  | .resume =>
    match m.k.TCBRunning with
    | some r =>
      match m.cont r with
      | .block _ _ _ => some r
      | _ => none
    | none => none
  | .call (.setPriority t p) =>
    if m.k.prio t ≠ p ∧ p ≤ cfg.lowestPrio ∧ m.k.eventSortType (m.k.eventID t) = sortPrio
    then some t else none
  | _ => none

def restamp (st : Nat → Nat) (n : Nat) : Option Nat → Nat → Nat
  | some t => update st t n
  | none => st

/-- The run has come to `m` in `n` steps, and `st t` is the number of the step that last put `t`
    in a waiting list. -/
inductive Arrivals (cfg : Env) (ok : Sys → List SQC → Act → Prop) (m0 : Sys) :
    Sys → (Nat → Nat) → Nat → Prop
  | start : Arrivals cfg ok m0 m0 (fun _ => 0) 0
  | step {m m' : Sys} {st : Nat → Nat} {n : Nat} {rs : List SQC} {a : Act}
      (h : Arrivals cfg ok m0 m st n) (hok : ok m rs a) (hs : m.step cfg rs a = some m') :
      Arrivals cfg ok m0 m' (restamp st n (m.inserts cfg a)) (n + 1)

/-- `t` stands before `u` in a list of the sort type `sort`. -/
def Ahead (sort : Nat) (prio st : Nat → Nat) (t u : Nat) : Prop :=
  if sort = sortFifo then st t < st u else Ranked prio st t u

/-! ## The order -/

structure Ordered (st : Nat → Nat) (n : Nat) (d : Data) : Prop where
  order : ∀ e, (d.evt.lst e).Pairwise (Ahead (d.aside.eventSortType e) d.aside.prio st)
  old : ∀ e, ∀ t ∈ d.evt.lst e, st t < n

section Ordered

variable {cfg : Env} {st st' : Nat → Nat} {n n' : Nat} {d d' : Data}

/-- Tasks leave their lists. -/
theorem Ordered.sub (h : Ordered st n d) (hl : ∀ e, (d'.evt.lst e).Sublist (d.evt.lst e))
    (hs : d'.aside.eventSortType = d.aside.eventSortType)
    (hp : ∀ e, d.aside.eventSortType e ≠ sortFifo → ∀ t ∈ d'.evt.lst e,
      d'.aside.prio t = d.aside.prio t)
    (hst : ∀ e, ∀ t ∈ d'.evt.lst e, st' t = st t) (hn : n ≤ n') : Ordered st' n' d' := by
  refine ⟨fun e => ?_, fun e t ht => ?_⟩
  · rw [hs]
    refine ((h.order e).sublist (hl e)).imp_of_mem fun {t u} ht hu hr => ?_
    unfold Ahead Ranked at hr ⊢
    rw [hst e t ht, hst e u hu]
    by_cases hf : d.aside.eventSortType e = sortFifo
    · rw [if_pos hf] at hr ⊢
      exact hr
    · rw [if_neg hf] at hr ⊢
      rw [hp e hf t ht, hp e hf u hu]
      exact hr
  · rw [hst e t ht]
    exact Nat.lt_of_lt_of_le (h.old e t ((hl e).subset ht)) hn

theorem Ordered.same (h : Ordered st n d) (hl : d'.evt = d.evt)
    (hs : d'.aside.eventSortType = d.aside.eventSortType) (hp : d'.aside.prio = d.aside.prio)
    (hn : n ≤ n') :
    Ordered st n' d' :=
  h.sub (fun e => by rw [hl]) hs (fun e _ t _ => by rw [hp]) (fun _ _ _ => rfl) hn

theorem Ordered.post (h : Ordered st n d) {k : EventType} {e v : Nat} (ho : EventsOk d.aside)
    (hi : k ≠ .invalid) (hk : d.aside.eventType e = k) (hf : d.aside.full e = false) (hn : n ≤ n') :
    Ordered st n' (d.postOk e (k.mail v)) := by
  rcases postOk_cases ho (by rw [hk]; exact hi) hf (fun hs => mail_sem (hk.symm.trans hs)) with
    ⟨-, hp⟩ | ⟨t, x, l, rest, hp⟩
  · exact h.same hp.evt hp.sort hp.prio hn
  · refine h.sub (fun e' => ?_) hp.sort (fun e' _ u _ => by rw [hp.prio]) (fun _ _ _ => rfl) hn
    rw [hp.evt]
    by_cases he : e' = e
    · rw [he, Family.take_lst_self, hp.lst]
      exact List.sublist_cons_self t l
    · rw [Family.take_lst_ne _ _ he]

theorem Ordered.expire (h : Ordered st n d) (T : List Nat) (hn : n ≤ n') :
    Ordered st n' (d.expire T) := by
  have hp := expire_evtPart d T
  exact h.sub (fun e => List.filter_sublist) (congrArg EvtPart.eventSortType hp)
    (fun e _ t _ => congrFun (congrArg EvtPart.prio hp) t) (fun _ _ _ => rfl) hn

/-- A task is put in the list of `e` with the newest stamp. -/
theorem Ordered.insert (h : Ordered st n d) {e t : Nat} (hne : ∀ e', t ∉ d.evt.lst e')
    (hsort : d.aside.eventSortType e = sortFifo ∨ d.aside.eventSortType e = sortPrio)
    (hl : d'.evt.lst = update d.evt.lst e
      (waitInsert (d.aside.eventSortType e) d.aside.prio t (d.evt.lst e)))
    (hs : d'.aside.eventSortType = d.aside.eventSortType) (hp : d'.aside.prio = d.aside.prio) :
    Ordered (update st t n) (n + 1) d' := by
  have hst : ∀ e', ∀ u ∈ d.evt.lst e', update st t n u = st u := by
    intro e' u hu
    refine Function.update_of_ne ?_ ..
    rintro rfl
    exact hne e' hu
  -- the lists under the new stamps
  have hold : ∀ e',
    (d.evt.lst e').Pairwise (Ahead (d.aside.eventSortType e') d.aside.prio (update st t n)) := by
    intro e'
    refine (h.order e').imp_of_mem fun {x y} hx hy hr => ?_
    unfold Ahead Ranked at hr ⊢
    rw [hst e' x hx, hst e' y hy]
    exact hr
  have hnew : ∀ u ∈ d.evt.lst e, update st t n u < update st t n t := by
    intro u hu
    rw [hst e u hu, Function.update_self]
    exact h.old e u hu
  refine ⟨fun e' => ?_, fun e' u hu => ?_⟩
  · rw [hs, hp, hl]
    by_cases he : e' = e
    · rw [he, Function.update_self]
      have hord := hold e
      unfold Ahead at hord ⊢
      unfold waitInsert
      rcases hsort with hsort | hsort
      · simp only [if_pos hsort] at hord ⊢
        rw [List.pairwise_append]
        refine ⟨hord, List.pairwise_singleton .., fun u hu x hx => ?_⟩
        rw [List.mem_singleton.mp hx]
        exact hnew u hu
      · have hno : ¬ d.aside.eventSortType e = sortFifo := by
          rw [hsort]
          decide
        simp only [if_neg hno] at hord ⊢
        exact pairwise_insertKey hord hnew
    · rw [Function.update_of_ne he]
      exact hold e'
  · rw [hl] at hu
    by_cases hut : u = t
    · rw [hut, Function.update_self]
      exact Nat.lt_succ_self n
    · have hu' : u ∈ d.evt.lst e' := by
        by_cases he : e' = e
        · rw [he, Function.update_self, mem_waitInsert] at hu
          rw [he]
          exact hu.resolve_left hut
        · rw [Function.update_of_ne he] at hu
          exact hu
      rw [hst e' u hu']
      exact Nat.lt_succ_of_lt (h.old e' u hu')

/-- A change of priority. -/
theorem Ordered.setPrio (h : Ordered st n d) (hw : EvtOk d) {t p : Nat}
    (hsort : ∀ e, d.evt.loc t = some e →
      d.aside.eventSortType e = sortFifo ∨ d.aside.eventSortType e = sortPrio)
    (hst : ∀ u, u ≠ t → st' u = st u)
    (hm : ∀ e, d.evt.loc t = some e →
      st' t = if d.aside.eventSortType e = sortPrio then n else st t) :
    Ordered st' (n + 1) (d.setPrio t p) := by
  have hnot : ∀ e, d.evt.loc t ≠ some e → t ∉ d.evt.lst e := fun e he ht => he ((hw.mem e t).mp ht)
  have hpr : ∀ u, u ≠ t → update d.aside.prio t p u = d.aside.prio u := fun u hu =>
    Function.update_of_ne hu ..
  unfold Data.setPrio
  dsimp only
  split
  · next e he =>
    have hst' := hm e he
    have hother : ∀ e', e' ≠ e → t ∉ d.evt.lst e' := by
      intro e' hne
      refine hnot e' fun hc => hne ?_
      rw [he] at hc
      exact (Option.some.inj hc).symm
    split
    · next hs =>
      rw [if_pos hs] at hst'
      have hlst : ∀ e',
        ((d.evt.take e t ((d.evt.lst e).erase t)).lst e').Sublist (d.evt.lst e') := by
        intro e'
        by_cases hee : e' = e
        · rw [hee, Family.take_lst_self]
          exact List.erase_sublist
        · rw [Family.take_lst_ne _ _ hee]
      have hno : ∀ e', t ∉ (d.evt.take e t ((d.evt.lst e).erase t)).lst e' := by
        intro e' ht
        by_cases hee : e' = e
        · rw [hee, Family.take_lst_self] at ht
          exact ((hw.nodup e).mem_erase_iff.mp ht).1 rfl
        · rw [Family.take_lst_ne _ _ hee] at ht
          exact hother e' hee ht
      have h1 : Ordered st n { d with
          aside := { d.aside with prio := update d.aside.prio t p }
          evt := d.evt.take e t ((d.evt.lst e).erase t) } := by
        refine h.sub hlst rfl (fun e' _ u hu => hpr u ?_) (fun _ _ _ => rfl) (Nat.le_refl n)
        rintro rfl
        exact hno e' hu
      have hupd : st' = update st t n := by
        funext u
        by_cases hu : u = t
        · rw [hu, hst', Function.update_self]
        · rw [hst u hu, Function.update_of_ne hu]
      rw [hupd]
      refine h1.insert hno (Or.inr hs) ?_ rfl rfl
      unfold Data.requeue Family.put waitInsert
      dsimp only
      rw [if_neg (by rw [hs]; decide), Family.take_lst_self]
    · next hs =>
      rw [if_neg hs] at hst'
      have hfifo := (hsort e he).resolve_right hs
      refine h.sub (fun _ => List.Sublist.refl _) rfl (fun e' hne u hu => hpr u ?_)
        (fun e' u _ => ?_)
        (Nat.le_succ n)
      · rintro rfl
        have hee : e' = e := by
          by_contra hee
          exact hother e' hee hu
        rw [hee] at hne
        exact hne hfifo
      · by_cases hut : u = t
        · rw [hut]
          exact hst'
        · exact hst u hut
  · next he =>
    have hno : ∀ e, t ∉ d.evt.lst e := fun e => hnot e (by rw [he]; exact nofun)
    have hne : ∀ {e u}, u ∈ d.evt.lst e → u ≠ t := by
      rintro e u hu rfl
      exact hno e hu
    exact h.sub (fun _ => List.Sublist.refl _) rfl (fun e _ u hu => hpr u (hne hu))
      (fun e u hu => hst u (hne hu)) (Nat.le_succ n)

end Ordered

/-! ## One step -/

section Step

variable {cfg : Env} {m : Sys} {a a1 : Abs} {r : Nat} {st : Nat → Nat} {n : Nat} {init : Aside}

theorem At.idle (h : At cfg m a r) : a.cont 0 = .none := by
  obtain ⟨g, F, b, q, hi, rfl⟩ := h
  exact hi.idle

/-- The list in which a task waits, as the kernel has it. -/
theorem At.eventID (h : At cfg m a r) {t e : Nat} (he : a.d.evt.loc t = some e) :
    m.k.eventID t = e := by
  obtain ⟨g, F, b, q, hi, rfl⟩ := h
  exact (hi.stable.coh.eventID_eq (hi.stable.coh.evt_live he)
    (hi.stable.coh.rep.evLt t e he).2).mpr he

theorem At.columns (h : At cfg m a r) : a.d.aside.prio = m.k.prio ∧
    a.d.aside.eventSortType = m.k.eventSortType := by
  obtain ⟨g, F, b, q, hi, rfl⟩ := h
  exact ⟨rfl, rfl⟩

theorem At.sort_waiting (h : At cfg m a r) (hw : Waits a) {t e : Nat}
    (he : a.d.evt.loc t = some e) :
    a.d.aside.eventSortType e = sortFifo ∨ a.d.aside.eventSortType e = sortPrio := by
  obtain ⟨k, n, hc, -⟩ := hw.loc t e he
  have hp := h.passed t
  rw [hc] at hp
  refine h.sort ?_
  rw [hp.2.1]
  exact hp.2.2.1

/-- `CoSetPriority`. -/
theorem Ordered.mid_setPriority (h : Ordered st n a.d) (hat : At cfg m a r)
    (hw : Waits a) {t p : Nat}
    (hm : Mid cfg.served r a (.call (.setPriority t p)) a1) :
    Ordered (restamp st n (m.inserts cfg (.call (.setPriority t p)))) (n + 1) a1.d := by
  have hne : ∀ u, u ≠ t → restamp st n (m.inserts cfg (.call (.setPriority t p))) u = st u := by
    intro u hu
    unfold Sys.inserts
    dsimp only
    split
    · exact Function.update_of_ne hu ..
    · rfl
  obtain ⟨hprio, hsort⟩ := hat.columns
  cases hm with
  | call hr h0 hx =>
    obtain ⟨ret, ⟨rfl, hno⟩ | ⟨rfl, hp, ht, hpt⟩⟩ := hx
    · -- the idle task is in no list
      refine h.sub (fun _ => List.Sublist.refl _) rfl (fun _ _ _ _ => rfl) (fun e u hu => ?_)
        (Nat.le_succ n)
      by_cases hut : u = t
      · unfold Sys.inserts
        dsimp only
        split
        · next hc =>
          rw [← hprio] at hc
          have h0 : t = 0 := by
            rcases hno with hno | hno | hno
            · exact hno
            · exact absurd hc.2.1 (Nat.not_le.mpr hno)
            · exact absurd hno hc.1
          obtain ⟨k, n', hwt, -⟩ := hw.loc u e ((hat.wf.evt.mem e u).mp hu)
          rw [hut, h0, hat.idle] at hwt
          exact nomatch hwt
        · rfl
      · exact hne u hut
    · refine h.setPrio hat.wf.evt (fun e he => hat.sort_waiting hw he) hne fun e he => ?_
      unfold Sys.inserts
      dsimp only
      rw [hat.eventID he, ← hprio, ← hsort]
      by_cases hs : a.d.aside.eventSortType e = sortPrio
      · rw [if_pos hs, if_pos ⟨hpt, hp, hs⟩]
        exact Function.update_self ..
      · rw [if_neg hs, if_neg fun hc => hs hc.2.2]
        rfl

/-- Any other step. -/
theorem Ordered.turn (h : Ordered st n a.d) (hat : At cfg m a r) (hl : Ledger init a) {act : Act}
    (hset : ∀ t p, act ≠ .call (.setPriority t p)) (ht : Turn cfg.served r a act a1) :
    Ordered (restamp st n (m.inserts cfg act)) (n + 1) a1.d := by
  have hrun := hat.running
  have hcall : ∀ c, act = .call c → m.inserts cfg act = none := by
    rintro c rfl
    cases c with
    | setPriority t p => exact absurd rfl (hset t p)
    | _ => rfl
  have hres : act = .resume → m.inserts cfg act = match a.cont r with
      | .block _ _ _ => some r
      | _ => none := by
    rintro rfl
    unfold Sys.inserts
    rw [hrun, ← hat.cont]
  have hquiet : (a.cont r).quiet → m.inserts cfg act = none := by
    intro hq
    cases act with
    | call c => exact hcall c rfl
    | resume =>
      rw [hres rfl]
      split
      · next hb =>
        rw [hb] at hq
        exact hq.elim
      · rfl
    | tick => rfl
  have hidle : a.cont r = .none → m.inserts cfg act = none := fun h0 => hquiet (by rw [h0]; trivial)
  cases ht with
  | quiet hr hd ht hc he =>
    rw [hquiet hr]
    exact h.same hd.like.evt hd.like.sort hd.like.prio (Nat.le_succ n)
  | ask h0 hk hs =>
    rw [hidle h0]
    exact h.same rfl rfl rfl (Nat.le_succ n)
  | @take c k e v l hc h0 hk hs =>
    rw [hidle h0]
    have hp := pop_rest a.d.aside e
    exact h.same rfl hp.sort hp.prio (Nat.le_succ n)
  | post h0 hk hi hf =>
    rw [hidle h0]
    exact h.post hl.flow.ok hi hk.2 hf (Nat.le_succ n)
  | @create _ i p w en h0 ha he hi =>
    rw [hidle h0]
    refine h.sub (fun _ => List.Sublist.refl _) rfl (fun e _ t ht => ?_) (fun _ _ _ => rfl)
      (Nat.le_succ n)
    refine Function.update_of_ne ?_ ..
    rintro rfl
    have := (hat.wf.evt.mem e t).mp ht
    rw [(hl.waits.dead t ha).2] at this
    exact nomatch this
  | delete hc h0 he =>
    rw [hidle h0]
    exact h.expire _ (Nat.le_succ n)
  | @setPrio t p en h0 hp he => exact absurd rfl (hset t p)
  | @wait k e n' h0 =>
    rw [hres rfl, h0]
    have hp := hat.passed r
    rw [h0] at hp
    refine h.insert (fun e' ht => ?_) (hat.sort (by rw [hp.2.1]; exact hp.2.2.1)) rfl rfl rfl
    have := (hat.wf.evt.mem e' r).mp ht
    rw [hat.caller.evt] at this
    exact nomatch this
  | @back k e n' h0 =>
    rw [hres rfl, h0]
    refine h.same (pendReturn_lists a.d r n').1 ?_ ?_ (Nat.le_succ n)
    · exact congrArg Fixed.eventSortType (pendReturn_fixed a.d r n')
    · unfold Data.pendReturn
      dsimp only
      split
      · rfl
      · rfl
  | @tick T hT => exact h.expire T (Nat.le_succ n)

theorem Ordered.mid (h : Ordered st n a.d) (hat : At cfg m a r) (hl : Ledger init a) {rs : List SQC}
    {act : Act} (hf : Fine cfg m rs act) (hm : Mid cfg.served r a act a1) :
    Ordered (restamp st n (m.inserts cfg act)) (n + 1) a1.d := by
  by_cases hset : ∃ t p, act = .call (.setPriority t p)
  · obtain ⟨t, p, rfl⟩ := hset
    exact h.mid_setPriority hat hl.waits hm
  · exact h.turn hat hl (fun t p he => hset ⟨t, p, he⟩) (hm.turn hl.flow.ok hf)

theorem Ordered.serve (h : Ordered st n a.d) (hl : Ledger init a) (c : SQC) :
    Ordered st n (a.d.serve cfg c) := by
  rcases serve_cases cfg a.d c with ⟨h1, -⟩ | ⟨k, e, v, hi, hk, hf, heq⟩
  · exact h.same h1.evt h1.sort h1.prio (Nat.le_refl n)
  · rw [heq]
    have h1 := like_answer (a.d.postOk e (k.mail v)) c .E_OK
    exact (h.post hl.flow.ok hi hk.2 hf (Nat.le_refl n)).same h1.evt h1.sort h1.prio (Nat.le_refl n)

end Step

/-! ## Runs -/

section Runs

variable {cfg : Env} {i : Idle} {us : List Setup} {m0 m : Sys} {st : Nat → Nat} {n : Nat}

theorem Arrivals.ordered (hu : ∀ u ∈ us, u.Valid) (hb : boot cfg i us = some m0)
    (h : Arrivals cfg (Fine cfg) m0 m st n) : ∃ g r F, Inv cfg m g r F ∧
      Ledger m0.k.aside (m.abs cfg.served g) ∧ Ordered st n (m.k.data g) := by
  obtain ⟨g0, r0, hbt, -⟩ := booted hu hb
  induction h with
  | start =>
    have hnil : ∀ e, g0.evt.lst e = [] := fun e => by rw [hbt.evt]
    refine ⟨g0, r0, [], hbt.inv, hbt.ledger, ⟨fun e => ?_, fun e t ht => ?_⟩⟩
    · change (g0.evt.lst e).Pairwise _
      rw [hnil]
      exact List.Pairwise.nil
    · change t ∈ g0.evt.lst e at ht
      rw [hnil] at ht
      exact nomatch ht
  | @step m m' st n rs act _ hok hs ih =>
    obtain ⟨g, r, F, hi, hl, ho⟩ := ih
    have hring : ∀ {st : Nat → Nat} {n : Nat} {a : Abs} (b : Bool) (q : SRQ), Ordered st n a.d →
        Ordered st n (a.setRing b q).d := fun b q h => ⟨h.order, h.old⟩
    obtain ⟨g', r', F', hi', hl', ho'⟩ := @Inv.carry cfg (Fine cfg) (Ledger m0.k.aside)
      (fun a => Ordered st n a.d) m (fun a => Ordered (restamp st n (m.inserts cfg act))
        (n + 1) a.d)
      (ledger_keeps (fun _ _ _ h => h) m0.k.aside) g r F hi hl ho m' rs act hok hok hs hring hring
      (fun c hg h _ => h.serve hg c) (fun hat hg h hm => h.mid hat hg hok hm)
    exact ⟨g', r', F', hi', hl', ho'⟩

/-- The call returned `E_OK`. -/
def Sys.succeeded (m : Sys) : Prop := m.log.getLast?.bind Entry.okVal = some 0

instance (m : Sys) : Decidable m.succeeded := inferInstanceAs (Decidable (_ = _))

section Facts

variable {g : Ghost} {r : Nat} {F : List Nat} {m' : Sys}

/-- A post that succeeds releases the head. -/
theorem postOk_lst (d : Data) (e0 v e : Nat) :
    (d.postOk e0 v).evt.lst e = if e0 = e then (d.evt.lst e).tail else d.evt.lst e := by
  unfold Data.postOk Data.release
  dsimp only
  cases hl : d.evt.lst e0 with
  | nil =>
    by_cases he : e0 = e
    · rw [if_pos he, ← he, hl]
      rfl
    · rw [if_neg he]
  | cons t l =>
    dsimp only
    by_cases he : e0 = e
    · rw [if_pos he, ← he, Family.take_lst_self, hl]
      rfl
    · rw [if_neg he, Family.take_lst_ne _ _ (Ne.symm he)]

theorem post_succeeded {d : Data} {k : EventType} {e v : Nat} (h : (d.post cfg k e v).2 = .E_OK) :
    (d.post cfg k e v).1 = d.postOk e v := by
  unfold Data.post at h ⊢
  split at h
  · exact nomatch h
  · next h1 =>
    split at h
    · exact absurd h fullStatus_ne
    · next h2 => rw [if_neg h1, if_neg h2]

theorem Inv.post_order (hi : Inv cfg m g r F) {k : EventType} {e0 v : Nat} (hk : k ≠ .invalid)
    (hs : m.step cfg [] (.call (.post k e0 v)) = some m') (hok : m'.succeeded) (e : Nat) :
    IsDList (m'.k.evtLinks e) (if e0 = e then (g.evt.lst e).tail else g.evt.lst e) := by
  obtain ⟨b, q, a1, b', q', g', r', F', hm, hi', habs⟩ :=
    hi.alone (show Fine cfg m [] (.call (.post k e0 v)) from hk) hs
  have hnew := hi'.stable.coh.rep.evt.double e rfl
  rw [show g'.evt = a1.d.evt from congrArg (·.d.evt) habs] at hnew
  unfold Sys.succeeded at hok
  rw [show m'.log = a1.log from congrArg Abs.log habs] at hok
  cases hm with
  | call hr h0 hx =>
    obtain rfl := hx
    let d := (m.k.data g).setRing b q
    have hd : (d.post cfg.served k e0 (k.mail v)).1 = d.postOk e0 (k.mail v) := by
      refine post_succeeded (not_not.mp fun hne => ?_)
      unfold Abs.after at hok
      rw [List.getLast?_concat, Option.bind_some] at hok
      exact absurd ((okVal_failed hne).symm.trans hok) nofun
    have hl := postOk_lst d e0 (k.mail v) e
    rw [← hd] at hl
    exact hl ▸ hnew

/-- A tick takes the tasks out whose delay has run out. -/
theorem Inv.tick_order (hi : Inv cfg m g r F) (hs : m.step cfg [] .tick = some m') (e : Nat) :
    IsDList (m'.k.evtLinks e) ((g.evt.lst e).filter fun t =>
      ¬ (m.k.delayTick t ≠ INVALID_VALUE ∧ m'.k.delayTick t = INVALID_VALUE)) := by
  obtain ⟨b, q, a1, b', q', g', r', F', hm, hi', habs⟩ :=
    hi.alone (show Fine cfg m [] .tick from trivial) hs
  have hnew := hi'.stable.coh.rep.evt.double e rfl
  cases hm with
  | @tick T hT =>
    have hlst : g'.evt.lst e = (g.evt.lst e).filter (· ∉ T) := congrArg (·.d.evt.lst e) habs
    have htimed : ∀ t, g'.tcb.loc t = some .dly ↔ t ∉ T ∧ g.tcb.loc t = some .dly := fun t =>
      iff_of_eq (congrArg (·.d.timed t) habs)
    have hlive : ∀ t, Live cfg.served g' t ↔ Live cfg.served g t := fun t =>
      iff_of_eq (congrArg (·.alive t) habs)
    rw [hlst] at hnew
    rw [← List.filter_congr fun t ht => ?_]
    · exact hnew
    · have hal := hi.stable.coh.evt_live ((hi.stable.coh.rep.evt.mem e t).mp ht)
      have h1 := hi.stable.coh.delayTick_iff hal
      have h2 := hi'.stable.coh.delayTick_iff ((hlive t).mpr hal)
      rw [htimed] at h2
      by_cases hd : m.k.delayTick t ≠ INVALID_VALUE
      · have h3 : m'.k.delayTick t ≠ INVALID_VALUE ↔ t ∉ T := by
          rw [h2]
          exact and_iff_left (h1.mp hd)
        by_cases hT' : t ∈ T
        · have h4 : m'.k.delayTick t = INVALID_VALUE := not_not.mp fun hc => h3.mp hc hT'
          simp [hT', hd, h4]
        · have h4 := h3.mpr hT'
          simp [hT', h4]
      · have hT' : t ∉ T := fun hc => hd (h1.mpr (hT t hc))
        simp [hT', not_not.mp hd]

/-- The deletion of a task takes it out. -/
theorem Inv.delete_order (hi : Inv cfg m g r F) {t : Nat} (ht : m.k.alive cfg t)
    (hs : m.step cfg [] (.call (.delTask t)) = some m') (hok : m'.succeeded) (e : Nat) :
    IsDList (m'.k.evtLinks e) ((g.evt.lst e).filter (· ≠ t)) := by
  obtain ⟨b, q, a1, b', q', g', r', F', hm, hi', habs⟩ :=
    hi.alone (show Fine cfg m [] (.call (.delTask t)) from ht) hs
  have hnew := hi'.stable.coh.rep.evt.double e rfl
  rw [show g'.evt = a1.d.evt from congrArg (·.d.evt) habs] at hnew
  unfold Sys.succeeded at hok
  rw [show m'.log = a1.log from congrArg Abs.log habs] at hok
  cases hm with
  | call hr h0 hx =>
    obtain ⟨st, hst, rfl⟩ | rfl := hx
    · unfold Abs.after at hok
      rw [List.getLast?_concat, Option.bind_some] at hok
      exact absurd ((okVal_failed hst).symm.trans hok) nofun
    · have heq : (g.evt.lst e).filter (· ≠ t) = (g.evt.lst e).filter (· ∉ [t]) :=
        List.filter_congr fun u _ => by simp
      rw [heq]
      exact hnew

end Facts

/-- The waiting list of `e` is `l`, in order, and what the next step can do to it. -/
structure InOrder (cfg : Env) (m : Sys) (st : Nat → Nat) (e : Nat) (l : List Nat) : Prop where
  list : IsDList (m.k.evtLinks e) l
  mem : ∀ t, t ∈ l ↔ m.k.alive cfg t ∧ m.k.state t = .WAITING ∧ m.k.eventID t = e
  blocked : ∀ t ∈ l, ∃ k n, m.cont t = .wait k e n
  fifo : m.k.eventSortType e = sortFifo → l.Pairwise fun t u => st t < st u
  prio : m.k.eventSortType e = sortPrio → l.Pairwise (Ranked m.k.prio st)
  post : ∀ k e0 v m', k ≠ .invalid → m.step cfg [] (.call (.post k e0 v)) = some m' → m'.succeeded →
    IsDList (m'.k.evtLinks e) (if e0 = e then l.tail else l)
  tick : ∀ m', m.step cfg [] .tick = some m' → IsDList (m'.k.evtLinks e) (l.filter fun t =>
    ¬ (m.k.delayTick t ≠ INVALID_VALUE ∧ m'.k.delayTick t = INVALID_VALUE))
  delete : ∀ t m', m.k.alive cfg t → m.step cfg [] (.call (.delTask t)) = some m' → m'.succeeded →
    IsDList (m'.k.evtLinks e) (l.filter (· ≠ t))

/-- The stamps of a run from the start, from what can be computed of its last state. -/
def stamped (cfg : Env) (ok : Sys → List SQC → Act → Prop) [∀ m rs a, Decidable (ok m rs a)] :
    Sys → (Nat → Nat) → Nat → List (List SQC × Act) → Option (Sys × (Nat → Nat) × Nat)
  | m, st, n, [] => some (m, st, n)
  | m, st, n, (rs, a) :: l =>
    if ok m rs a then (m.step cfg rs a).bind fun m' =>
      stamped cfg ok m' (restamp st n (m.inserts cfg a)) (n + 1) l
    else none

theorem stamped_arrivals {ok : Sys → List SQC → Act → Prop} [∀ m rs a, Decidable (ok m rs a)]
    (l : List (List SQC × Act)) : ∀ {m m' : Sys} {st st' : Nat → Nat} {n n' : Nat},
      Arrivals cfg ok m0 m st n → stamped cfg ok m st n l = some (m', st', n') →
      Arrivals cfg ok m0 m' st' n' := by
  induction l with
  | nil =>
    intro m m' st st' n n' h e
    cases e
    exact h
  | cons x l ih =>
    intro m m' st st' n n' h e
    unfold stamped at e
    split at e
    · next hok =>
      obtain ⟨m1, e1, e2⟩ := Option.bind_eq_some_iff.mp e
      exact ih (h.step hok e1) e2
    · exact nomatch e

end Runs

end CoOS
