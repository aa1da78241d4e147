/-
  What the calls of events have returned, against the record of the mails that were moved.

  A mail that a post hands to a waiting task is on its way until the task runs again and its
  pend returns. `Shift` says how one step changes what a task was handed and what it has got;
  the two agree but for tasks that are deleted and for the mail `0` handed to a task that waits
  with a timeout, which the returning pend takes for a timeout.
-/
import CoOS.Event.Flow
import CoOS.Lib.Merge
import CoOS.Run.Gap

namespace CoOS

open Function (update)

/-! ## Reading the log and the record -/

/-- The mail that the section took from `e` without waiting. -/
def Entry.took (e : Nat) (en : Entry) : Option Nat :=
  match en.op with
  | .inl (.accept k e') | .inl (.pend k e' _) => if e' = e then en.okVal.map k.mail else none
  | _ => none

/-- The mail that the section posted to `e`. -/
def Entry.sent (e : Nat) (en : Entry) : Option Nat :=
  match en.op with
  | .inl (.post k e' v) => if e' = e then en.okVal.map fun _ => k.mail v else none
  | _ => none

/-- The mails that the deferred requests posted to `e`. -/
def drained (e : Nat) (as : List (SQC × StatusType)) : List Nat :=
  as.filterMap fun x => SQC.sent e x.1 x.2

/-- The mail with which the task `t` came back from waiting for `e`. -/
def Entry.got (t e : Nat) (en : Entry) : Option Nat :=
  match en.op with
  | .inr (.wait _ e' _) => if en.task = t ∧ e' = e then en.okVal else none
  | _ => none

/-- The mails of `e` with the fate `f`. -/
def mails (e : Nat) (f : Fate) (ms : List Move) : List Nat :=
  ms.filterMap fun mv => if mv.id = e ∧ mv.fate = f then some mv.mail else none

/-- The mail on its way to `t`, which has waited for `e` and would return with it now. -/
def Abs.inFlight (a : Abs) (t e : Nat) : List Nat :=
  match a.cont t with
  | .wait _ e' n => if e' = e ∧ a.d.evt.loc t = none ∧ (n = 0 ∨ a.d.aside.pmail t ≠ 0)
      then [a.d.aside.pmail t] else []
  | _ => []

/-- What `t` has got or will get. -/
def Abs.got (a : Abs) (t e : Nat) : List Nat := a.log.filterMap (Entry.got t e) ++ a.inFlight t e

def Abs.handed (a : Abs) (t e : Nat) : List Nat := mails e (.handed t) a.d.aside.moves

section Mails

variable {e e' v : Nat} {f f' : Fate} {ms ms' : List Move}

theorem mails_append : mails e f (ms ++ ms') = mails e f ms ++ mails e f ms' :=
  List.filterMap_append

theorem mails_self : mails e f [⟨e, v, f⟩] = [v] := by
  simp [mails]

/-- What one more item adds. -/
theorem filterMap_add {α : Type} (g : α → Option Nat) (xs : List α) (x : α) :
    (xs ++ [x]).filterMap g = xs.filterMap g ++ (g x).toList := by
  rw [List.filterMap_append]
  cases hx : g x with
  | none => rw [List.filterMap_cons_none hx]; rfl
  | some y => rw [List.filterMap_cons_some hx]; rfl

theorem mails_add : mails e f (ms ++ [⟨e', v, f'⟩]) =
    mails e f ms ++ (if e' = e ∧ f' = f then some v else none).toList :=
  filterMap_add _ ms _

theorem mails_ne (h : ¬ (e' = e ∧ f' = f)) : mails e f [⟨e', v, f'⟩] = [] := by
  simp [mails, h]

theorem handed_posted {t : Nat} : mails e (.handed t) [⟨e', v, .posted⟩] = [] :=
  mails_ne fun h => nomatch h.2

theorem handed_taken {t : Nat} : mails e (.handed t) [⟨e', v, .taken⟩] = [] :=
  mails_ne fun h => nomatch h.2

/-- What enters the event is what was posted to it. -/
theorem puts_eq (ms : List Move) : (history e ms).filterMap Fifo.Op.puts = mails e .posted ms := by
  unfold history mails
  rw [List.filterMap_map, List.filterMap_filter]
  refine List.filterMap_congr fun mv _ => ?_
  obtain ⟨id, v, f⟩ := mv
  by_cases hid : id = e
  · cases f <;> simp [hid, Move.op, Fifo.Op.puts]
  · simp [hid]

end Mails

section Silent

variable {en : Entry} {e t : Nat}

theorem Entry.silent.took (h : en.silent) : en.took e = none := by
  unfold Entry.silent at h
  unfold Entry.took
  split
  · next h1 =>
    rw [h1] at h
    rw [show en.okVal = none from h, Option.map_none, ite_self]
  · next h1 =>
    rw [h1] at h
    rw [show en.okVal = none from h, Option.map_none, ite_self]
  · rfl

theorem Entry.silent.sent (h : en.silent) : en.sent e = none := by
  unfold Entry.silent at h
  unfold Entry.sent
  split
  · next h1 =>
    rw [h1] at h
    rw [show en.okVal = none from h, Option.map_none, ite_self]
  · rfl

theorem Entry.silent.got (h : en.silent) : en.got t e = none := by
  unfold Entry.silent at h
  unfold Entry.got
  split
  · next h1 =>
    rw [h1] at h
    exact h.elim
  · rfl

end Silent

/-! ## One step -/

/-- How a step changes what the tasks were handed and what they have got. -/
inductive Shift (a a' : Abs) : Prop
  | same (h : ∀ t e, a'.got t e = a.got t e ∧ a'.handed t e = a.handed t e)
  | handed {t e x : Nat} {y : List Nat} {ms : List Move}
      (hm : a'.d.aside.moves = a.d.aside.moves ++ ms)
      (hx : ⟨e, x, .handed t⟩ ∈ ms) (ha : a.alive t) (hc : a'.cont t = a.cont t)
      (hy : y = [x] ∨ (y = [] ∧ x = 0 ∧ ∃ k n, a.cont t = .wait k e n ∧ n ≠ 0))
      (h1 : a'.got t e = a.got t e ++ y) (h2 : a'.handed t e = a.handed t e ++ [x])
      (h : ∀ t' e', ¬ (t' = t ∧ e' = e) → a'.got t' e' = a.got t' e' ∧
        a'.handed t' e' = a.handed t' e')
  | lost {t : Nat} (ha : a.alive t) (ha' : ¬ a'.alive t)
      (h1 : ∀ e, ∃ y, a.got t e = a'.got t e ++ y)
      (h2 : ∀ e, a'.handed t e = a.handed t e)
      (h : ∀ t' e, t' ≠ t → a'.got t' e = a.got t' e ∧ a'.handed t' e = a.handed t' e)

section Shift

variable {cfg : Env} {a a' : Abs} {r t e : Nat}

theorem inFlight_congr (hc : a'.cont t = a.cont t) (hl : a'.d.evt.loc t = a.d.evt.loc t)
    (hp : a'.d.aside.pmail t = a.d.aside.pmail t) : a'.inFlight t e = a.inFlight t e := by
  unfold Abs.inFlight
  rw [hc, hl, hp]

theorem inFlight_nil (h : ∀ k n, a.cont t ≠ .wait k e n) : a.inFlight t e = [] := by
  unfold Abs.inFlight
  split
  · next k e' n hc =>
    refine if_neg fun h1 => h k n ?_
    rw [hc, h1.1]
  · rfl

theorem inFlight_idle (h : a.cont t = .none) : a.inFlight t e = [] := by
  unfold Abs.inFlight
  rw [h]

theorem inFlight_listed {e' : Nat} (h : a.d.evt.loc t = some e') : a.inFlight t e = [] := by
  unfold Abs.inFlight
  split
  · refine if_neg fun h1 => ?_
    rw [h] at h1
    exact nomatch h1.2.1
  · rfl

theorem got_congr (hf : a'.inFlight t e = a.inFlight t e)
    (hl : a'.log.filterMap (Entry.got t e) = a.log.filterMap (Entry.got t e)) :
    a'.got t e = a.got t e := by
  unfold Abs.got
  rw [hf, hl]

theorem filterMap_silent {f : Entry → Option Nat} {en : Entry} {log : List Entry}
    (h : f en = none) :
    (log ++ [en]).filterMap f = log.filterMap f := by
  rw [List.filterMap_append, List.filterMap_cons_none h, List.filterMap_nil, List.append_nil]

theorem filterMap_one {f : Entry → Option Nat} {en : Entry} {log : List Entry} {v : Nat}
    (h : f en = some v) : (log ++ [en]).filterMap f = log.filterMap f ++ [v] := by
  rw [List.filterMap_append, List.filterMap_cons_some h, List.filterMap_nil]

theorem Shift.like {d : Data} (hl : Like a.d d) : Shift a { a with d := d } := by
  refine .same fun t e => ⟨got_congr (inFlight_congr rfl ?_ ?_) rfl, ?_⟩
  · exact congrFun (congrArg _ hl.evt) t
  · exact congrFun hl.pmail t
  · exact congrArg (mails e (.handed t)) hl.moves

/-- A post in the middle of a step, or the post of a call. -/
theorem Shift.post (hw : Waits a) (hwf : Wf cfg a.d) (ho : EventsOk a.d.aside)
    {k : EventType} {v : Nat}
    (hi : k ≠ .invalid) (hk : a.d.aside.eventType e = k) (hf : a.d.aside.full e = false)
    (hd : a'.d = a.d.postOk e (k.mail v)) (hc : ∀ t, a.d.evt.loc t ≠ none → a'.cont t = a.cont t)
    (hc' : ∀ t k e n, a'.cont t = .wait k e n ↔ a.cont t = .wait k e n)
    (hl : ∀ t e, a'.log.filterMap (Entry.got t e) = a.log.filterMap (Entry.got t e)) :
    Shift a a' := by
  have hcase : ∀ {t e}, a'.d.evt.loc t = a.d.evt.loc t → a'.d.aside.pmail t = a.d.aside.pmail t →
      a'.got t e = a.got t e := by
    intro t e h1 h2
    refine got_congr ?_ (hl t e)
    by_cases hwt : ∃ k n, a.cont t = .wait k e n
    · obtain ⟨k, n, hwt⟩ := hwt
      exact inFlight_congr (((hc' t k e n).mpr hwt).trans hwt.symm) h1 h2
    · rw [inFlight_nil fun k n hx => hwt ⟨k, n, hx⟩,
        inFlight_nil fun k n hx => hwt ⟨k, n, (hc' ..).mp hx⟩]
  rcases postOk_cases ho (by rw [hk]; exact hi) hf (fun hs => mail_sem (hk.symm.trans hs)) with
    ⟨-, hp⟩ | ⟨t, x, l, rest, hp⟩
  · refine .same fun t e' => ⟨hcase (by rw [hd, hp.evt]) (by rw [hd, hp.pmail]), ?_⟩
    unfold Abs.handed
    rw [hd, hp.moves, mails_append, handed_posted, List.append_nil]
  · have hloc : a.d.evt.loc t = some e :=
      (hwf.evt.mem e t).mp (by rw [hp.lst]; exact List.mem_cons_self)
    obtain ⟨k', n, h1, -⟩ := hw.loc t e hloc
    have hal : a.alive t := by
      by_contra hal
      rw [(hw.dead t hal).2] at hloc
      exact nomatch hloc
    have hct : a'.cont t = .wait k' e n := (hc t (by rw [hloc]; exact nofun)).trans h1
    have hlt : a'.d.evt.loc t = none := by
      rw [hd, hp.evt]
      exact DList.Family.take_loc_self ..
    have hpm : a'.d.aside.pmail t = x := by
      rw [hd, hp.pmail, Function.update_self]
    refine @Shift.handed a a' t e x (a'.inFlight t e) [⟨e, k.mail v, .posted⟩, ⟨e, x, .handed t⟩]
      (by rw [hd, hp.moves]) (by simp) hal (hct.trans h1.symm) ?_ ?_ ?_ fun t' e' hne => ⟨?_, ?_⟩
    · unfold Abs.inFlight
      rw [hct, hlt, hpm]
      by_cases hn : n = 0 ∨ x ≠ 0
      · exact Or.inl (if_pos ⟨rfl, rfl, hn⟩)
      · obtain ⟨h2, h3⟩ := not_or.mp hn
        exact Or.inr ⟨if_neg fun h => hn h.2.2, not_not.mp h3, k', n, h1, h2⟩
    · unfold Abs.got
      rw [hl, inFlight_listed hloc, List.append_nil]
    · unfold Abs.handed
      rw [hd, hp.moves, mails_append]
      congr 1
      rw [← List.singleton_append, mails_append, handed_posted, mails_self]
      rfl
    · by_cases ht : t' = t
      · subst ht
        have hee : e' ≠ e := fun h => hne ⟨rfl, h⟩
        refine got_congr ?_ (hl t' e')
        rw [inFlight_listed hloc, inFlight_nil]
        intro k2 n2 h2
        rw [hct] at h2
        cases h2
        exact hee rfl
      · refine hcase ?_ ?_
        · rw [hd, hp.evt]
          exact DList.Family.take_loc_ne _ _ ht
        · rw [hd, hp.pmail, Function.update_of_ne ht]
    · unfold Abs.handed
      rw [hd, hp.moves, mails_append, ← List.singleton_append, mails_append,
        handed_posted, mails_ne, List.append_nil, List.append_nil]
      rintro ⟨rfl, h2⟩
      injection h2 with h2
      exact hne ⟨h2.symm, rfl⟩

/-- The running task `r` is in no pend, or enters one; nobody is handed a mail. -/
theorem shift_run (hr : ∀ e, a.inFlight r e = []) (hr' : ∀ e, a'.inFlight r e = [])
    (hc : ∀ t, t ≠ r → a'.cont t = a.cont t) (hl : ∀ t, t ≠ r → a'.d.evt.loc t = a.d.evt.loc t)
    (hp : ∀ t, t ≠ r → a'.d.aside.pmail t = a.d.aside.pmail t)
    (hg : ∀ t e, a'.log.filterMap (Entry.got t e) = a.log.filterMap (Entry.got t e))
    (hm : ∀ t e, a'.handed t e = a.handed t e) : Shift a a' := by
  refine .same fun t e => ⟨got_congr ?_ (hg t e), hm t e⟩
  by_cases ht : t = r
  · rw [ht, hr, hr']
  · exact inFlight_congr (hc t ht) (hl t ht) (hp t ht)

theorem inFlight_update {c : Cont} {d : Data} {alive : Nat → Prop} {log : List Entry}
    (h : ∀ k n, c ≠ .wait k e n) : Abs.inFlight ⟨d, alive, update a.cont r c, log⟩ r e = [] := by
  refine inFlight_nil fun k n hw => h k n ?_
  exact (Function.update_self r c a.cont).symm.trans hw

/-- The pend of `r` returns. -/
theorem Shift.back (hcl : Caller cfg a r) {k : EventType} {e n : Nat}
    (h0 : a.cont r = .wait k e n) :
    Shift a ⟨(a.d.pendReturn r n).1, a.alive, update a.cont r .none,
      a.log ++ [⟨r, .inr (.wait k e n), some (a.d.pendReturn r n).2⟩]⟩ := by
  have hmoves : (a.d.pendReturn r n).1.aside.moves = a.d.aside.moves := by
    unfold Data.pendReturn
    split
    · rfl
    · rfl
  obtain ⟨hev, -⟩ := pendReturn_lists a.d r n
  have hother : ∀ {t e'}, ¬ (r = t ∧ e = e') →
      Entry.got t e' ⟨r, .inr (.wait k e n), some (a.d.pendReturn r n).2⟩ = none := by
    intro t e' hne
    exact if_neg hne
  refine .same fun t e' => ⟨?_, ?_⟩
  · unfold Abs.got
    by_cases ht : t = r
    · subst ht
      rw [inFlight_idle (Function.update_self ..), List.append_nil]
      by_cases he : e' = e
      · subst he
        have hfl : a.inFlight t e' =
            if n = 0 ∨ a.d.aside.pmail t ≠ 0 then [a.d.aside.pmail t] else [] := by
          unfold Abs.inFlight
          rw [h0]
          dsimp only
          simp only [hcl.evt, true_and]
        rw [hfl]
        by_cases hn : n ≠ 0 ∧ a.d.aside.pmail t = 0
        · rw [if_neg (by omega), List.append_nil]
          refine filterMap_silent ?_
          unfold Data.pendReturn
          rw [if_pos hn]
          exact ite_self _
        · rw [if_pos (by omega)]
          refine filterMap_one ?_
          unfold Data.pendReturn
          rw [if_neg hn]
          exact if_pos ⟨rfl, rfl⟩
      · rw [filterMap_silent (hother fun h => he h.2.symm), inFlight_nil, List.append_nil]
        intro k' n' h1
        rw [h0] at h1
        cases h1
        exact he rfl
    · rw [filterMap_silent (hother fun h => ht h.1.symm)]
      congr 1
      refine inFlight_congr (Function.update_of_ne ht ..) (by rw [hev]) ?_
      rw [pendReturn_pmail, Function.update_of_ne ht]
  · unfold Abs.handed
    rw [hmoves]

/-- Delays run out. -/
theorem Shift.tick (hw : Waits a) {T : List Nat} (hT : ∀ t ∈ T, a.d.timed t) :
    Shift a { a with d := a.d.expire T } := by
  have hpart := expire_evtPart a.d T
  have hpm : (a.d.expire T).aside.pmail = a.d.aside.pmail := congrArg EvtPart.pmail hpart
  have hloc : ∀ t, (a.d.expire T).evt.loc t = if t ∈ T then none else a.d.evt.loc t := fun _ => rfl
  refine .same fun t e => ⟨got_congr ?_ rfl, ?_⟩
  · by_cases hl : t ∈ T ∧ a.d.evt.loc t ≠ none
    · obtain ⟨h1, h2⟩ := hl
      obtain ⟨e0, he0⟩ := Option.ne_none_iff_exists'.mp h2
      obtain ⟨k, n, h3, h4⟩ := hw.loc t e0 he0
      -- it has waited with a timeout, and no mail is on its way to it
      have hn : n ≠ 0 := fun hn => h4 hn (hT t h1)
      have hal : a.alive t := by
        by_contra hd
        exact h2 (hw.dead t hd).2
      have hp0 : a.d.aside.pmail t = 0 := by
        by_contra hp
        exact h2 (hw.mail t hal hp).1
      rw [inFlight_listed he0]
      unfold Abs.inFlight
      dsimp only
      rw [h3, hpm, hp0]
      exact if_neg fun h => h.2.2.elim hn fun h => h rfl
    · refine inFlight_congr rfl ?_ (by rw [hpm])
      change (a.d.expire T).evt.loc t = _
      rw [hloc]
      split
      · next h1 => exact (not_not.mp (not_and.mp hl h1)).symm
      · rfl
  · unfold Abs.handed
    rw [show (a.d.expire T).aside.moves = a.d.aside.moves from congrArg EvtPart.moves hpart]

/-- The task `t` ends. -/
theorem Shift.delete (hw : Waits a) (hal : a'.alive = fun u => u ≠ t ∧ a.alive u)
    (hd : a'.d = a.d.delete t) (hct : a'.cont t = .none)
    (hc : ∀ u, u ≠ t → ∀ k e n, a'.cont u = .wait k e n ↔ a.cont u = .wait k e n)
    (hg : ∀ t e, a'.log.filterMap (Entry.got t e) = a.log.filterMap (Entry.got t e)) :
    Shift a a' := by
  have hpart := expire_evtPart a.d [t]
  have hpm : a'.d.aside.pmail = a.d.aside.pmail := by
    rw [hd]
    exact congrArg EvtPart.pmail hpart
  have hmv : ∀ u e, a'.handed u e = a.handed u e := by
    intro u e
    unfold Abs.handed
    rw [hd, show (a.d.delete t).aside.moves = a.d.aside.moves from congrArg EvtPart.moves hpart]
  have hoth : ∀ u e, u ≠ t → a'.got u e = a.got u e := by
    intro u e hu
    refine got_congr ?_ (hg u e)
    by_cases hwt : ∃ k n, a.cont u = .wait k e n
    · obtain ⟨k, n, hwt⟩ := hwt
      refine inFlight_congr (((hc u hu k e n).mpr hwt).trans hwt.symm) ?_ (by rw [hpm])
      rw [hd]
      exact if_neg (by simpa using hu)
    · rw [inFlight_nil fun k n hx => hwt ⟨k, n, hx⟩,
        inFlight_nil fun k n hx => hwt ⟨k, n, (hc u hu k e n).mp hx⟩]
  have hnil : ∀ e, a'.inFlight t e = [] := fun e => inFlight_idle hct
  by_cases ha : a.alive t
  · refine .lost ha (by rw [hal]; exact fun h => h.1 rfl) (fun e => ⟨a.inFlight t e, ?_⟩) (hmv t)
      fun u e hu => ⟨hoth u e hu, hmv u e⟩
    unfold Abs.got
    rw [hg, hnil, List.append_nil]
  · refine .same fun u e => ⟨?_, hmv u e⟩
    by_cases hu : u = t
    · rw [hu]
      refine got_congr ?_ (hg t e)
      rw [hnil, inFlight_idle (hw.dead t ha).1]
    · exact hoth u e hu

/-- **Every effect of a step is a shift** -/
theorem Turn.shift {act : Act} {a1 : Abs} (h : Turn cfg r a act a1) (hw : Waits a)
    (hwf : Wf cfg a.d)
    (ho : EventsOk a.d.aside) (hcl : Caller cfg a r) : Shift a a1 := by
  have hidle : a.cont r = .none → ∀ e, a.inFlight r e = [] := fun h0 e =>
    inFlight_idle h0
  have hstill : ∀ {en : Entry}, en.silent → ∀ t e,
      (a.log ++ [en]).filterMap (Entry.got t e) = a.log.filterMap (Entry.got t e) := fun he t e =>
    filterMap_silent he.got
  cases h with
  | @quiet _ d c en hr hd ht hc he =>
    refine shift_run (fun e => inFlight_nil fun k n hw => ?_)
      (fun e => inFlight_update fun k n hw => ?_)
      (fun t ht => Function.update_of_ne ht ..) (fun t _ => congrFun (congrArg _ hd.evt) t)
      (fun t _ => congrFun hd.like.pmail t) (hstill he) fun t e => ?_
    · rw [hw] at hr
      exact hr
    · rw [hw] at hc
      exact hc
    · exact congrArg (mails e (.handed t)) hd.like.moves
  | ask h0 hk hs =>
    exact shift_run (hidle h0) (fun e => inFlight_update fun _ _ => nofun)
      (fun t ht => Function.update_of_ne ht ..) (fun _ _ => rfl) (fun _ _ => rfl)
      (fun t e => filterMap_silent rfl) fun _ _ => rfl
  | @take c k e v l hc h0 hk hs =>
    have hg : ∀ t e' ret, Entry.got t e' ⟨r, .inl c, ret⟩ = none := fun _ _ _ => rfl
    refine shift_run (hidle h0) (fun e => inFlight_idle (Function.update_self ..))
      (fun t ht => Function.update_of_ne ht ..) (fun _ _ => rfl)
      (fun t _ => congrFun (pop_rest a.d.aside e).pmail t) (fun t e' => filterMap_silent (hg ..))
      fun t e' => ?_
    change mails e' (.handed t) ((a.d.aside.pop e).moves ++ [⟨e, v, .taken⟩]) = _
    rw [(pop_rest a.d.aside e).moves, mails_append, handed_taken, List.append_nil]
    rfl
  | post h0 hk hi hf =>
    refine Shift.post hw hwf ho hi hk.2 hf rfl (fun t ht => Function.update_of_ne ?_ ..)
      (fun t k e n => ?_) fun t e => filterMap_silent rfl
    · rintro rfl
      exact ht hcl.evt
    · dsimp only
      by_cases ht : t = r
      · rw [ht, Function.update_self, h0]
      · rw [Function.update_of_ne ht]
  | @create _ i p w en h0 ha he =>
    obtain ⟨hci, -⟩ := hw.dead i ha
    have hir : i ≠ r := fun e => ha (e ▸ hcl.alive)
    refine .same fun t e => ⟨got_congr ?_ (hstill he t e), rfl⟩
    by_cases ht : t = r
    · rw [ht, hidle h0]
      exact inFlight_idle (Function.update_self ..)
    · by_cases hti : t = i
      · rw [hti, inFlight_idle hci]
        exact inFlight_idle ((Function.update_of_ne hir ..).trans hci)
      · exact inFlight_congr (Function.update_of_ne ht ..) rfl (Function.update_of_ne hti ..)
  | @delete c t en hc h0 he =>
    refine Shift.delete hw rfl rfl (Function.update_self ..) (fun u hu k e n => ?_) (hstill he)
    dsimp only
    rw [Function.update_of_ne hu]
    by_cases hur : u = r
    · rw [hur, Function.update_self, h0]
    · rw [Function.update_of_ne hur]
  | @setPrio t p en h0 hp he =>
    have hpm : (a.d.setPrio t p).aside.pmail = a.d.aside.pmail := by rw [setPrio_aside]
    have hmv : (a.d.setPrio t p).aside.moves = a.d.aside.moves := by rw [setPrio_aside]
    refine shift_run (hidle h0) (fun e => inFlight_idle (Function.update_self ..))
      (fun u hu => Function.update_of_ne hu ..) (fun u _ => setPrio_loc a.d t p u)
      (fun u _ => congrFun hpm u) (hstill he) fun u e => congrArg (mails e (.handed u)) hmv
  | @wait k e n h0 =>
    refine shift_run (fun e' => inFlight_nil (by rw [h0]; exact fun _ _ => nofun)) (fun e' => ?_)
      (fun t ht => Function.update_of_ne ht ..) (fun t ht => DList.Family.put_loc_ne _ _ ht)
      (fun _ _ => rfl) (fun t e' => filterMap_silent rfl) fun _ _ => rfl
    exact inFlight_listed (show (a.d.wait e r n).evt.loc r =
      some e from DList.Family.put_loc_self ..)
  | back h0 => exact Shift.back hcl h0
  | tick hT => exact Shift.tick hw hT

end Shift

/-! ## Along runs -/

/-- What the calls have returned is what was moved. -/
structure Served (a : Abs) : Prop where
  took : ∀ e, a.log.filterMap (Entry.took e) = mails e .taken a.d.aside.moves
  sent : ∀ e, Merge (a.log.filterMap (Entry.sent e)) (drained e a.d.aside.answers)
    (mails e .posted a.d.aside.moves)
  got : ∀ t e, (a.got t e).Sublist (a.handed t e)

section Served

variable {cfg : Env} {ok : Sys → List SQC → Act → Prop} {a a' : Abs} {r : Nat}

theorem Shift.sublist (h : Shift a a') (hs : ∀ t e, (a.got t e).Sublist (a.handed t e))
    (t e : Nat) :
    (a'.got t e).Sublist (a'.handed t e) := by
  cases h with
  | same h =>
    rw [(h t e).1, (h t e).2]
    exact hs t e
  | @handed t0 e0 x y ms hm hx ha hc hy h1 h2 h =>
    by_cases hte : t = t0 ∧ e = e0
    · obtain ⟨rfl, rfl⟩ := hte
      rw [h1, h2]
      refine (hs t e).append ?_
      rcases hy with rfl | ⟨rfl, -⟩
      · exact List.Sublist.refl _
      · exact List.nil_sublist _
    · rw [(h t e hte).1, (h t e hte).2]
      exact hs t e
  | @lost t0 _ _ h1 h2 h =>
    by_cases ht : t = t0
    · subst ht
      obtain ⟨y, hy⟩ := h1 e
      rw [h2]
      have := hs t e
      rw [hy] at this
      exact (List.sublist_append_left _ _).trans this
    · rw [(h t e ht).1, (h t e ht).2]
      exact hs t e

/-- Nothing is taken or sent. -/
theorem Served.still (h : Served a) (hs : Shift a a')
    (ht : ∀ e, a'.log.filterMap (Entry.took e) = a.log.filterMap (Entry.took e))
    (hse : ∀ e, a'.log.filterMap (Entry.sent e) = a.log.filterMap (Entry.sent e))
    (hd : ∀ e, drained e a'.d.aside.answers = drained e a.d.aside.answers)
    (hm : a'.d.aside.moves = a.d.aside.moves) : Served a' := by
  refine ⟨fun e => ?_, fun e => ?_, hs.sublist h.got⟩
  · rw [ht, hm]
    exact h.took e
  · rw [hse, hd, hm]
    exact h.sent e

/-- The record of a post. -/
theorem postOk_moves {d : Data} {k : EventType} {e v : Nat} (ho : EventsOk d.aside)
    (hi : k ≠ .invalid) (hk : d.aside.eventType e = k) (hf : d.aside.full e = false) :
    ∃ ms, (d.postOk e (k.mail v)).aside.moves = d.aside.moves ++ ms ∧
      mails e .posted ms = [k.mail v] ∧ (∀ e', e' ≠ e → mails e' .posted ms = []) ∧
      ∀ e', mails e' .taken ms = [] := by
  rcases postOk_cases ho (by rw [hk]; exact hi) hf (fun hs => mail_sem (hk.symm.trans hs)) with
    ⟨-, hp⟩ | ⟨t, x, l, rest, hp⟩
  · exact ⟨_, hp.moves, mails_self, fun e' he => mails_ne fun h => he h.1.symm,
      fun e' => mails_ne fun h => nomatch h.2⟩
  · refine ⟨_, hp.moves, ?_, fun e' he => ?_, fun e' => ?_⟩
    · simp [mails]
    · simp [mails, Ne.symm he]
    · simp [mails]

/-- A post that succeeds puts in its mail, and nothing is taken. -/
theorem postOk_mails {d : Data} {k : EventType} {e v : Nat} (ho : EventsOk d.aside)
    (hi : k ≠ .invalid) (hk : d.aside.eventType e = k) (hf : d.aside.full e = false) (e' : Nat) :
    mails e' .taken (d.postOk e (k.mail v)).aside.moves = mails e' .taken d.aside.moves ∧
      mails e' .posted (d.postOk e (k.mail v)).aside.moves =
        mails e' .posted d.aside.moves ++ (if e = e' then some (k.mail v) else none).toList := by
  obtain ⟨ms, h1, h2, h3, h4⟩ := postOk_moves (v := v) ho hi hk hf
  rw [h1, mails_append, mails_append, h4, List.append_nil]
  refine ⟨rfl, ?_⟩
  by_cases he : e = e'
  · rw [← he, h2, if_pos rfl]
    rfl
  · rw [h3 e' (Ne.symm he), if_neg he]
    rfl

/-- What an accept that took `v` returns: a token has no mail. -/
theorem mail_taken {b : Aside} {k : EventType} {e v : Nat} {l : List Nat}
    (hk : b.eventType e = k) (hs : b.stored e = v :: l) :
    k.mail (if k = .sem then 0 else v) = v := by
  cases k with
  | sem => exact (stored_cons_sem hk hs).1.symm
  | _ => rfl

theorem handOver_answers (b : Aside) (e t : Nat) : (b.handOver e t).answers = b.answers := by
  unfold Aside.handOver
  split
  · rfl
  · split
    · rfl
    · rfl
  · rfl
  · rfl

theorem postOk_answers (d : Data) (e v : Nat) : (d.postOk e v).aside.answers = d.aside.answers := by
  have hstore := (store_rest d.aside e v).answers
  unfold Data.postOk Data.release
  split
  · exact hstore
  · exact (handOver_answers ..).trans hstore

/-- The effect of a step answers no request. -/
theorem Turn.answers {act : Act} {a1 : Abs} (h : Turn cfg r a act a1) :
    a1.d.aside.answers = a.d.aside.answers := by
  cases h with
  | quiet hr hd ht hc he => exact congrArg EvtPart.answers hd.part
  | ask h0 hk hs => rfl
  | @take c k e v l hc h0 hk hs => exact (pop_rest a.d.aside e).answers
  | post h0 hk hi hf => exact postOk_answers ..
  | create h0 ha he => rfl
  | delete hc h0 he => exact congrArg EvtPart.answers (expire_evtPart a.d _)
  | setPrio h0 hp he =>
    dsimp only
    rw [setPrio_aside]
  | wait h0 => rfl
  | back h0 =>
    dsimp only
    unfold Data.pendReturn
    split
    · rfl
    · rfl
  | tick hT => exact congrArg EvtPart.answers (expire_evtPart a.d _)

theorem Entry.took_call {r k e e' v c} (h : c = Call.accept k e ∨ ∃ n, c = .pend k e n) :
    Entry.took e' ⟨r, .inl c, some (v, .E_OK)⟩ = if e = e' then some (k.mail v) else none := by
  rcases h with rfl | ⟨n, rfl⟩
  · rfl
  · rfl

theorem Entry.sent_call (r : Nat) (k : EventType) (e e' v : Nat) :
    Entry.sent e' ⟨r, .inl (.post k e v), some (0, .E_OK)⟩ =
      if e = e' then some (k.mail v) else none := rfl

theorem drained_add (e : Nat) (as : List (SQC × StatusType)) (c : SQC) (st : StatusType) :
    drained e (as ++ [(c, st)]) = drained e as ++ (c.sent e st).toList :=
  filterMap_add _ as (c, st)

theorem SQC.sent_ok {c : SQC} (hc : c.type ≠ .FLAG_REQ) (e : Nat) :
    c.sent e .E_OK = if c.id = e then some c.mail else none :=
  if_congr ((and_iff_right hc).trans (and_iff_left rfl)) rfl rfl

theorem served_keeps (hfine : ∀ m rs act, ok m rs act → Fine cfg m rs act) :
    Keeps cfg ok (fun a => EventsOk a.d.aside ∧ Waits a) Served := by
  refine Keeps.answered hfine (fun _ h _ => h.1) (fun {a d} hl ha _ h => ?_)
    (fun {a c st} hc h => ?_)
    (fun {a} c hg hw hc hk hf h => ?_) fun {m rs act a a1 r} _ hat hg h ht => ?_
  · exact h.still (Shift.like hl) (fun _ => rfl) (fun _ => rfl)
      (fun e => congrArg (drained e) ha) hl.moves
  · refine h.still (Shift.like (like_answer a.d c st)) (fun _ => rfl) (fun _ => rfl)
      (fun e => ?_) rfl
    refine (drained_add e _ c st).trans ?_
    rw [hc, Option.toList_none, List.append_nil]
  · -- the record of the post, and the answer
    have hs : Shift a { a with d := a.d.postOk c.id c.mail } :=
      Shift.post hg.2 hw hg.1 (kind_ne hc) hk.2 hf rfl (fun _ _ => rfl) (fun _ _ _ _ => Iff.rfl)
        fun _ _ => rfl
    have hm := @postOk_mails a.d c.kind c.id c.arg hg.1 (kind_ne hc) hk.2 hf
    refine ⟨fun e => (h.took e).trans (hm e).1.symm, fun e => ?_, hs.sublist h.got⟩
    change Merge (a.log.filterMap (Entry.sent e))
      (drained e ((a.d.postOk c.id c.mail).aside.answers ++ [(c, .E_OK)]))
      (mails e .posted (a.d.postOk c.id c.mail).aside.moves)
    rw [drained_add, postOk_answers, c.sent_ok hc, SQC.mail, (hm e).2]
    exact (h.sent e).rightOpt _
  · have hs := ht.shift hg.2 hat.wf hg.1 hat.caller
    have hdr : ∀ e, drained e a1.d.aside.answers = drained e a.d.aside.answers := fun e =>
      congrArg (drained e) ht.answers
    have hstill : ∀ {en : Entry}, a1.log = a.log ++ [en] → (∀ e, en.took e = none) →
        (∀ e, en.sent e = none) → a1.d.aside.moves = a.d.aside.moves → Served a1 := by
      intro en h1 h2 h3 h4
      refine h.still hs (fun e => ?_) (fun e => ?_) hdr h4
      · rw [h1]
        exact filterMap_silent (h2 e)
      · rw [h1]
        exact filterMap_silent (h3 e)
    cases ht with
    | quiet hr hd ht hc he => exact hstill rfl (fun _ => he.took) (fun _ => he.sent) hd.like.moves
    | ask h0 hk hst => exact hstill rfl (fun _ => ite_self _) (fun _ => rfl) rfl
    | @take c k e v l hc h0 hk hst =>
      have hmv : ((a.d.aside.pop e).note e v .taken).moves = a.d.aside.moves ++ [⟨e, v, .taken⟩] :=
        congrArg (· ++ [Move.mk e v .taken]) (pop_rest a.d.aside e).moves
      refine ⟨fun e' => ?_, fun e' => ?_, hs.sublist h.got⟩
      · rw [hmv, mails_add, filterMap_add, Entry.took_call hc, mail_taken hk.2 hst, h.took e']
        exact congrArg (fun o : Option Nat => _ ++ o.toList)
          (if_congr (and_iff_left rfl).symm rfl rfl)
      · have hsent : Entry.sent e' ⟨r, .inl c, some (if k = .sem then 0 else v, .E_OK)⟩ = none := by
          rcases hc with rfl | ⟨n, rfl⟩
          · rfl
          · rfl
        have hn : ¬ (e = e' ∧ Fate.taken = .posted) := fun h => nomatch h.2
        rw [hdr, filterMap_silent hsent, hmv, mails_append, mails_ne hn, List.append_nil]
        exact h.sent e'
    | @post k e v h0 hk hi hf =>
      have hm := @postOk_mails a.d k e v hg.1 hi hk.2 hf
      refine ⟨fun e' => ?_, fun e' => ?_, hs.sublist h.got⟩
      · rw [filterMap_silent rfl]
        exact (h.took e').trans (hm e').1.symm
      · rw [hdr, filterMap_add, Entry.sent_call, (hm e').2]
        exact (h.sent e').leftOpt _
    | create h0 ha he => exact hstill rfl (fun _ => he.took) (fun _ => he.sent) rfl
    | delete hc h0 he =>
      exact hstill rfl (fun _ => he.took) (fun _ => he.sent)
        (congrArg EvtPart.moves (expire_evtPart a.d _))
    | setPrio h0 hp he =>
      refine hstill rfl (fun _ => he.took) (fun _ => he.sent) ?_
      dsimp only
      rw [setPrio_aside]
    | wait h0 => exact hstill rfl (fun _ => rfl) (fun _ => rfl) rfl
    | back h0 =>
      refine hstill rfl (fun _ => rfl) (fun _ => rfl) ?_
      dsimp only
      unfold Data.pendReturn
      split
      · rfl
      · rfl
    | tick hT =>
      exact h.still hs (fun _ => rfl) (fun _ => rfl) hdr
        (congrArg EvtPart.moves (expire_evtPart a.d _))

end Served

/-! ## The kinds of the events -/

/-- The events of `init` are of the same kind in `a`. -/
structure Kinds (init a : Aside) : Prop where
  type : a.eventType = init.eventType
  sort : a.eventSortType = init.eventSortType
  init : a.initialEventCounter = init.initialEventCounter

/-- A call that succeeds is one of the kind of its event. -/
def Entry.Typed (ty : Nat → EventType) (en : Entry) : Prop :=
  match en.op with
  | .inl (.accept k e) | .inl (.pend k e _) | .inl (.post k e _) => en.okVal ≠ none → ty e = k
  | .inr (.wait k e _) => ty e = k
  | _ => True

section Kinds

variable {cfg : Env} {ok : Sys → List SQC → Act → Prop} {init a a' : Aside}

theorem Kinds.fixed (h : Kinds init a) (hf : a'.fixed = a.fixed) : Kinds init a' :=
  ⟨(congrArg Fixed.eventType hf).trans h.type, (congrArg Fixed.eventSortType hf).trans h.sort,
    (congrArg Fixed.initialEventCounter hf).trans h.init⟩

theorem kinds_keeps : Keeps cfg ok (fun _ => True) fun a => Kinds init a.d.aside := by
  refine ⟨fun b q h => ⟨h.type, h.sort, h.init⟩, fun c _ h _ => h.fixed (serve_fixed ..),
    fun {m rs act a a1 r} _ _ _ h hm => ?_⟩
  cases hm with
  | call hr h0 hx =>
    rcases hx.fixed with ⟨e, -⟩ | ⟨i, e, -⟩
    · exact h.fixed e
    · exact ⟨(congrArg Fixed.eventType e).trans h.type,
        (congrArg Fixed.eventSortType e).trans h.sort,
        (congrArg Fixed.initialEventCounter e).trans h.init⟩
  | resume h0 hx => exact h.fixed hx.fixed.1
  | tick hT => exact h.fixed (congrArg EvtPart.fixed (expire_evtPart ..))

theorem Entry.silent.typed {en : Entry} (h : en.silent) (ty : Nat → EventType) : en.Typed ty := by
  unfold Entry.silent at h
  unfold Entry.Typed
  split
  · next h1 =>
    rw [h1] at h
    exact fun h2 => absurd h h2
  · next h1 =>
    rw [h1] at h
    exact fun h2 => absurd h h2
  · next h1 =>
    rw [h1] at h
    exact fun h2 => absurd h h2
  · next h1 =>
    rw [h1] at h
    exact h.elim
  · trivial

theorem typed_keeps (hfine : ∀ m rs act, ok m rs act → Fine cfg m rs act) :
    Keeps cfg ok (fun a => EventsOk a.d.aside ∧ Kinds init a.d.aside) fun a =>
      ∀ en ∈ a.log, en.Typed init.eventType := by
  refine Keeps.turns hfine (fun _ h _ => h.1) (fun _ _ h => h) (fun _ _ _ _ _ _ h => h)
    fun {m rs act a a1 r} _ hat hg h ht => ?_
  have hadd : ∀ {en : Entry}, en.Typed init.eventType →
      ∀ en' ∈ a.log ++ [en], en'.Typed init.eventType := by
    intro en h2 en' hen
    rcases List.mem_append.mp hen with hen | hen
    · exact h en' hen
    · rw [List.mem_singleton.mp hen]
      exact h2
  have hty := congrFun hg.2.type
  cases ht with
  | quiet hr hd ht hc he => exact hadd (he.typed _)
  | ask h0 hk hs => exact hadd fun h1 => absurd rfl h1
  | @take c k e v l hc h0 hk hs =>
    refine hadd ?_
    rcases hc with rfl | ⟨n, rfl⟩
    · exact fun _ => (hty e).symm.trans hk.2
    · exact fun _ => (hty e).symm.trans hk.2
  | @post k e v h0 hk hi hf => exact hadd fun _ => (hty e).symm.trans hk.2
  | create h0 ha he => exact hadd (he.typed _)
  | delete hc h0 he => exact hadd (he.typed _)
  | setPrio h0 hp he => exact hadd (he.typed _)
  | wait h0 => exact hadd trivial
  | @back k e n h0 =>
    have hp := hat.passed r
    rw [h0] at hp
    exact hadd ((hty e).symm.trans hp.2.1)
  | tick hT => exact h

/-- A request that has posted is of the kind of its event. -/
def SQC.Typed (ty : Nat → EventType) (x : SQC × StatusType) : Prop :=
  x.1.type ≠ .FLAG_REQ → x.2 = .E_OK → ty x.1.id = x.1.kind

theorem asked_keeps (hfine : ∀ m rs act, ok m rs act → Fine cfg m rs act) :
    Keeps cfg ok (fun a => EventsOk a.d.aside ∧ Kinds init a.d.aside) fun a =>
      ∀ x ∈ a.d.aside.answers, SQC.Typed init.eventType x := by
  have hadd : ∀ {l : List (SQC × StatusType)} {x : SQC × StatusType}, SQC.Typed init.eventType x →
      (∀ y ∈ l, SQC.Typed init.eventType y) → ∀ y ∈ l ++ [x], SQC.Typed init.eventType y := by
    intro l x hx hl y hy
    rcases List.mem_append.mp hy with hy | hy
    · exact hl y hy
    · rw [List.mem_singleton.mp hy]
      exact hx
  refine Keeps.answered hfine (fun _ h _ => h.1) (fun {a d} _ ha _ h => ?_)
    (fun {a c st} hc h => ?_)
    (fun {a} c hg _ hc hk _ h => ?_) fun {m rs act a a1 r} _ _ _ h ht => ?_
  · change ∀ x ∈ d.aside.answers, _
    rw [ha]
    exact h
  · refine hadd (fun ht hst => ?_) h
    exact nomatch (hc c.id).symm.trans (if_pos ⟨ht, rfl, hst⟩)
  · change ∀ x ∈ (a.d.postOk c.id c.mail).aside.answers ++ [(c, .E_OK)], _
    rw [postOk_answers]
    exact hadd (fun _ _ => (congrFun hg.2.type c.id).symm.trans hk.2) h
  · rw [ht.answers]
    exact h

end Kinds

/-! ## The ledger -/

/-- The mails are accounted for, from the state `init` on. -/
structure Ledger (init : Aside) (a : Abs) : Prop where
  flow : Flow init a.d.aside
  kinds : Kinds init a.d.aside
  waits : Waits a
  served : Served a
  typed : ∀ en ∈ a.log, en.Typed init.eventType
  asked : ∀ x ∈ a.d.aside.answers, SQC.Typed init.eventType x

section Ledger

variable {cfg : Env} {ok : Sys → List SQC → Act → Prop}

theorem ledger_iff {init : Aside} {a : Abs} : Ledger init a ↔
    ((((Flow init a.d.aside ∧ Kinds init a.d.aside) ∧ Waits a) ∧ Served a) ∧
      ∀ en ∈ a.log, en.Typed init.eventType) ∧ ∀ x ∈ a.d.aside.answers,
      SQC.Typed init.eventType x :=
  ⟨fun h => ⟨⟨⟨⟨⟨h.flow, h.kinds⟩, h.waits⟩, h.served⟩, h.typed⟩, h.asked⟩,
    fun ⟨⟨⟨⟨⟨h1, h2⟩, h3⟩, h4⟩, h5⟩, h6⟩ => ⟨h1, h2, h3, h4, h5, h6⟩⟩

theorem ledger_keeps (hfine : ∀ m rs act, ok m rs act → Fine cfg m rs act) (init : Aside) :
    Keeps cfg ok (fun _ => True) (Ledger init) := by
  have hk :=
    (@flow_keeps cfg ok init hfine).and ((@kinds_keeps cfg ok init).mono fun _ _ => trivial)
  have hw := hk.and ((waits_keeps hfine).mono fun a h => h.1.ok)
  have hs := hw.and ((served_keeps hfine).mono fun a h => ⟨h.1.1.ok, h.2⟩)
  have ht := hs.and ((typed_keeps hfine).mono fun a h => ⟨h.1.1.1.ok, h.1.1.2⟩)
  have ha := ht.and ((asked_keeps hfine).mono fun a h => ⟨h.1.1.1.1.ok, h.1.1.1.2⟩)
  rw [show Ledger init = _ from funext fun a => propext ledger_iff]
  exact ha

theorem Fresh.events {n : Nat} {a : Aside} (h : Fresh cfg a n) : EventsOk a := by
  have hmade : ∀ {e}, a.eventType e ≠ .invalid → Made a e := by
    intro e he
    refine h.made e ?_
    by_contra hn
    exact he (h.raw e (Nat.le_of_not_lt hn))
  have hqcb : ∀ {e q}, a.eventPtr e = .qcb q → a.qcb e = q := by
    intro e q hq
    unfold Aside.qcb
    rw [hq]
  refine ⟨fun e => ?_, fun e e' h1 h2 h3 => ?_⟩
  · have hm := @hmade e
    unfold Made at hm
    cases ht : a.eventType e with
    | sem =>
      rw [ht] at hm
      exact (eventOk_sem ht).mpr (hm (by decide))
    | mbox =>
      rw [ht] at hm
      refine (eventOk_mbox ht).mpr ?_
      rw [(hm (by decide)).1]
      exact Nat.zero_le 1
    | queue =>
      rw [ht] at hm
      obtain ⟨q, h1, -, h2, h3, h4, h5, h6⟩ := hm (by decide)
      refine (eventOk_queue ht).mpr ?_
      rw [hqcb h1, h2, h3, h4]
      exact ⟨h1, ⟨h5, (Nat.zero_mod _).symm, Nat.zero_le _⟩, h6⟩
    | invalid =>
      unfold Aside.EventOk
      rw [ht]
      trivial
  · obtain ⟨q, hq, -⟩ : ∃ q, a.eventPtr e = .qcb q ∧ True := by
      have hm := @hmade e (by rw [h1]; decide)
      unfold Made at hm
      rw [h1] at hm
      obtain ⟨q, hq, -⟩ := hm
      exact ⟨q, hq, trivial⟩
    obtain ⟨q', hq', -⟩ : ∃ q, a.eventPtr e' = .qcb q ∧ True := by
      have hm := @hmade e' (by rw [h2]; decide)
      unfold Made at hm
      rw [h2] at hm
      obtain ⟨q, hq, -⟩ := hm
      exact ⟨q, hq, trivial⟩
    rw [hqcb hq, hqcb hq'] at h3
    rw [← h3] at hq'
    exact h.queues e e' q h1 h2 hq hq'

/-- The mails at the start. -/
theorem Booted.ledger {m : Sys} {g : Ghost} {r : Nat} (h : Booted cfg m g r) :
    Ledger m.k.aside (m.abs cfg.served g) := by
  obtain ⟨n, hf⟩ := h.fresh
  have hmv : m.k.moves = [] := hf.moves
  have hevt : ∀ t, g.evt.loc t = none := fun t => by rw [h.evt]
  refine ⟨⟨hf.events, rfl, fun e => ?_⟩, ⟨rfl, rfl, rfl⟩,
    ⟨fun t e he => ?_, fun t _ hp => absurd (hf.pmail t) hp, fun t _ => ⟨?_, hevt t⟩⟩,
    ⟨fun e => ?_, fun e => ?_, fun t e => ?_⟩, fun en hen => ?_, fun x hx => ?_⟩
  · change Fifo.replay _ _ (history e m.k.moves) = _
    rw [hmv]
    rfl
  · rw [show (m.abs cfg.served g).d.evt.loc t = none from hevt t] at he
    exact nomatch he
  · exact congrFun h.cont t
  · change m.log.filterMap _ = mails e _ m.k.moves
    rw [h.log, hmv]
    rfl
  · change Merge (m.log.filterMap _) (drained e m.k.answers) (mails e _ m.k.moves)
    rw [h.log, hmv, show m.k.answers = [] from hf.answers]
    exact .nil
  · unfold Abs.got
    rw [inFlight_idle (congrFun h.cont t), show (m.abs cfg.served g).log = [] from h.log]
    exact List.nil_sublist _
  · rw [show (m.abs cfg.served g).log = [] from h.log] at hen
    exact nomatch hen
  · rw [show (m.abs cfg.served g).d.aside.answers = [] from hf.answers] at hx
    exact nomatch hx

/-- The ready flags are no part of the ledger. -/
theorem Ledger.setRdy {init : Aside} {a : Abs} (h : Ledger init a) (x : BitVec 32) :
    Ledger init { a with d := a.d.setRdy x } :=
  ⟨h.flow.congr ⟨h.flow.ok.ok, h.flow.ok.own⟩ rfl rfl rfl,
    ⟨h.kinds.type, h.kinds.sort, h.kinds.init⟩,
    ⟨h.waits.loc, h.waits.mail, h.waits.dead⟩, ⟨h.served.took, h.served.sent, h.served.got⟩,
      h.typed, h.asked⟩

/-- **The mails are accounted for in every run**, calls split between their tests and the rest
    included. -/
theorem Split.Reach.ledger {i : Idle} {us : List Setup} {m0 : Sys} {s : Split}
    (hu : ∀ u ∈ us, u.Valid)
    (hb : boot cfg i us = some m0) (h : Split.Reach cfg (Split.Ok cfg (Fine cfg)) m0 s) :
    ∃ g r F, Inv cfg s.m g r F ∧ Ledger m0.k.aside (s.m.abs cfg.served g) := by
  obtain ⟨g, r, hbt, -⟩ := booted hu hb
  exact h.rule (fun _ _ _ h => h) (fun _ _ _ _ _ => trivial) (ledger_keeps (fun _ _ _ h => h) _)
    (fun _ h => h.setRdy _) (fun h => h.setRdy _) ⟨g, r, [], hbt.inv, hbt.ledger⟩

end Ledger

end CoOS
