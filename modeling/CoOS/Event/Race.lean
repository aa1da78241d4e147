/-
  The gap between the two critical sections of a pend.

  `CoPendSem`, `CoPendMail` and `CoPendQueueMail` look at the event in one section and join its
  waiting list in another. The unlock that ends the first section runs the deferred posts, and
  other tasks may post before the second section begins; such a post finds no waiter and leaves
  its mail in the event, and the caller then waits for what is there.
-/
import CoOS.Event.Served

namespace CoOS

open Function (update)
open DList

/-- Something is in the event `e`. -/
def Kernel.available (k : Kernel) (e : Nat) : Prop :=
  match k.eventType e with
  | .sem => 0 < k.eventCounter e
  | .mbox => k.eventCounter e = 1
  | .queue => 0 < k.qSize (qcbOf k e)
  | .invalid => False

theorem avail_available {k : Kernel} {e : Nat} : k.aside.avail e = true ↔ k.available e := by
  unfold Aside.avail Kernel.available
  cases ht : k.eventType e with
  | sem =>
    rw [show k.aside.eventType e = .sem from ht]
    exact decide_eq_true_iff
  | mbox =>
    rw [show k.aside.eventType e = .mbox from ht]
    exact decide_eq_true_iff
  | queue =>
    rw [show k.aside.eventType e = .queue from ht]
    exact decide_eq_true_iff.trans Nat.pos_iff_ne_zero.symm
  | invalid =>
    rw [show k.aside.eventType e = .invalid from ht]
    exact iff_of_false Bool.false_ne_true id

instance (k : Kernel) (e : Nat) : Decidable (k.available e) := decidable_of_iff _ avail_available

/-- Pends, accepts and posts, with any requests that are deferred, and ticks. -/
def EventStep (_ : Sys) (_ : List SQC) : Act → Prop
  | .call (.accept kd _) => kd ≠ .invalid
  | .call (.pend kd _ n) => kd ≠ .invalid ∧ n < 2 ^ 31
  | .call (.post kd _ _) => kd ≠ .invalid
  | .call _ => False
  | .resume => True
  | .tick => True

instance (m : Sys) (rs : List SQC) (a : Act) : Decidable (EventStep m rs a) :=
  match a with
  | .call (.accept ..) => inferInstanceAs (Decidable (_ ≠ _))
  | .call (.pend ..) => inferInstanceAs (Decidable (_ ∧ _))
  | .call (.post ..) => inferInstanceAs (Decidable (_ ≠ _))
  | .call (.createTask ..) | .call (.delTask _) | .call .exitTask | .call (.suspendTask _)
  | .call (.awakeTask _) | .call (.setPriority ..) | .call (.tickDelay _) | .call (.resetDelay ..)
  | .call (.createFlag ..) | .call (.delFlag ..) | .call (.setFlag _) | .call (.clearFlag _)
  | .call (.acceptFlag _)
  | .call (.acceptFlags ..) | .call (.waitFlag ..) | .call (.waitFlags ..) | .call (.enterMutex _)
  | .call (.leaveMutex _) => inferInstanceAs (Decidable False)
  | .resume | .tick => inferInstanceAs (Decidable True)

theorem EventStep.fine {cfg : Env} (m : Sys) (rs : List SQC) (a : Act) (h : EventStep m rs a) :
    Fine cfg m rs a := by
  cases a with
  | call c =>
    cases c with
    | accept kd id => exact h
    | pend kd id n => exact h
    | post kd id v => exact h
    | _ => exact h.elim
  | resume => trivial
  | tick => trivial

/-- The event for which the running task is about to wait. -/
def Sys.joins (m : Sys) : Option Nat :=
  match m.k.TCBRunning with
  | some r =>
    match m.cont r with
    | .block _ e _ => some e
    | _ => none
  | none => none

/-- The second section of a pend finds the event as empty as the first one did. -/
def StillEmpty (cfg : Env) (m : Sys) (rs : List SQC) (a : Act) : Prop :=
  Fine cfg m rs a ∧ (a = .resume → ∀ e ∈ m.joins, ¬ m.k.available e)

instance (cfg : Env) (m : Sys) (rs : List SQC) (a : Act) : Decidable (StillEmpty cfg m rs a) :=
  inferInstanceAs (Decidable (_ ∧ (_ → _)))

section Race

variable {cfg : Env} {a : Abs} {r : Nat}

theorem available_iff {k : Kernel} {e : Nat} : k.available e ↔ k.aside.stored e ≠ [] :=
  avail_available.symm.trans avail_iff

theorem At.stored {m : Sys} (h : At cfg m a r) : a.d.aside.stored = m.k.aside.stored := by
  obtain ⟨g, F, b, q, -, rfl⟩ := h
  rfl

/-- Who waits, waits for something that is not there. -/
def Hungry (a : Abs) : Prop := ∀ t e, a.d.evt.loc t = some e → a.d.aside.stored e = []

theorem Hungry.sub (h : Hungry a) {d : Data}
    (hl : ∀ t e, d.evt.loc t = some e → a.d.evt.loc t = some e)
    (hs : d.aside.stored = a.d.aside.stored) {alive : Nat → Prop} {cont : Nat → Cont}
    {log : List Entry} :
    Hungry ⟨d, alive, cont, log⟩ := by
  intro t e he
  dsimp only at he ⊢
  rw [hs]
  exact h t e (hl t e he)

theorem Hungry.post (h : Hungry a) (hw : Wf cfg a.d) {k : EventType} {e v : Nat}
    (ho : EventsOk a.d.aside)
    (hi : k ≠ .invalid) (hk : a.d.aside.eventType e = k) (hf : a.d.aside.full e = false)
    {alive : Nat → Prop} {cont : Nat → Cont} {log : List Entry} :
    Hungry ⟨a.d.postOk e (k.mail v), alive, cont, log⟩ := by
  intro t e' he
  rcases postOk_cases ho (by rw [hk]; exact hi) hf (fun hs => mail_sem (hk.symm.trans hs)) with
    ⟨hnil, hp⟩ | ⟨u, x, l, rest, hp⟩
  · dsimp only at he ⊢
    rw [hp.evt] at he
    have hne : e' ≠ e := by
      rintro rfl
      have := (hw.evt.mem e' t).mpr he
      rw [hnil] at this
      exact nomatch this
    rw [hp.edit.stored, Function.update_of_ne hne]
    exact h t e' he
  · dsimp only at he ⊢
    rw [hp.evt] at he
    have hmem : a.d.evt.loc u = some e :=
      (hw.evt.mem e u).mp (by rw [hp.lst]; exact List.mem_cons_self)
    have htu : t ≠ u := by
      rintro rfl
      rw [DList.Family.take_loc_self] at he
      exact nomatch he
    rw [DList.Family.take_loc_ne _ _ htu] at he
    rw [hp.edit.stored]
    by_cases hee : e' = e
    · -- the mail goes straight through
      have hx := hp.oldest
      rw [h u e hmem] at hx
      rw [hee, Function.update_self]
      exact (List.cons.inj hx).2.symm
    · rw [Function.update_of_ne hee]
      exact h t e' he

theorem hungry_keeps : Keeps cfg (StillEmpty cfg) (fun a => EventsOk a.d.aside) Hungry := by
  refine Keeps.turns (fun _ _ _ h => h.1) (fun _ h _ => h)
    (fun hl _ h => h.sub (fun t e he => by rw [← hl.evt]; exact he) hl.stored)
    (fun v hg hw hi hk hf h => h.post hw hg hi hk.2 hf) fun {m rs act a a1 r} hok hat hg h ht => ?_
  cases ht with
  | quiet hr hd ht hc he =>
    exact h.sub (fun t e he => by rw [← hd.evt]; exact he) hd.like.stored
  | ask h0 hk hs => exact h.sub (fun _ _ he => he) rfl
  | @take c k e v l hc h0 hk hs =>
    have hp := pop_spec hg hs
    intro t e' he
    change a.d.evt.loc t = some e' at he
    have hne : e' ≠ e := by
      rintro rfl
      rw [h t e' he] at hs
      exact nomatch hs
    refine (congrFun hp.stored e').trans ?_
    rw [Function.update_of_ne hne]
    exact h t e' he
  | post h0 hk hi hf => exact h.post hat.wf hg hi hk.2 hf
  | create h0 ha he => exact h.sub (fun _ _ he => he) rfl
  | @delete c t en hc h0 he =>
    refine h.sub (fun u e he => ?_) (hg.congr (sameEvent_of_part (expire_evtPart a.d [t]))).2
    change (if u ∈ [t] then none else a.d.evt.loc u) = some e at he
    split at he
    · exact nomatch he
    · exact he
  | @setPrio t p en h0 hp he =>
    refine h.sub (fun u e he => ?_) ?_
    · rw [setPrio_loc] at he
      exact he
    · rw [setPrio_aside]
      rfl
  | @wait k e n h0 =>
    intro t e' he
    by_cases htr : t = r
    · subst htr
      rw [show (a.d.wait e t n).evt.loc t = some e from DList.Family.put_loc_self ..] at he
      obtain rfl := Option.some.inj he
      have hj : m.joins = some e := by
        unfold Sys.joins
        rw [hat.running]
        dsimp only
        rw [← hat.cont, h0]
      have := mt available_iff.mpr (hok.2 rfl e hj)
      rw [← hat.stored] at this
      exact not_not.mp this
    · rw [show (a.d.wait e r n).evt.loc t =
        a.d.evt.loc t from DList.Family.put_loc_ne _ _ htr] at he
      exact h t e' he
  | @back k e n h0 =>
    refine h.sub (fun t e he => ?_) ?_
    · rw [(pendReturn_lists a.d r n).1] at he
      exact he
    · unfold Data.pendReturn
      split
      · rfl
      · rfl
  | @tick T hT =>
    refine h.sub (fun u e he => ?_) (hg.congr (sameEvent_of_part (expire_evtPart a.d T))).2
    change (if u ∈ T then none else a.d.evt.loc u) = some e at he
    split at he
    · exact nomatch he
    · exact he

end Race

section Runs

variable {cfg : Env} {i : Idle} {us : List Setup} {m0 : Sys} {s : Split}

end Runs

end CoOS
