/-
  The mark `0xffffffff` in the field `pnode`, which a task carries from its release by a flag until
  its wait returns. `TimeDispose` would follow it as the address of a node. It never meets one: a
  released task has left the delay list, and is not put there again before its wait has returned
  (`Reach.unmarked`).
-/
import CoOS.Flag.Result

namespace CoOS

open Function (update)
open DList KeyOrder

/-- A task with a node or with the mark is inside a wait for flags, and with the mark it is not in
    the delay list. -/
structure Marks (d : Data) (alive : Nat → Prop) (cont : Nat → Cont) : Prop where
  inside : ∀ t, alive t → d.aside.pnode t ≠ .null → ¬ (cont t).offFlags
  untimed : ∀ t, alive t → d.aside.pnode t = .ones → ¬ d.timed t

section Marks

variable {cfg : Env} {d d' : Data} {alive : Nat → Prop} {cont : Nat → Cont} {r t : Nat}

theorem Marks.null (h : Marks d alive cont) (hr : alive r) (hc : (cont r).offFlags) :
    d.aside.pnode r = .null := by
  by_contra hn
  exact h.inside r hr hn hc

/-- Nodes and marks are taken away only. -/
theorem Marks.fewer (h : Marks d alive cont)
    (hp : ∀ t, alive t → d'.aside.pnode t = d.aside.pnode t ∨ d'.aside.pnode t = .null)
    (ht : ∀ t, alive t → d.aside.pnode t = .ones → d'.timed t → d.timed t) :
    Marks d' alive cont := by
  refine ⟨fun t hal hn => ?_, fun t hal hn hu => ?_⟩
  · rcases hp t hal with e | e
    · exact h.inside t hal (e ▸ hn)
    · exact absurd e hn
  · rcases hp t hal with e | e
    · have hone := e.symm.trans hn
      exact h.untimed t hal hone (ht t hal hone hu)
    · exact nomatch e.symm.trans hn

/-- The running task goes on, or begins a wait. -/
theorem Marks.goes (h : Marks d alive cont) {c : Cont}
    (hr : d.aside.pnode r = .null ∨ ¬ c.offFlags) :
    Marks d alive (update cont r c) := by
  refine ⟨fun t hal hn => ?_, h.untimed⟩
  by_cases htr : t = r
  · rw [htr, Function.update_self]
    exact hr.resolve_left (htr ▸ hn)
  · rw [Function.update_of_ne htr]
    exact h.inside t hal hn

theorem Marks.springs (h : Marks d alive cont) {T : List Nat}
    (hT : ∀ t ∈ T, d.aside.pnode t = .node t) :
    Marks (d.springs T) alive cont := by
  have hp : ∀ t, (d.springs T).aside.pnode t = if t ∈ T then .ones else d.aside.pnode t :=
    springs_pnode T d.aside
  refine ⟨fun t hal hn => ?_, fun t hal hn hu => ?_⟩
  · by_cases ht : t ∈ T
    · exact h.inside t hal (by rw [hT t ht]; exact nofun)
    · rw [hp, if_neg ht] at hn
      exact h.inside t hal hn
  · rw [hp, if_neg hu.1] at hn
    exact h.untimed t hal hn hu.2

theorem Marks.setFlag (h : Marks d alive cont) (hw : Wf cfg d) (id : Nat) :
    Marks ((d.setRdy (d.aside.flagRdy ||| flagBit id)).springs (d.wakes cfg id)) alive cont := by
  have h1 : Marks (d.setRdy (d.aside.flagRdy ||| flagBit id)) alive cont :=
    h.fewer (fun _ _ => Or.inl rfl) fun _ _ _ hu => hu
  exact h1.springs fun t ht => hw.flag.list.node t (mem_released ht).1

/-- The running task joins the flag list. -/
theorem Marks.flagWait (h : Marks d alive cont) {c : Cont} (hc : ¬ c.offFlags) (flags : BitVec 32)
    (ty n : Nat) :
    Marks (d.flagWait r flags ty n) alive (update cont r c) := by
  have hp : (d.flagWait r flags ty n).aside.pnode = update d.aside.pnode r (.node r) :=
    (flagBlock_cols ..).1
  refine ⟨fun t hal hn => ?_, fun t hal hn hu => ?_⟩
  · by_cases htr : t = r
    · rw [htr, Function.update_self]
      exact hc
    · rw [hp, Function.update_of_ne htr] at hn
      rw [Function.update_of_ne htr]
      exact h.inside t hal hn
  · by_cases htr : t = r
    · rw [hp, htr, Function.update_self] at hn
      exact nomatch hn
    · rw [hp, Function.update_of_ne htr] at hn
      exact h.untimed t hal hn (hu.resolve_left fun e => htr e.1)

/-- The times of the tasks of `T` are up. -/
theorem Marks.expire (h : Marks d alive cont) (hw : Wf cfg d) (T : List Nat) :
    Marks (d.expire T) alive cont := by
  refine h.fewer (fun t _ => ?_) fun t _ _ hu => hu.2
  have hp : (d.expire T).aside.pnode t =
      if t ∈ T ∧ t ∈ d.aside.flagTasks cfg then .null else d.aside.pnode t :=
    dropFlags_pnode T hw.flag.list
  rw [hp]
  split
  · exact Or.inr rfl
  · exact Or.inl rfl

theorem Marks.delFlag (h : Marks d alive cont) (hw : Wf cfg d) {id opt : Nat}
    (hd : d.delFlag cfg id opt = (d', .E_OK)) : Marks d' alive cont := by
  have hdrop : Marks (d.dropMasks id) alive cont :=
    h.fewer (fun _ _ => Or.inl rfl) fun _ _ _ hu => hu
  unfold Data.delFlag at hd
  split at hd
  · exact nomatch (Prod.mk.inj hd).2
  · split at hd
    · split at hd
      · exact nomatch (Prod.mk.inj hd).2
      · exact (Prod.mk.inj hd).1 ▸ hdrop
    · split at hd
      · have h1 : Marks (d.unflag id (d.aside.flagTasks cfg)) alive cont :=
          Marks.springs (d := d.shrink id _) (h.fewer (fun _ _ => Or.inl rfl) fun _ _ _ hu => hu)
            fun t ht => hw.flag.list.node t (List.mem_of_mem_filter ht)
        rw [← (Prod.mk.inj hd).1]
        exact h1.fewer (fun _ _ => Or.inl rfl) fun _ _ _ hu => hu
      · exact (Prod.mk.inj hd).1 ▸ hdrop

/-- A wait returns. -/
theorem Marks.back (h : Marks d alive cont) (hp : d'.aside.pnode = update d.aside.pnode r .null)
    (ht : d'.timed = d.timed) : Marks d' alive (update cont r .none) := by
  refine Marks.goes ?_ (Or.inl (by rw [hp, Function.update_self]))
  refine h.fewer (fun t _ => ?_) fun t _ _ hu => ht ▸ hu
  rw [hp]
  by_cases htr : t = r
  · rw [htr, Function.update_self]
    exact Or.inr rfl
  · exact Or.inl (Function.update_of_ne htr ..)

end Marks

section Runs

variable {cfg : Env} {i : Idle} {us : List Setup} {m0 m : Sys}

theorem marks_keeps : Keeps cfg (Fine cfg) (fun _ => True) fun a => Marks a.d a.alive a.cont := by
  refine Keeps.flagTurns (fun {a d} hp ht h => ?_) (fun _ hw _ _ h => ?_)
    fun {m rs act a a1 r} _ hat _ h ht => ?_
  · exact h.fewer (fun t _ => Or.inl (congrFun (congrArg FlagPart.pnode hp) t)) fun t _ _ => ht t
  · exact h.setFlag hw _
  have hal := hat.caller.alive
  have hnull : a.cont r = .none → a.d.aside.pnode r = .null :=
    fun e => h.null hal (by rw [e]; trivial)
  have hnow : ∀ {d : Data}, d.aside.pnode = a.d.aside.pnode → d.timed = a.d.timed →
    a.cont r = .none →
      Marks d a.alive (update a.cont r .none) := fun {d} hp ht h0 =>
    Marks.goes (h.fewer (fun t _ => Or.inl (congrFun hp t)) fun _ _ _ hu => ht ▸ hu)
      (Or.inl ((congrFun hp r).trans (hnull h0)))
  cases ht with
  | @still act d c en hr hd ht hc he =>
    have hp : d.aside.pnode = a.d.aside.pnode := congrArg FlagPart.pnode hd
    have hn := h.null hal hr
    refine Marks.goes (h.fewer (fun t _ => Or.inl (congrFun hp t)) fun t _ hone hu => ?_)
      (Or.inl ((congrFun hp r).trans hn))
    refine (ht t hu).resolve_left fun e => ?_
    rw [e, hn] at hone
    exact nomatch hone
  | @create act i p w en h0 ha he =>
    have hp : (a.d.create i p w).aside.pnode = update a.d.aside.pnode i .null := rfl
    have h1 : Marks (a.d.create i p w) (fun u => u = i ∨ a.alive u) a.cont := by
      refine ⟨fun t hl hn => ?_, fun t hl hn => ?_⟩
      · have hti : t ≠ i := fun e => hn (by rw [hp, e, Function.update_self])
        rw [hp, Function.update_of_ne hti] at hn
        exact h.inside t (hl.resolve_left hti) hn
      · have hti : t ≠ i := fun e => by
          rw [hp, e, Function.update_self] at hn
          exact nomatch hn
        rw [hp, Function.update_of_ne hti] at hn
        exact h.untimed t (hl.resolve_left hti) hn
    have hri : r ≠ i := by
      rintro rfl
      exact ha hal
    exact h1.goes (Or.inl ((congrFun hp r).trans ((Function.update_of_ne hri ..).trans (hnull h0))))
  | @delete c t en hc h0 he =>
    have h1 : Marks (a.d.delete t) a.alive (update a.cont r .none) := by
      refine (h.expire hat.wf [t]).goes (Or.inl ?_)
      refine (dropFlags_pnode [t] hat.wf.flag.list).trans ?_
      rw [hnull h0, ite_self]
    refine ⟨fun u hu hn => ?_, fun u hu => h1.untimed u hu.2⟩
    change ¬ (update (update a.cont r .none) t .none u).offFlags
    rw [Function.update_of_ne hu.1]
    exact h1.inside u hu.2 hn
  | take h0 hc => exact hnow rfl rfl h0
  | clear h0 hb => exact hnow rfl rfl h0
  | @set id h0 hb hn =>
    exact Marks.setFlag (hnow rfl rfl h0) hat.wf id
  | make h0 hi => exact hnow rfl rfl h0
  | drop h0 ha hd =>
    exact Marks.delFlag (hnow rfl rfl h0) hat.wf hd
  | wait h0 hb hn => exact h.flagWait id _ _ _
  | waits h0 ha hn => exact h.flagWait id _ _ _
  | @back id n h0 =>
    change Marks (a.d.waitFlagReturn r id n).1 a.alive (update a.cont r .none)
    unfold Data.waitFlagReturn
    split
    · next hn => exact h.goes (Or.inl hn.2)
    · exact h.back rfl rfl
  | @backs flags ty n h0 =>
    change Marks (a.d.waitFlagsReturn r flags n).1 a.alive (update a.cont r .none)
    unfold Data.waitFlagsReturn
    split
    · next hn => exact h.goes (Or.inl hn.2)
    · exact h.back rfl rfl
  | tick hT => exact h.expire hat.wf _

/-- **No task in the delay list carries the mark**, in every state of a run. -/
theorem Reach.unmarked (hu : ∀ u ∈ us, u.Valid) (hb : boot cfg i us = some m0)
    (h : Reach cfg (Fine cfg) m0 m) {t : Nat} (ht : m.k.alive cfg t)
    (hd : m.k.delayTick t ≠ INVALID_VALUE) :
    m.k.pnode t ≠ .ones := by
  obtain ⟨g0, r0, hbt, -⟩ := booted hu hb
  obtain ⟨n, hf⟩ := hbt.fresh
  have h0 : Marks (m0.abs cfg.served g0).d (m0.abs cfg.served g0).alive
    (m0.abs cfg.served g0).cont := by
    refine ⟨fun t _ hn => absurd (hf.pnode t) hn, fun t _ hn => ?_⟩
    exact nomatch (hf.pnode t).symm.trans hn
  obtain ⟨g, r, F, hi, hk⟩ :=
    Reach.rule (fun _ _ _ hok => hok) marks_keeps ⟨g0, r0, [], hbt.inv, h0⟩ h
  have hl : Live cfg.served g t := (alive_iff hi.stable.coh.rep t).mp ht
  exact fun hone => hk.untimed t hl hone ((hi.stable.coh.delayTick_iff hl).mp hd)

end Runs

end CoOS
