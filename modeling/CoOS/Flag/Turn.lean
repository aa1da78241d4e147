/-
  A step as the flags see it. `Mid.flagTurn` sorts what a section of a task does into a few cases:
  it leaves the flags alone, takes flags that are ready, clears or sets one, creates or deletes one,
  begins to wait, or comes back from a wait. An invariant about flags goes through these cases
  (`Keeps.flagTurns`).
-/
import CoOS.Event.Flow

namespace CoOS

open Function (update)
open DList KeyOrder

/-! ## Effects on the flags -/

section Parts

variable {cfg : Env} (d : Data)

theorem release_flagPart (e : Nat) : (d.release e).aside.flagPart = d.aside.flagPart := by
  unfold Data.release
  split
  · rfl
  · exact handOver_flagPart ..

theorem post_flagPart (k : EventType) (e v : Nat) : (d.post cfg k e v).1.aside.flagPart =
    d.aside.flagPart := by
  unfold Data.post
  split
  · rfl
  · split
    · rfl
    · exact (release_flagPart ..).trans (store_flagPart d.aside e v)

theorem accept_flagPart (k : EventType) (e : Nat) : (d.accept cfg k e).1.aside.flagPart =
    d.aside.flagPart := by
  unfold Data.accept
  split
  · rfl
  · split
    · exact take_flagPart ..
    · rfl

theorem pend_flagPart (k : EventType) (e : Nat) : (d.pend cfg k e).1.aside.flagPart =
    d.aside.flagPart := by
  unfold Data.pend
  split
  · rfl
  · split
    · exact take_flagPart ..
    · rfl

theorem pendReturn_flagPart (t n : Nat) : (d.pendReturn t n).1.aside.flagPart =
    d.aside.flagPart := by
  unfold Data.pendReturn
  split
  · rfl
  · rfl

theorem setPrio_flagPart (t p : Nat) : (d.setPrio t p).aside.flagPart = d.aside.flagPart := by
  rw [setPrio_aside]
  rfl

theorem release_timed (e u : Nat) (h : (d.release e).timed u) : d.timed u := by
  unfold Data.release at h
  split at h
  · exact h
  · exact h.2

theorem post_timed (k : EventType) (e v u : Nat) (h : (d.post cfg k e v).1.timed u) :
    d.timed u := by
  unfold Data.post at h
  split at h
  · exact h
  · split at h
    · exact h
    · exact release_timed { d with aside := (d.aside.store e v).note e v .posted } e u h

theorem accept_timed (k : EventType) (e : Nat) : (d.accept cfg k e).1.timed = d.timed := by
  unfold Data.accept
  split
  · rfl
  · split
    · rfl
    · rfl

theorem pend_timed (k : EventType) (e : Nat) : (d.pend cfg k e).1.timed = d.timed := by
  unfold Data.pend
  split
  · rfl
  · split
    · rfl
    · rfl

end Parts

/-- The continuation of no wait for flags. -/
def Cont.offFlags : Cont → Prop
  | .waitFlag _ _ | .waitFlags _ _ _ => False
  | _ => True

/-- The call takes the ready flags `f` at once, and returns `v`. -/
def Call.Takes (a : Aside) (f : BitVec 32) (v : Nat) : Call → Prop
  | .acceptFlag id | .waitFlag id _ =>
    ¬ a.badFlag id ∧ a.flagRdy &&& flagBit id ≠ 0 ∧ f = flagBit id ∧ v = 0
  | .acceptFlags flags ty | .waitFlags flags ty _ => flags &&& a.flagActive = flags ∧
    springs (flags &&& a.flagRdy) flags ty ∧ f = flags &&& a.flagRdy ∧ v = f.toNat
  | _ => False

/-- The section is no accept or wait of flags that succeeds. -/
def Entry.offFlags (en : Entry) : Prop :=
  match en.op with
  | .inl (.acceptFlag _) | .inl (.acceptFlags _ _) | .inl (.waitFlag _ _)
  | .inl (.waitFlags _ _ _) =>
    en.okVal = none
  | .inr (.waitFlag _ _) | .inr (.waitFlags _ _ _) => False
  | _ => True

/-! ## The cases -/

inductive FlagTurn (cfg : Env) (r : Nat) (a : Abs) : Act → Abs → Prop
  | still {act : Act} {d : Data} {c : Cont} {en : Entry} (hr : (a.cont r).offFlags)
      (hd : d.aside.flagPart = a.d.aside.flagPart) (ht : ∀ u, d.timed u → u = r ∨ a.d.timed u)
      (hc : c.offFlags) (he : en.offFlags) :
      FlagTurn cfg r a act ⟨d, a.alive, update a.cont r c, a.log ++ [en]⟩
  | create {act : Act} {i p : Nat} {w : Bool} {en : Entry} (h0 : a.cont r = .none)
      (ha : ¬ a.alive i)
      (he : en.offFlags) :
      FlagTurn cfg r a act ⟨a.d.create i p w, fun u => u = i ∨ a.alive u, update a.cont r .none,
        a.log ++ [en]⟩
  | delete {c : Call} {t : Nat} {en : Entry} (hc : c.ends r = some t) (h0 : a.cont r = .none)
      (he : en.offFlags) :
      FlagTurn cfg r a (.call c) ⟨a.d.delete t, fun u => u ≠ t ∧ a.alive u,
        update (update a.cont r .none) t .none, a.log ++ [en]⟩
  /-- An accept or a wait that finds its flags ready. -/
  | take {c : Call} {f : BitVec 32} {v : Nat} (h0 : a.cont r = .none) (hc : c.Takes a.d.aside f v) :
      FlagTurn cfg r a (.call c) ⟨a.d.consume f, a.alive, update a.cont r .none,
        a.log ++ [⟨r, .inl c, some (v, .E_OK)⟩]⟩
  | clear {id : Nat} (h0 : a.cont r = .none) (hb : ¬ a.d.aside.badFlag id) :
      FlagTurn cfg r a (.call (.clearFlag id)) ⟨a.d.setRdy (a.d.aside.flagRdy &&& ~~~ flagBit id),
        a.alive, update a.cont r .none, a.log ++ [⟨r, .inl (.clearFlag id), some (0, .E_OK)⟩]⟩
  | set {id : Nat} (h0 : a.cont r = .none) (hb : ¬ a.d.aside.badFlag id)
      (hn : a.d.aside.flagRdy &&& flagBit id = 0) :
      FlagTurn cfg r a (.call (.setFlag id))
        ⟨(a.d.setRdy (a.d.aside.flagRdy ||| flagBit id)).springs (a.d.wakes cfg id), a.alive,
          update a.cont r .none, a.log ++ [⟨r, .inl (.setFlag id), some (0, .E_OK)⟩]⟩
  | make {auto init i : Nat} (h0 : a.cont r = .none)
      (hi : freeFlag a.d.aside.flagActive FLAG_MAX_NUM 0 = some i) :
      FlagTurn cfg r a (.call (.createFlag auto init)) ⟨a.d.addFlag i auto init, a.alive,
        update a.cont r .none, a.log ++ [⟨r, .inl (.createFlag auto init), some (i, .E_OK)⟩]⟩
  | drop {id opt : Nat} {d : Data} (h0 : a.cont r = .none)
      (ha : a.d.aside.flagActive &&& flagBit id ≠ 0) (hd : a.d.delFlag cfg id opt = (d, .E_OK)) :
      FlagTurn cfg r a (.call (.delFlag id opt)) ⟨d, a.alive, update a.cont r .none,
        a.log ++ [⟨r, .inl (.delFlag id opt), some (0, .E_OK)⟩]⟩
  | wait {id n : Nat} (h0 : a.cont r = .none) (hb : ¬ a.d.aside.badFlag id)
      (hn : a.d.aside.flagRdy &&& flagBit id = 0) :
      FlagTurn cfg r a (.call (.waitFlag id n)) ⟨a.d.flagWait r (flagBit id) OPT_WAIT_ONE n,
        a.alive, update a.cont r (.waitFlag id n), a.log ++ [⟨r, .inl (.waitFlag id n), none⟩]⟩
  | waits {flags : BitVec 32} {ty n : Nat} (h0 : a.cont r = .none)
      (ha : flags &&& a.d.aside.flagActive = flags)
        (hn : ¬ springs (flags &&& a.d.aside.flagRdy) flags ty) :
      FlagTurn cfg r a (.call (.waitFlags flags ty n)) ⟨a.d.flagWait r flags ty n, a.alive,
        update a.cont r (.waitFlags flags ty n), a.log ++ [⟨r, .inl (.waitFlags flags ty n), none⟩]⟩
  /-- A wait returns to a caller that has waited. -/
  | back {id n : Nat} (h0 : a.cont r = .waitFlag id n) :
      FlagTurn cfg r a .resume ⟨(a.d.waitFlagReturn r id n).1, a.alive, update a.cont r .none,
        a.log ++ [⟨r, .inr (.waitFlag id n), some (0, (a.d.waitFlagReturn r id n).2)⟩]⟩
  | backs {flags : BitVec 32} {ty n : Nat} (h0 : a.cont r = .waitFlags flags ty n) :
      FlagTurn cfg r a .resume ⟨(a.d.waitFlagsReturn r flags n).1, a.alive, update a.cont r .none,
        a.log ++ [⟨r, .inr (.waitFlags flags ty n), some ((a.d.waitFlagsReturn r flags n).2.1.toNat,
          (a.d.waitFlagsReturn r flags n).2.2)⟩]⟩
  | tick {T : List Nat} (hT : ∀ t ∈ T, a.d.timed t) :
      FlagTurn cfg r a .tick { a with d := a.d.expire T }

section Calls

variable {cfg : Env} {a : Abs} {r : Nat} {x : Out}

/-- A call that leaves the flags alone. -/
theorem flagTurn_now {c : Call} {d : Data} {ret : Ret} (h0 : a.cont r = .none)
    (hd : d.aside.flagPart = a.d.aside.flagPart) (ht : ∀ u, d.timed u → u = r ∨ a.d.timed u)
    (hends : ret.2 = .E_OK → c.ends r = none) (he : Entry.offFlags ⟨r, .inl c, some ret⟩) :
    FlagTurn cfg r a (.call c) (a.after r (.inl c) (c.ends r) (a.now d ret)) := by
  have hcont : forget (update a.cont r .none) (c.ends r) (some ret) = update a.cont r .none := by
    by_cases hs : ret.2 = .E_OK
    · rw [hends hs]
      rfl
    · exact forget_failed hs
  unfold Abs.after Abs.now
  dsimp only
  rw [hcont]
  exact .still (by rw [h0]; trivial) hd ht trivial he

/-- A flag call that fails. -/
theorem flagTurn_failed {c : Call} (v : Nat) (st : StatusType) (h0 : a.cont r = .none)
    (hst : st ≠ .E_OK)
    (he : Entry.offFlags ⟨r, .inl c, some (v, st)⟩) :
    FlagTurn cfg r a (.call c) (a.after r (.inl c) (c.ends r) (a.now a.d (v, st))) :=
  flagTurn_now h0 rfl (fun _ hu => Or.inr hu) (fun e => absurd e hst) he

theorem flagTurn_take {c : Call} {f : BitVec 32} {v : Nat} (h0 : a.cont r = .none)
    (hc : c.Takes a.d.aside f v) (hends : c.ends r = none) :
    FlagTurn cfg r a (.call c)
      (a.after r (.inl c) (c.ends r) (a.now (a.d.consume f) (v, .E_OK))) := by
  rw [hends]
  exact .take h0 hc

theorem flagTurn_delete {c : Call} {t : Nat} (hx : a.Deletes t x) (h0 : a.cont r = .none)
    (hc : c.ends r = some t) (he : ∀ ret, Entry.offFlags ⟨r, .inl c, ret⟩) :
    FlagTurn cfg r a (.call c) (a.after r (.inl c) (c.ends r) x) := by
  obtain ⟨st, hst, rfl⟩ | rfl := hx
  · exact flagTurn_failed 0 st h0 hst (he _)
  · rw [hc]
    exact .delete hc h0 (he _)

theorem delFlag_cases (cfg : Env) (d : Data) (id opt : Nat) :
    (d.aside.flagActive &&& flagBit id ≠ 0 ∧ ∃ d', d.delFlag cfg id opt = (d', .E_OK)) ∨
      ∃ st, st ≠ .E_OK ∧ d.delFlag cfg id opt = (d, st) := by
  unfold Data.delFlag
  split
  · exact Or.inr ⟨_, by decide, rfl⟩
  · next ha =>
    split
    · split
      · exact Or.inr ⟨_, by decide, rfl⟩
      · exact Or.inl ⟨ha, _, rfl⟩
    · split
      · exact Or.inl ⟨ha, _, rfl⟩
      · exact Or.inl ⟨ha, _, rfl⟩

/-- **Every effect of a step on the flags is one of the cases** -/
theorem Mid.flagTurn {act : Act} {a1 : Abs} (hm : Mid cfg r a act a1) :
    FlagTurn cfg r a act a1 := by
  cases hm with
  | @call c x hr h0 hx =>
    have hsame : ∀ u, a.d.timed u → u = r ∨ a.d.timed u := fun _ hu => Or.inr hu
    cases c with
    | createTask task stk parameter =>
      obtain rfl | ⟨i, p, w, hi, ha, rfl⟩ := hx
      · exact flagTurn_now h0 rfl hsame (fun _ => rfl) trivial
      · exact .create h0 ha trivial
    | delTask t => exact flagTurn_delete hx h0 rfl fun _ => trivial
    | exitTask => exact flagTurn_delete hx h0 rfl fun _ => trivial
    | suspendTask t =>
      obtain ⟨st, rfl | rfl⟩ := hx
      · exact flagTurn_now h0 rfl hsame (fun _ => rfl) trivial
      · exact flagTurn_now h0 rfl hsame (fun _ => rfl) trivial
    | awakeTask t =>
      obtain ⟨st, rfl | ⟨rfl, -⟩⟩ := hx
      · exact flagTurn_now h0 rfl hsame (fun _ => rfl) trivial
      · exact flagTurn_now h0 rfl hsame (fun _ => rfl) trivial
    | setPriority t p =>
      obtain ⟨st, ⟨rfl, -⟩ | ⟨rfl, -⟩⟩ := hx
      · exact flagTurn_now h0 rfl hsame (fun _ => rfl) trivial
      · refine flagTurn_now h0 (setPrio_flagPart ..) (fun u hu => ?_) (fun _ => rfl) trivial
        rw [setPrio_timed] at hu
        exact Or.inr hu
    | tickDelay n =>
      obtain ⟨st, rfl | rfl⟩ := hx
      · exact flagTurn_now h0 rfl hsame (fun _ => rfl) trivial
      · exact flagTurn_now h0 rfl (fun _ hu => hu) (fun _ => rfl) trivial
    | resetDelay t n =>
      obtain ⟨st, rfl | ⟨rfl, -⟩⟩ := hx
      · exact flagTurn_now h0 rfl hsame (fun _ => rfl) trivial
      · exact flagTurn_now h0 rfl (fun _ hu => Or.inr hu.2) (fun _ => rfl) trivial
    | accept k e =>
      obtain rfl := hx
      refine flagTurn_now h0 (accept_flagPart ..) (fun u hu => ?_) (fun _ => rfl) trivial
      rw [accept_timed] at hu
      exact Or.inr hu
    | pend k e n =>
      have hp := @pend_flagPart cfg a.d k e
      have ht := @pend_timed cfg a.d k e
      obtain rfl := hx
      cases he : a.d.pend cfg k e with
      | mk d o =>
        rw [he] at hp ht
        have hsub : ∀ u, d.timed u → u = r ∨ a.d.timed u := fun u hu => Or.inr (ht ▸ hu)
        cases o with
        | some ret => exact flagTurn_now h0 hp hsub (fun _ => rfl) trivial
        | none => exact .still (by rw [h0]; trivial) hp hsub trivial trivial
    | post k e v =>
      obtain rfl := hx
      exact flagTurn_now h0 (post_flagPart ..) (fun u hu => Or.inr (post_timed _ _ _ _ u hu))
        (fun _ => rfl) trivial
    | createFlag auto init =>
      obtain rfl := hx
      unfold Data.createFlag
      split
      · next i hi => exact .make h0 hi
      · exact flagTurn_now h0 rfl hsame (fun _ => rfl) trivial
    | delFlag id opt =>
      obtain rfl := hx
      rcases delFlag_cases cfg a.d id opt with ⟨ha, d, hd⟩ | ⟨st, hst, hd⟩
      · rw [hd]
        exact .drop h0 ha hd
      · rw [hd]
        exact flagTurn_failed 0 st h0 hst trivial
    | setFlag id =>
      obtain rfl := hx
      unfold Data.setFlag
      split
      · exact flagTurn_now h0 rfl hsame (fun _ => rfl) trivial
      · next hb =>
        split
        · exact flagTurn_now h0 rfl hsame (fun _ => rfl) trivial
        · next hn => exact .set h0 hb (not_not.mp hn)
    | clearFlag id =>
      obtain rfl := hx
      unfold Data.clearFlag
      split
      · exact flagTurn_now h0 rfl hsame (fun _ => rfl) trivial
      · next hb => exact .clear h0 hb
    | acceptFlag id =>
      obtain rfl := hx
      unfold Data.acceptFlag
      split
      · exact flagTurn_failed 0 .E_INVALID_ID h0 (by decide) (okVal_failed (by decide))
      · next hb =>
        split
        · next hn => exact flagTurn_take h0 ⟨hb, hn, rfl, rfl⟩ rfl
        · exact flagTurn_failed 0 .E_FLAG_NOT_READY h0 (by decide) (okVal_failed (by decide))
    | acceptFlags flags ty =>
      obtain rfl := hx
      unfold Data.acceptFlags
      split
      · exact flagTurn_failed 0 .E_INVALID_PARAMETER h0 (by decide) (okVal_failed (by decide))
      · next ha =>
        split
        · next hs => exact flagTurn_take h0 ⟨not_not.mp ha, hs, rfl, rfl⟩ rfl
        · exact flagTurn_failed 0 .E_FLAG_NOT_READY h0 (by decide) (okVal_failed (by decide))
    | waitFlag id n =>
      obtain rfl := hx
      unfold Data.waitFlag
      by_cases hb : a.d.aside.badFlag id
      · rw [if_pos hb]
        exact flagTurn_failed 0 .E_INVALID_ID h0 (by decide) (okVal_failed (by decide))
      rw [if_neg hb]
      by_cases hn : a.d.aside.flagRdy &&& flagBit id ≠ 0
      · rw [if_pos hn]
        exact flagTurn_take h0 ⟨hb, hn, rfl, rfl⟩ rfl
      · rw [if_neg hn]
        exact .wait h0 hb (not_not.mp hn)
    | waitFlags flags ty n =>
      obtain rfl := hx
      unfold Data.waitFlags
      by_cases ha : flags &&& a.d.aside.flagActive ≠ flags
      · rw [if_pos ha]
        exact flagTurn_failed 0 .E_INVALID_PARAMETER h0 (by decide) (okVal_failed (by decide))
      rw [if_neg ha]
      by_cases hs : springs (flags &&& a.d.aside.flagRdy) flags ty
      · rw [if_pos hs]
        exact flagTurn_take h0 ⟨not_not.mp ha, hs, rfl, rfl⟩ rfl
      · rw [if_neg hs]
        exact .waits h0 (not_not.mp ha) hs
    | enterMutex i => exact hx.elim
    | leaveMutex i => exact hx.elim
  | @resume x h0 hx =>
    cases hc : a.cont r with
    | none => exact absurd hc h0
    | block k e n =>
      rw [hc] at hx
      obtain rfl := hx
      exact .still (by rw [hc]; trivial) rfl (fun u hu => hu.imp_left And.left) trivial trivial
    | wait k e n =>
      rw [hc] at hx
      obtain rfl := hx
      refine .still (by rw [hc]; trivial) (pendReturn_flagPart ..)
        (fun u hu => Or.inr ?_) trivial trivial
      exact (congrFun (pendReturn_lists a.d r n).2 u).mp hu
    | waitFlag id n =>
      rw [hc] at hx
      obtain rfl := hx
      exact .back hc
    | waitFlags flags ty n =>
      rw [hc] at hx
      obtain rfl := hx
      exact .backs hc
    | enterMutex i =>
      rw [hc] at hx
      exact hx.elim
  | tick hT => exact .tick hT

end Calls

/-! ## The rule -/

section Rule

variable {cfg : Env} {ok : Sys → List SQC → Act → Prop} {G P : Abs → Prop}

/-- **The rule for invariants of the flags** -/
theorem Keeps.flagTurns
    (same : ∀ {a : Abs} {d : Data}, d.aside.flagPart = a.d.aside.flagPart →
      (∀ u, d.timed u → a.d.timed u) →
      P a → P { a with d := d })
    (set : ∀ {a : Abs} {id : Nat}, G a → Wf cfg.served a.d → ¬ a.d.aside.badFlag id →
      a.d.aside.flagRdy &&& flagBit id = 0 → P a →
      P { a with
        d := (a.d.setRdy (a.d.aside.flagRdy ||| flagBit id)).springs (a.d.wakes cfg.served id) })
    (turn : ∀ {m : Sys} {rs : List SQC} {act : Act} {a a1 : Abs} {r : Nat}, ok m rs act →
      At cfg m a r → G a → P a → FlagTurn cfg.served r a act a1 → P a1) : Keeps cfg ok G P := by
  refine ⟨fun b q h => same rfl (fun _ hu => hu) h, fun {a} c hg h hw => ?_,
    fun hok hat hg h hm => turn hok hat hg h hm.flagTurn⟩
  have hpost : ∀ (k : EventType) (v : Nat), P { a with d := (a.d.post cfg.served k c.id v).1 } :=
    fun k v =>
    same (post_flagPart a.d k c.id v) (post_timed a.d k c.id v) h
  refine @same { a with d := (a.d.request cfg.served c).1 } _ rfl (fun _ hu => hu) ?_
  unfold Data.request
  cases c.type with
  | SEM_REQ => exact hpost .sem _
  | MBOX_REQ => exact hpost .mbox _
  | QUEUE_REQ => exact hpost .queue _
  | FLAG_REQ =>
    dsimp only
    unfold Data.setFlag
    split
    · exact h
    · next hb =>
      split
      · exact h
      · next hn => exact set hg hw hb (not_not.mp hn) h

end Rule

end CoOS
