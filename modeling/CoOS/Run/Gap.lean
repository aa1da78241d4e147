/-
  Runs in which tasks are interrupted between the tests of a call and its lock. Where a call finds
  things as it has tested them, it does what it does as one step (`Split.step_cases`); so what holds
  along the runs of the system holds along these runs too (`Split.Reach.rule`).
-/
import CoOS.Kernel.Gap
import CoOS.Run.Inv

namespace CoOS

open Function (update)

/-! ## The tests -/

section Tests

variable {cfg : Env} {k : Kernel} {c : Call} {v : Nat}

/-- Requests of interrupts change nothing that is tested. -/
theorem Call.tests_ring (b : Bool) (q : SRQ) :
    c.tests cfg { k with IsrReq := b, ServiceReq := q } = c.tests cfg k := by
  cases c with
  | post ty id mail => cases ty <;> rfl
  | _ => rfl

theorem Call.tests_ends (h : c.tests cfg k = some v) (r : Nat) : c.ends r = none := by
  cases c with
  | delTask t => exact nomatch h
  | exitTask => exact nomatch h
  | _ => rfl

theorem Call.tests_setFlag {id : Nat} (h : (Call.setFlag id).tests cfg k = some v) :
    ¬ badFlag k id ∧ k.flagRdy &&& flagBit id = 0 ∧ v = k.flagRdy.toNat := by
  rw [Call.tests] at h
  split at h
  · cases h
  · next h1 =>
    split at h
    · cases h
    · next h2 => exact ⟨h1, not_not.mp h2, (Option.some.inj h).symm⟩

/-- `CoSetFlag` behind its write is the `CoSetFlag` of a flag that was not set before. -/
theorem setFlag_rest {id : Nat} (hb : ¬ badFlag k id) (hs : k.flagRdy &&& flagBit id ≠ 0) :
    (Call.setFlag id).exec cfg (k.withRdy (k.flagRdy &&& ~~~ flagBit id)) =
    (Call.setFlag id).rest cfg k 0 := by
  have hclear : (k.flagRdy &&& ~~~ flagBit id) &&& flagBit id = 0 := by
    rw [BitVec.and_assoc, BitVec.not_and_self]
    exact BitVec.and_zero
  have hw : writeRdy (k.withRdy (k.flagRdy &&& ~~~ flagBit id)) id = k := by
    unfold writeRdy Kernel.withRdy
    dsimp only
    rw [Mask.Within.clear_set (within_flagBit hs)]
  have hb' : ¬ badFlag (k.withRdy (k.flagRdy &&& ~~~ flagBit id)) id := hb
  rw [Call.exec, Call.rest, coSetFlag, if_neg hb',
    if_neg (show ¬ (k.withRdy (k.flagRdy &&& ~~~ flagBit id)).flagRdy &&& flagBit id ≠ 0 from
      not_not.mpr hclear), hw]

end Tests

/-! ## One step -/

section Step

variable {cfg : Env} {m m' : Sys} {s s' : Split} {rs : List SQC} {a : Act}

/-- A task that does not run is not put into a call. -/
theorem step_cont (hs : m.step cfg rs a = some m') {t : Nat}
    (ht : a ≠ .tick → m.k.TCBRunning ≠ some t)
    (h0 : m.cont t = .none) : m'.cont t = .none := by
  obtain ⟨hx, -⟩ := Option.filter_eq_some_iff.mp hs
  have hafter : ∀ {r : Nat}, t ≠ r → ∀ (op : Call ⊕ Cont) (ends : Option Nat) (x : Outcome),
      (m.after r op ends x).cont t = .none := fun {r} htr op ends x =>
    (forget_cases ..).elim (fun e => e.trans ((Function.update_of_ne htr ..).trans h0)) fun e => e
  have hne : ∀ {r : Nat}, a ≠ .tick → m.k.TCBRunning = some r → t ≠ r := fun ha hr e =>
    ht ha (e ▸ hr)
  unfold Sys.exec at hx
  split at hx
  · obtain ⟨k, -, rfl⟩ := Option.map_eq_some_iff.mp hx
    exact h0
  · next hr =>
    split at hx
    · exact nomatch hx
    · obtain ⟨x, -, rfl⟩ := Option.map_eq_some_iff.mp hx
      exact hafter (hne nofun hr) ..
  · next hr =>
    split at hx
    · exact nomatch hx
    · obtain ⟨x, -, rfl⟩ := Option.map_eq_some_iff.mp hx
      exact hafter (hne nofun hr) ..
  · exact nomatch hx

/-- A task in a gap is in no other call. -/
def Split.Alone (s : Split) : Prop := ∀ t, (s.gap t).isSome → t ≠ 0 ∧ s.m.cont t = .none

/-- What a step does to the system, seen as steps of the system itself. -/
inductive Split.Moves (cfg : Env) (s : Split) (rs : List SQC) (a : Act) : Sys → Prop
  | tests (hr : rs = []) : Split.Moves cfg s rs a s.m
  | step {m : Sys} (h : s.m.step cfg rs (s.does a) = some m) : Split.Moves cfg s rs a m
  | write {id : Nat} (hr : rs = []) (hd : s.does a = .call (.setFlag id)) (hb : ¬ badFlag s.m.k id)
      (hn : s.m.k.flagRdy &&& flagBit id = 0) :
      Split.Moves cfg s rs a { s.m with k := s.m.k.withRdy (s.m.k.flagRdy ||| flagBit id) }
  | written {id : Nat} {m : Sys} (hd : s.does a = .call (.setFlag id)) (hb : ¬ badFlag s.m.k id)
      (hs : s.m.k.flagRdy &&& flagBit id ≠ 0)
      (h : Sys.step cfg { s.m with k := s.m.k.withRdy (s.m.k.flagRdy &&& ~~~ flagBit id) } rs
        (.call (.setFlag id)) = some m) : Split.Moves cfg s rs a m

theorem defer_withRdy (cfg : Env) (rs : List SQC) (x : BitVec 32) : ∀ k : Kernel,
    (k.withRdy x).defer cfg rs = (k.defer cfg rs).withRdy x := by
  induction rs with
  | nil => exact fun _ => rfl
  | cons c rs ih =>
    intro k
    have hone : (insertInSRQ cfg (k.withRdy x) c.type c.id c.arg).1 =
        (insertInSRQ cfg k c.type c.id c.arg).1.withRdy x := by
      unfold insertInSRQ
      dsimp only [Kernel.withRdy]
      split
      · rfl
      · rfl
    unfold Kernel.defer at ih ⊢
    rw [List.foldl_cons, List.foldl_cons, hone]
    exact ih _

/-- A locked section behind a gap. -/
theorem Split.commit_some {r : Nat} {g : Gap} (hg : ∀ id v, g ≠ .tested (.setFlag id) v)
    (hs : s.commit cfg rs r g = some s') :
    ∃ x, g.call.rest cfg.served (s.m.k.defer cfg.served rs) g.read = some x ∧
      s'.m = s.m.after r (.inl g.call) none x ∧ s'.m.k.IsrReq = false ∧ s'.gap r = none ∧
      ∀ t, (s'.gap t).isSome → (s.gap t).isSome := by
  have hc : s.commit cfg rs r g = (((g.call.rest cfg.served (s.m.k.defer cfg.served rs) g.read).map
      (s.m.after r (.inl g.call) none)).filter fun m => !m.k.IsrReq).map fun m =>
        { s.goes m with gap := update (s.goes m).gap r none } := by
    unfold Split.commit
    split
    · next id v => exact absurd rfl (hg id v)
    · rfl
  rw [hc] at hs
  obtain ⟨m1, h1, rfl⟩ := Option.map_eq_some_iff.mp hs
  obtain ⟨h2, h3⟩ := Option.filter_eq_some_iff.mp h1
  obtain ⟨x, h4, rfl⟩ := Option.map_eq_some_iff.mp h2
  rw [Bool.not_eq_true'] at h3
  refine ⟨x, h4, rfl, h3, Function.update_self .., fun t ht => ?_⟩
  change (update (s.goes _).gap r none t).isSome = true at ht
  by_cases htr : t = r
  · rw [htr, Function.update_self] at ht
    exact nomatch ht
  · rw [Function.update_of_ne htr] at ht
    unfold Split.goes at ht
    dsimp only at ht
    split at ht
    · exact nomatch ht
    · exact ht

/-- The rest of a call behind a gap is a step of the system, if the call does the same there. -/
theorem Split.commit_call {r : Nat} {g : Gap} {m : Sys} {x : Outcome}
    (hi : r ≠ 0 ∧ m.cont r = .none)
    (hr : m.k.TCBRunning = some r) (hx : g.call.exec cfg.served (m.k.defer cfg.served rs) = some x)
    (he : g.call.ends r = none) (hm : m.after r (.inl g.call) none x = s'.m)
    (hq : s'.m.k.IsrReq = false) :
    m.step cfg rs (.call g.call) = some s'.m := by
  refine Option.filter_eq_some_iff.mpr ⟨?_, ?_⟩
  · unfold Sys.exec
    rw [hr]
    dsimp only
    rw [if_neg (not_or.mpr ⟨hi.1, not_not.mpr hi.2⟩), hx, he]
    exact congrArg some hm
  · rw [hq]
    rfl

/-- A call that finds things as it has tested them goes on as if it had not been interrupted. -/
theorem Split.commit_tested {r v : Nat} {c : Call} (hi : r ≠ 0 ∧ s.m.cont r = .none)
    (hring : RingOk cfg.served s.m.k) (hr : s.m.k.TCBRunning = some r) (hc : ∀ id, c ≠ .setFlag id)
    (ht : c.tests cfg s.m.k = some v) (hs : s.commit cfg rs r (.tested c v) = some s') :
    s.m.step cfg rs (.call c) = some s'.m := by
  obtain ⟨b, q, hdefer, -⟩ := @defer_spec cfg.served rs s.m.k hring
  obtain ⟨x, h1, h2, h3, -⟩ := Split.commit_some (fun id v' e => hc id (Gap.tested.inj e).1) hs
  have hv : c.tests cfg.served (s.m.k.defer cfg.served rs) = some v := by
    rw [hdefer, Call.tests_ring]
    exact ht
  exact Split.commit_call (g := .tested c v) hi hr ((Call.exec_rest hv hc).trans h1)
    (Call.tests_ends ht r) h2.symm h3

/-- What a task does behind its gap, when it finds things as it has tested them. -/
theorem Split.commit_cases {r : Nat} {g : Gap} (hi : r ≠ 0 ∧ s.m.cont r = .none)
    (hring : RingOk cfg.served s.m.k) (hstill : g.Still cfg s.m.k) (hr : s.m.k.TCBRunning = some r)
    (hd : s.does a = .call g.call) (hs : s.commit cfg rs r g = some s') :
    s.Moves cfg rs a s'.m := by
  cases g with
  | tested c v =>
    by_cases hc : ∃ id, c = .setFlag id
    · obtain ⟨id, rfl⟩ := hc
      obtain ⟨h1, h2, rfl⟩ := Call.tests_setFlag hstill
      unfold Split.commit at hs
      dsimp only at hs
      split at hs
      · exact nomatch hs
      · next hrs =>
        obtain rfl := Option.some.inj hs
        dsimp only
        rw [BitVec.ofNat_toNat, BitVec.setWidth_eq]
        exact .write (not_not.mp hrs) hd h1 h2
    · refine .step ?_
      rw [hd]
      exact Split.commit_tested hi hring hr (fun id e => hc ⟨id, e⟩) hstill hs
  | written id =>
    obtain ⟨hb, hset⟩ := hstill
    obtain ⟨b, q, hdefer, -⟩ := @defer_spec cfg.served rs s.m.k hring
    have hne : ∀ id' v, Gap.written id ≠ .tested (.setFlag id') v := fun _ _ => nofun
    obtain ⟨x, h1, h2, h3, -⟩ := Split.commit_some hne hs
    have hrdy : (s.m.k.defer cfg.served rs).flagRdy = s.m.k.flagRdy := by rw [hdefer]
    have hb' : ¬ badFlag (s.m.k.defer cfg.served rs) id := by
      rw [hdefer]
      exact hb
    refine .written hd hb hset (Split.commit_call (g := .written id) hi hr ?_ rfl h2.symm h3)
    dsimp only
    rw [defer_withRdy, ← hrdy]
    exact (setFlag_rest hb' (by rw [hrdy]; exact hset)).trans h1

/-- **A split call that finds things as it has tested them is a call** -/
theorem Split.step_cases (hi : s.Alone) (hring : RingOk cfg.served s.m.k) (hk : s.Kept cfg a)
    (hs : s.step cfg rs a = some s') : s.Moves cfg rs a s'.m := by
  have hgoes : s.does a = a → (s.m.step cfg rs a).map s.goes = some s' → s.Moves cfg rs a s'.m := by
    intro hd h
    obtain ⟨m1, h1, rfl⟩ := Option.map_eq_some_iff.mp h
    exact .step (by rw [hd]; exact h1)
  have hcur : ∀ {r : Nat} {x : Option Gap}, s.m.k.TCBRunning = some r → s.gap r = x →
    s.current = x := by
    intro r x hr hg
    unfold Split.current
    rw [hr]
    exact hg
  unfold Split.step at hs
  cases hr : s.m.k.TCBRunning with
  | none =>
    have hd : s.does a = a := by
      unfold Split.does Split.current
      rw [hr]
      cases a <;> rfl
    rw [hr] at hs
    cases a <;> exact hgoes hd hs
  | some r =>
    rw [hr] at hs
    cases a with
    | tick => exact hgoes rfl hs
    | call c =>
      dsimp only at hs
      split at hs
      · exact nomatch hs
      · split at hs
        · split at hs
          · exact nomatch hs
          · next hn =>
            obtain rfl := Option.some.inj hs
            exact .tests (not_not.mp fun e => hn (Or.inr (Or.inr e)))
        · exact hgoes rfl hs
    | resume =>
      dsimp only at hs
      split at hs
      · next g hg =>
        have hdoes : s.does .resume = .call g.call := by
          unfold Split.does
          rw [hcur hr hg]
        exact Split.commit_cases (hi r (by rw [hg]; rfl)) hring (hk g (hcur hr hg)) hr hdoes hs
      · next hg =>
        refine hgoes ?_ hs
        unfold Split.does
        rw [hcur hr hg]

/-- A call that its tests do not let go on is one step. -/
theorem Split.call_none {c : Call} (ht : c.tests cfg s.m.k = none)
    (hs : s.step cfg rs (.call c) = some s') :
    s.m.step cfg rs (.call c) = some s'.m := by
  have hgoes : (s.m.step cfg rs (.call c)).map s.goes = some s' →
      s.m.step cfg rs (.call c) = some s'.m := by
    intro h
    obtain ⟨m1, h1, rfl⟩ := Option.map_eq_some_iff.mp h
    exact h1
  unfold Split.step at hs
  split at hs
  · next c' r ha hr =>
    obtain rfl := Act.call.inj ha
    split at hs
    · exact nomatch hs
    · rw [ht] at hs
      exact hgoes hs
  · next ha hr => exact nomatch ha
  · exact hgoes hs

/-- A call that its tests let go on waits behind them. -/
theorem Split.call_some {c : Call} {v : Nat} (ht : c.tests cfg s.m.k = some v)
    (hr : ∃ r, s.m.k.TCBRunning = some r) (hs : s.step cfg rs (.call c) = some s') :
    s'.m = s.m ∧ s'.current = some (.tested c v) := by
  obtain ⟨r, hr⟩ := hr
  unfold Split.step at hs
  rw [hr] at hs
  dsimp only at hs
  split at hs
  · exact nomatch hs
  · rw [ht] at hs
    dsimp only at hs
    split at hs
    · exact nomatch hs
    · obtain rfl := Option.some.inj hs
      refine ⟨rfl, ?_⟩
      unfold Split.current
      dsimp only
      rw [hr]
      exact Function.update_self ..

/-- Behind its tests a call is one step, if it finds things as it has tested them. -/
theorem Split.resume_tested {c : Call} {v : Nat} (hi : s.Alone) (hring : RingOk cfg.served s.m.k)
    (hc : ∀ id, c ≠ .setFlag id) (hg : s.current = some (.tested c v)) (hk : s.Kept cfg .resume)
    (hs : s.step cfg rs .resume = some s') :
    c.tests cfg s.m.k = some v ∧ s.m.step cfg rs (.call c) = some s'.m := by
  obtain ⟨r, hr, hgap⟩ := Option.bind_eq_some_iff.mp hg
  have ht : c.tests cfg s.m.k = some v := hk _ hg
  unfold Split.step at hs
  rw [hr] at hs
  dsimp only at hs
  rw [hgap] at hs
  exact ⟨ht, Split.commit_tested (hi r (by rw [hgap]; rfl)) hring hr hc ht hs⟩

theorem Split.Alone.goes (hi : s.Alone)
    (ht : a ≠ .tick → ∀ r, s.m.k.TCBRunning = some r → s.gap r = none)
    (h : (s.m.step cfg rs a).map s.goes = some s') : s'.Alone := by
  obtain ⟨m1, h1, rfl⟩ := Option.map_eq_some_iff.mp h
  intro t hg
  have hgap : (s.gap t).isSome := by
    unfold Split.goes at hg
    dsimp only at hg
    split at hg
    · exact nomatch hg
    · exact hg
  obtain ⟨h2, h3⟩ := hi t hgap
  refine ⟨h2, step_cont h1 (fun ha hr => ?_) h3⟩
  rw [ht ha t hr] at hgap
  exact nomatch hgap

theorem Split.Alone.commit (hi : s.Alone) {r : Nat} {g : Gap} (hg : s.gap r = some g)
    (hs : s.commit cfg rs r g = some s') : s'.Alone := by
  by_cases htest : ∃ id v, g = .tested (.setFlag id) v
  · obtain ⟨id, v, rfl⟩ := htest
    unfold Split.commit at hs
    dsimp only at hs
    split at hs
    · exact nomatch hs
    · obtain rfl := Option.some.inj hs
      intro t ht
      by_cases htr : t = r
      · rw [htr]
        exact hi r (by rw [hg]; rfl)
      · exact hi t ((congrArg Option.isSome (Function.update_of_ne htr ..)).symm.trans ht)
  · obtain ⟨x, -, h2, -, h4, h5⟩ := Split.commit_some (fun id v e => htest ⟨id, v, e⟩) hs
    intro t ht
    have htr : t ≠ r := by
      rintro rfl
      rw [h4] at ht
      exact nomatch ht
    obtain ⟨h6, h7⟩ := hi t (h5 t ht)
    refine ⟨h6, ?_⟩
    rw [h2]
    exact (Function.update_of_ne htr ..).trans h7

theorem Split.Alone.step (hi : s.Alone) (hs : s.step cfg rs a = some s') : s'.Alone := by
  unfold Split.step at hs
  cases hr : s.m.k.TCBRunning with
  | none =>
    have hno : a ≠ .tick → ∀ r, s.m.k.TCBRunning = some r → s.gap r = none := fun _ r e => by
      rw [hr] at e
      exact nomatch e
    rw [hr] at hs
    cases a <;> exact hi.goes hno hs
  | some r =>
    have hone : s.gap r = none → a ≠ .tick → ∀ u, s.m.k.TCBRunning = some u → s.gap u = none :=
      fun hg _ u e => by
      obtain rfl := Option.some.inj (hr.symm.trans e)
      exact hg
    rw [hr] at hs
    cases a with
    | tick => exact hi.goes (fun e => absurd rfl e) hs
    | call c =>
      dsimp only at hs
      split at hs
      · exact nomatch hs
      · next hg =>
        split at hs
        · split at hs
          · exact nomatch hs
          · next hn =>
            obtain rfl := Option.some.inj hs
            obtain ⟨h1, h2⟩ := not_or.mp hn
            intro t ht
            by_cases htr : t = r
            · rw [htr]
              exact ⟨h1, not_not.mp (not_or.mp h2).1⟩
            · exact hi t ((congrArg Option.isSome (Function.update_of_ne htr ..)).symm.trans ht)
        · exact hi.goes (hone (Option.not_isSome_iff_eq_none.mp hg)) hs
    | resume =>
      dsimp only at hs
      split at hs
      · next g hg => exact hi.commit hg hs
      · next hg => exact hi.goes (hone hg) hs

theorem Split.Reach.alone {ok : Split → List SQC → Act → Prop} {m0 : Sys}
    (h : Split.Reach cfg ok m0 s) :
    s.Alone := by
  induction h with
  | start => exact fun t ht => nomatch ht
  | step _ _ hs ih => exact ih.step hs

end Step

/-! ## Runs -/

/-- The ready flags are no part of what keeps the kernel coherent. -/
theorem Inv.withRdy {cfg : Env} {m : Sys} {g : Ghost} {r : Nat} {F : List Nat} (h : Inv cfg m g r F)
    (x : BitVec 32) : Inv cfg { m with k := m.k.withRdy x } g r F :=
  ⟨h.stable.congr rfl rfl rfl, ⟨h.flags.list.congr rfl rfl rfl, h.flags.wait⟩,
    ⟨h.noMutex.id, h.noMutex.loc⟩, h.cnt, h.head, h.req, h.time, h.timer, h.sort, h.cont, h.idle⟩

section Runs

variable {cfg : Env} {ok : Sys → List SQC → Act → Prop} {P : Abs → Prop} {m0 : Sys} {s : Split}

/-- **The rule for invariants of runs with split calls** -/
theorem Split.Reach.rule (hfine : ∀ m rs act, ok m rs act → Fine cfg m rs act)
    (hok : ∀ m rs id x, ok m rs (.call (.setFlag id)) →
      ok { m with k := m.k.withRdy x } rs (.call (.setFlag id)))
    (hP : Keeps cfg ok (fun _ => True) P)
    (hset : ∀ {a : Abs} {id : Nat}, ¬ a.d.aside.badFlag id → P a →
      P { a with d := a.d.setRdy (a.d.aside.flagRdy ||| flagBit id) })
    (hclear : ∀ {a : Abs} {id : Nat},
      P a → P { a with d := a.d.setRdy (a.d.aside.flagRdy &&& ~~~ flagBit id) })
    (h0 : ∃ g r F, Inv cfg m0 g r F ∧ P (m0.abs cfg.served g))
      (h : Split.Reach cfg (Split.Ok cfg ok) m0 s) :
    ∃ g r F, Inv cfg s.m g r F ∧ P (s.m.abs cfg.served g) := by
  induction h with
  | start => exact h0
  | @step s s' rs a hreach hok' hs ih =>
    obtain ⟨g, r, F, hi, hp⟩ := ih
    obtain ⟨hk, hallow⟩ := hok'
    have hm := Split.step_cases hreach.alone hi.ringOk hk hs
    generalize s'.m = m' at hm
    cases hm with
    | tests hr => exact ⟨g, r, F, hi, hp⟩
    | step h => exact hP.step hi hp hallow (hfine _ _ _ hallow) h
    | write hr hd hb hn => exact ⟨g, r, F, hi.withRdy _, @hset (s.m.abs cfg.served g) _ hb hp⟩
    | @written id _ hd hb hset' h =>
      rw [hd] at hallow
      have hallow' := hok s.m rs id (s.m.k.flagRdy &&& ~~~ flagBit id) hallow
      exact hP.step (hi.withRdy _) (@hclear (s.m.abs cfg.served g) id hp) hallow'
        (hfine _ _ _ hallow') h

end Runs

end CoOS
