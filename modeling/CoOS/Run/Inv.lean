/-
  The invariant of runs, and the rule for invariants of what the runs are about.

  `Inv` holds after every step (`Inv.exec`): the lists of the kernel are coherent, the ring of
  requests is empty, and a task in the middle of a pend has passed the checks of its call.
  `Reach.rule` reduces a property of all runs to the effects of calls, ticks and requests.
-/
import CoOS.Run.Sim

namespace CoOS

open Function (update)
open DList

/-! ## The ring -/

/-- Requests of interrupts change the ring only. -/
theorem defer_spec {cfg : Env} (rs : List SQC) : ∀ {k : Kernel}, RingOk cfg k →
    ∃ b q, k.defer cfg rs = { k with IsrReq := b, ServiceReq := q } ∧ RingOk cfg (k.defer cfg rs) ∧
      (rs = [] → b = k.IsrReq) ∧
      q.pending cfg.maxServiceRequest ⊆ k.ServiceReq.pending cfg.maxServiceRequest ++ rs := by
  induction rs with
  | nil =>
    intro k h
    refine ⟨k.IsrReq, k.ServiceReq, rfl, h, fun _ => rfl, ?_⟩
    rw [List.append_nil]
    exact List.Subset.refl _
  | cons c rs ih =>
    intro k h
    have hone : ∃ b q, (insertInSRQ cfg k c.type c.id c.arg).1 =
        { k with IsrReq := b, ServiceReq := q } ∧
          RingOk cfg (insertInSRQ cfg k c.type c.id c.arg).1 ∧
          q.pending cfg.maxServiceRequest ⊆ k.ServiceReq.pending cfg.maxServiceRequest ++ [c] := by
      unfold insertInSRQ
      dsimp only
      split
      · exact ⟨k.IsrReq, k.ServiceReq, rfl, h, List.subset_append_left _ _⟩
      · next hc =>
        refine ⟨true, _, rfl, ⟨Nat.lt_of_not_le hc, h.head, ?_, h.time, h.timer⟩, ?_⟩
        · exact (decide_eq_true (Nat.succ_ne_zero _)).symm
        · rw [SRQ.pending_push (Nat.lt_of_not_le hc) h.head c]
          exact List.Subset.refl _
    obtain ⟨b1, q1, e1, h1, h3⟩ := hone
    obtain ⟨b, q, e2, h2, -, h4⟩ := ih h1
    rw [e1] at h4
    refine ⟨b, q, ?_, h2, (fun e => nomatch e), fun x hx => ?_⟩
    · change Kernel.defer cfg (insertInSRQ cfg k c.type c.id c.arg).1 rs = _
      rw [e2, e1]
    · rcases List.mem_append.mp (h4 hx) with hx | hx
      · rw [← List.singleton_append, ← List.append_assoc]
        exact List.mem_append_left _ (h3 hx)
      · exact List.mem_append_right _ (List.mem_cons_of_mem _ hx)

theorem Serves.fixed {cfg : Env} {d d' : Data} {cs : List SQC} (h : Serves cfg d cs d') :
    d'.aside.fixed = d.aside.fixed := by
  induction h with
  | nil d => rfl
  | cons _ _ ih => exact ih.trans (serve_fixed ..)

/-! ## What is left of a call -/

/-- The checks that a call has passed which has not returned. -/
def Cont.Passed (cfg : Env) (ty : Nat → EventType) : Cont → Prop
  | .block k id n => id < cfg.maxEvent ∧ ty id = k ∧ k ≠ .invalid ∧ n < 2 ^ 31
  | .wait k id n => id < cfg.maxEvent ∧ ty id = k ∧ k ≠ .invalid ∧ n < 2 ^ 31
  | .enterMutex _ => False
  | _ => True

section Passed

variable {cfg : Env} {a : Abs} {r : Nat} {x : Out}

theorem Abs.Deletes.cont {t : Nat} (hx : a.Deletes t x) : x.cont = .none := by
  obtain ⟨st, -, rfl⟩ | rfl := hx
  · rfl
  · rfl

theorem Call.Does.passed {k : Kernel} {rs : List SQC} {c : Call} (hx : c.Does cfg a r x)
    (hf : c.Fine cfg k rs) : x.cont.Passed cfg a.d.aside.eventType := by
  cases c with
  | createTask task stk parameter =>
    obtain rfl | ⟨i, p, w, -, -, rfl⟩ := hx
    · trivial
    · trivial
  | delTask t =>
    rw [Abs.Deletes.cont hx]
    trivial
  | exitTask =>
    rw [Abs.Deletes.cont hx]
    trivial
  | suspendTask t =>
    obtain ⟨st, rfl | rfl⟩ := hx
    · trivial
    · trivial
  | awakeTask t =>
    obtain ⟨st, rfl | ⟨rfl, -⟩⟩ := hx
    · trivial
    · trivial
  | setPriority t p =>
    obtain ⟨st, ⟨rfl, -⟩ | ⟨rfl, -⟩⟩ := hx
    · trivial
    · trivial
  | tickDelay n =>
    obtain ⟨st, rfl | rfl⟩ := hx
    · trivial
    · trivial
  | resetDelay t n =>
    obtain ⟨st, rfl | ⟨rfl, -⟩⟩ := hx
    · trivial
    · trivial
  | pend kd id n =>
    obtain rfl := hx
    split
    · trivial
    · next e =>
      unfold Data.pend at e
      split at e
      · cases e
      · next hk =>
        have := not_not.mp hk
        exact ⟨this.1, this.2, hf.1, hf.2⟩
  | waitFlag id n =>
    obtain rfl := hx
    split
    · trivial
    · trivial
  | waitFlags flags ty n =>
    obtain rfl := hx
    split
    · trivial
    · trivial
  | enterMutex m => exact hx.elim
  | leaveMutex m => exact hx.elim
  | _ =>
    obtain rfl := hx
    trivial

theorem Cont.Does.passed {ty : Nat → EventType} {c : Cont} (hx : c.Does a r x)
    (h : c.Passed cfg ty) : x.cont.Passed cfg ty := by
  cases c with
  | none => exact hx.elim
  | block k id n =>
    obtain rfl := hx
    exact h
  | wait k id n =>
    obtain rfl := hx
    trivial
  | waitFlag id n =>
    obtain rfl := hx
    trivial
  | waitFlags flags ty n =>
    obtain rfl := hx
    trivial
  | enterMutex m => exact hx.elim

theorem forget_cases (cont : Nat → Cont) (t : Option Nat) (ret : Option Ret) (u : Nat) :
    forget cont t ret u = cont u ∨ forget cont t ret u = .none := by
  unfold forget
  split
  · next t v =>
    by_cases hu : u = t
    · rw [hu, Function.update_self]
      exact Or.inr rfl
    · exact Or.inl (Function.update_of_ne hu ..)
  · exact Or.inl rfl

theorem forget_failed {cont : Nat → Cont} {t : Option Nat} {v : Nat} {st : StatusType}
    (h : st ≠ .E_OK) : forget cont t (some (v, st)) = cont := by
  unfold forget
  split
  · next h2 => exact absurd (congrArg Prod.snd (Option.some.inj h2)) h
  · rfl

theorem forget_ind {P : Cont → Prop} {cont : Nat → Cont} {c : Cont} {ends : Option Nat}
    {ret : Option Ret} (h0 : P .none) (hc : P c) (h : ∀ t, P (cont t)) (t : Nat) :
    P (forget (update cont r c) ends ret t) := by
  rcases forget_cases (update cont r c) ends ret t with e | e
  · rw [e]
    by_cases ht : t = r
    · rw [ht, Function.update_self]
      exact hc
    · rw [Function.update_of_ne ht]
      exact h t
  · rw [e]
    exact h0

end Passed

/-! ## The invariant -/

structure Inv (cfg : Env) (m : Sys) (g : Ghost) (r : Nat) (F : List Nat) : Prop where
  stable : Stable cfg.served m.k g r
  flags : FlagOk cfg.served m.k g F
  noMutex : NoMutex cfg.served m.k g
  cnt : m.k.ServiceReq.cnt = 0
  head : m.k.ServiceReq.head < cfg.maxServiceRequest
  req : m.k.IsrReq = false
  time : m.k.TimeReq = false
  timer : m.k.TimerReq = false
  sort : ∀ e, m.k.eventType e ≠ .invalid →
    m.k.eventSortType e = sortFifo ∨ m.k.eventSortType e = sortPrio
  cont : ∀ t, (m.cont t).Passed cfg m.k.eventType
  idle : m.cont 0 = .none

/-- The step can be taken. -/
def Enabled (m : Sys) (r : Nat) : Act → Prop
  | .call c => r ≠ 0 ∧ m.cont r = .none ∧ ¬ c.Wild m.k
  | .resume => m.cont r ≠ .none
  | .tick => True

section Inv

variable {cfg : Env} {m m' : Sys} {g g1 g' : Ghost} {r r' : Nat} {F F' : List Nat} {d d' : Data}

theorem Inv.ringOk (h : Inv cfg m g r F) : RingOk cfg.served m.k := by
  refine ⟨?_, h.head, ?_, h.time, h.timer⟩
  · rw [h.cnt]
    exact Nat.zero_le _
  · rw [h.req, h.cnt]
    rfl

theorem Inv.caller (h : Inv cfg m g r F) (b : Bool) (q : SRQ) :
    Caller cfg.served ((m.abs cfg.served g).setRing b q) r := by
  obtain ⟨h1, h2⟩ := h.stable.coh.loc_of_running h.stable.picked.live h.stable.picked.running
  refine ⟨h.stable.picked.live.1, h.stable.picked.live, fun hw => ?_, fun ht => ?_, h2⟩
  · have := h.stable.picked.running
    rw [show m.k.state r = .WAITING from hw] at this
    exact nomatch this
  · rw [show g.tcb.loc r = some .dly from ht] at h1
    exact nomatch h1

/-- The columns that a section of a task has kept. -/
structure SecOk (cfg : Env) (m : Sys) (g1 : Ghost) (d : Data) : Prop where
  mtx : ∀ t m, g1.tcb.loc t ≠ some (.mtx m)
  id : ∀ t, Live cfg.served g1 t → d.aside.mutexID t = INVALID_ID
  type : d.aside.eventType = m.k.eventType
  sort : d.aside.eventSortType = m.k.eventSortType
  time : d.aside.TimeReq = false
  timer : d.aside.TimerReq = false

theorem Ended.inv {rs : List SQC} {b : Bool} {q : SRQ} (he : Ended cfg rs m'.k g1 d g' r' F' d' b q)
    (h : Inv cfg m g r F) (hb : m'.k.IsrReq = false) (hk : SecOk cfg m g1 d)
    (hcont : ∀ t, (m'.cont t).Passed cfg m.k.eventType) (hidle : m'.cont 0 = .none) :
    Inv cfg m' g' r' F' := by
  obtain ⟨cs, -, hs⟩ := he.serves
  have hfx := hs.fixed
  have ha := he.data.aside
  have hb' : b = false := (congrArg Aside.IsrReq ha).symm.trans hb
  have hq : m'.k.ServiceReq = q := congrArg Aside.ServiceReq ha
  have hty : m'.k.eventType = m.k.eventType :=
    (congrArg Aside.eventType ha).trans ((congrArg Fixed.eventType hfx).trans hk.type)
  have hso : m'.k.eventSortType = m.k.eventSortType :=
    (congrArg Aside.eventSortType ha).trans ((congrArg Fixed.eventSortType hfx).trans hk.sort)
  have hmx : m'.k.mutexID = d.aside.mutexID :=
    (congrArg Aside.mutexID ha).trans (congrArg Fixed.mutexID hfx)
  obtain ⟨r1, r2⟩ := he.ring hb'
  refine ⟨he.stable, he.flags, ⟨fun t ht => ?_, he.calm.noMutex hk.mtx⟩, ?_, ?_, hb, ?_, ?_, ?_, ?_,
    hidle⟩
  · rw [hmx]
    exact hk.id t ((he.calm.live t).mp ht)
  · rw [hq]
    exact r1
  · rw [hq]
    exact r2
  · exact (congrArg Aside.TimeReq ha).trans ((congrArg Fixed.TimeReq hfx).trans hk.time)
  · exact (congrArg Aside.TimerReq ha).trans ((congrArg Fixed.TimerReq hfx).trans hk.timer)
  · rw [hty, hso]
    exact h.sort
  · rw [hty]
    exact hcont

/-- What the fixed columns after a section say. -/
theorem Inv.secOk {x : Out} {b : Bool} {q : SRQ} (h : Inv cfg m g r F)
    (hm : ∀ t m, g1.tcb.loc t ≠ some (.mtx m)) (ha : x.alive = Live cfg.served g1)
    (hx : (x.d.aside.fixed = (m.k.aside.setRing b q).fixed ∧ ∀ u, x.alive u → Live cfg.served g u) ∨
      ∃ i, x.d.aside.fixed = (m.k.aside.setRing b q).fixed.create i ∧
        ∀ u, x.alive u → u = i ∨ Live cfg.served g u) : SecOk cfg m g1 x.d := by
  rcases hx with ⟨e, hl⟩ | ⟨i, e, hl⟩
  · refine ⟨hm, fun t ht => ?_, congrArg Fixed.eventType e, congrArg Fixed.eventSortType e,
      (congrArg Fixed.TimeReq e).trans h.time, (congrArg Fixed.TimerReq e).trans h.timer⟩
    rw [show x.d.aside.mutexID = m.k.mutexID from congrArg Fixed.mutexID e]
    rw [← ha] at ht
    exact h.noMutex.id t (hl t ht)
  · refine ⟨hm, fun t ht => ?_, congrArg Fixed.eventType e, congrArg Fixed.eventSortType e,
      (congrArg Fixed.TimeReq e).trans h.time, (congrArg Fixed.TimerReq e).trans h.timer⟩
    rw [show x.d.aside.mutexID = update m.k.mutexID i INVALID_ID from congrArg Fixed.mutexID e]
    rw [← ha] at ht
    by_cases hti : t = i
    · rw [hti, Function.update_self]
    · rw [Function.update_of_ne hti]
      exact h.noMutex.id t ((hl t ht).resolve_left hti)

/-- The ring after a section. -/
theorem ring_of_fixed {d0 : Data} {alive alive0 : Nat → Prop}
    (hx : (d.aside.fixed = d0.aside.fixed ∧ ∀ u, alive u → alive0 u) ∨
      ∃ i, d.aside.fixed = d0.aside.fixed.create i ∧ ∀ u, alive u → u = i ∨ alive0 u) :
    d.aside.fixed.ring = d0.aside.fixed.ring := by
  rcases hx with ⟨e, -⟩ | ⟨i, e, -⟩
  · rw [e]
  · rw [e]
    rfl

/-- What one step does: an effect of the running task `r` or of the tick, and then the requests
    that are drained. -/
structure Stepped (cfg : Env) (m m' : Sys) (g g' : Ghost) (r : Nat) (rs : List SQC) (act : Act)
    (b b' : Bool) (q q' : SRQ) (a1 : Abs) (d' : Data) : Prop where
  caller : Caller cfg.served ((m.abs cfg.served g).setRing b q) r
  mid : Mid cfg.served r ((m.abs cfg.served g).setRing b q) act a1
  serves : ∃ cs, cs ⊆ rs ∧ Serves cfg.served a1.d cs d'
  abs : m'.abs cfg.served g' = { a1 with d := d'.setRing b' q' }

theorem Ended.abs {rs : List SQC} {s' : Kernel} {b : Bool} {q : SRQ} {alive : Nat → Prop}
    (he : Ended cfg rs s' g1 d g' r' F' d' b q) (ha : alive = Live cfg.served g1)
    (cont : Nat → Cont)
    (log : List Entry) :
    (Sys.mk s' cont log).abs cfg.served g' = ⟨d'.setRing b q, alive, cont, log⟩ := by
  unfold Sys.abs
  rw [he.data.eq, ha, he.calm.live_eq]

/-- The end of a step of the task `r` whose section has ended with `x`. -/
theorem Inv.after {op : Call ⊕ Cont} {ends : Option Nat} {P : Out → Prop} {res : Option Outcome}
    {b : Bool} {q : SRQ} (h : Inv cfg m g r F)
    (hring : RingOk cfg.served { m.k with IsrReq := b, ServiceReq := q })
    (hends : Ends cfg.served { m.k with IsrReq := b, ServiceReq := q } r res fun y d g1 =>
      P ⟨d, Live cfg.served g1, y.1, y.2⟩ ∧ ∀ t m, g1.tcb.loc t ≠ some (.mtx m))
    (hr : r ≠ 0)
    (hP : ∀ x, P x → (∃ F', Listed x.d x.alive F' ∧ ∀ t ∈ F', t ∈ F ∨ t = r) ∧
      x.cont.Passed cfg m.k.eventType ∧
      ((x.d.aside.fixed = (m.k.aside.setRing b q).fixed ∧ ∀ u, x.alive u → Live cfg.served g u) ∨
        ∃ i, x.d.aside.fixed = (m.k.aside.setRing b q).fixed.create i ∧
          ∀ u, x.alive u → u = i ∨ Live cfg.served g u)) :
    ∃ m' x d' b' q' g' r' F', res.map (m.after r op ends) = some m' ∧ P x ∧
      (∃ cs, cs ⊆ q.pending cfg.maxServiceRequest ∧ Serves cfg.served x.d cs d') ∧
      m'.abs cfg.served g' =
        { (((m.abs cfg.served g).setRing b q).after r op ends x) with d := d'.setRing b' q' } ∧
      (m'.k.IsrReq = false → Inv cfg m' g' r' F') ∧ (b = false → m'.k.IsrReq = false) := by
  obtain ⟨s', y, d, g1, g', r', F', d', b', q', e1, ⟨hp, hm⟩, he, hb0⟩ :=
    hends.finish h.stable.lock hring fun y d g1 hy => by
      obtain ⟨⟨F', h1, -⟩, -, h3⟩ := hP _ hy.1
      exact ⟨@ring_of_fixed d ((m.k.data g).setRing b q) _ _ h3, F', h1, fun t _ => hy.2 t⟩
  obtain ⟨-, h2, h3⟩ := hP _ hp
  refine ⟨m.after r op ends (s', y), ⟨d, Live cfg.served g1, y.1, y.2⟩, d', b', q', g', r', F', ?_,
    hp, he.serves, he.abs rfl _ _, fun hb => ?_,
    fun hb => (congrArg Aside.IsrReq he.data.aside).trans (hb0 hb)⟩
  · rw [e1]
    rfl
  · refine @Ended.inv cfg m (m.after r op ends (s', y)) g g1 g' r r' F F' d d' _ b' q' he h hb
      (h.secOk hm rfl h3) (forget_ind trivial h2 h.cont) ?_
    rcases forget_cases (update m.cont r y.1) ends y.2 0 with e | e
    · exact e.trans ((Function.update_of_ne (Ne.symm hr) ..).trans h.idle)
    · exact e

/-- **One step**, which is always possible. -/
theorem Inv.exec (h : Inv cfg m g r F) {rs : List SQC} {act : Act} (hfine : Fine cfg m rs act)
    (hen : Enabled m r act) :
    ∃ m' b q a1 d' b' q' g' r' F', m.exec cfg.served rs act = some m' ∧
      Stepped cfg m m' g g' r rs act b b' q q' a1 d' ∧ (m'.k.IsrReq = false → Inv cfg m' g' r' F') ∧
      (rs = [] → m'.k.IsrReq = false) := by
  obtain ⟨b, q, hk, hring, hnil, hsub⟩ := @defer_spec cfg.served rs m.k h.ringOk
  rw [hk] at hring
  -- the ring was empty
  have hsub : ∀ {cs : List SQC}, cs ⊆ q.pending cfg.maxServiceRequest → cs ⊆ rs := by
    intro cs hc
    have h0 : m.k.ServiceReq.pending cfg.maxServiceRequest = [] := by
      unfold SRQ.pending
      rw [h.cnt]
      rfl
    have := List.Subset.trans hc hsub
    rwa [show cfg.served.maxServiceRequest = cfg.maxServiceRequest from rfl, h0] at this
  let k : Kernel := { m.k with IsrReq := b, ServiceReq := q }
  have hst : Stable cfg.served k g r := h.stable.congr rfl rfl rfl
  have hfl : FlagOk cfg.served k g F := h.flags.setRing b q
  have hmu : NoMutex cfg.served k g := ⟨h.noMutex.id, h.noMutex.loc⟩
  have hca := h.caller b q
  have hli : Listed (k.data g) (Live cfg.served g) F :=
    ⟨hfl.data, fun t ht => (h.flags.wait t ht).1⟩
  cases act with
  | call c =>
    obtain ⟨hr, h0, hw⟩ := hen
    have hends := @Call.exec_ends cfg.served k g r F hst hr hfl hmu rs c hfine
      (fun e => (hnil e).trans h.req) (by cases c <;> exact hw) m.cont m.log
    obtain ⟨m', x, d', b', q', g', r', F', e1, e2, e3, e4, e5, e6⟩ :=
      @Inv.after cfg m g r F (.inl c) (c.ends r) (fun x => c.Does cfg.served
        ((m.abs cfg.served g).setRing b q) r x) _ b q h hring hends hr fun x hx =>
        ⟨hx.listed hli hst.coh.evtOk h.flags.length hca, hx.passed hfine, hx.fixed⟩
    refine ⟨m', b, q, _, d', b', q', g', r', F', ?_,
      ⟨hca, .call hr h0 e2, e3.imp fun _ hc => ⟨hsub hc.1, hc.2⟩, e4⟩, e5,
      fun e => e6 ((hnil e).trans h.req)⟩
    unfold Sys.exec
    rw [h.stable.running, hk]
    exact (if_neg (not_or.mpr ⟨hr, fun e => e h0⟩)).trans e1
  | resume =>
    have hr : r ≠ 0 := by
      rintro rfl
      exact hen h.idle
    have hpass := h.cont r
    have hcf : (m.cont r).Fine cfg.served k := by
      cases hc : m.cont r with
      | block kd id n =>
        rw [hc] at hpass
        exact ⟨hpass.1, h.sort id (by rw [hpass.2.1]; exact hpass.2.2.1), hpass.2.2.2⟩
      | enterMutex i =>
        rw [hc] at hpass
        exact hpass
      | _ => trivial
    have hends := @Cont.exec_ends cfg.served k g r hst hr hmu (m.cont r) hen hcf m.cont m.log
    obtain ⟨m', x, d', b', q', g', r', F', e1, e2, e3, e4, e5, e6⟩ :=
      @Inv.after cfg m g r F (.inr (m.cont r)) none (fun x => (m.cont r).Does
        ((m.abs cfg.served g).setRing b q) r x) _ b q h hring hends hr fun x hx =>
        ⟨hx.listed hli hca, hx.passed hpass,
          Or.inl ⟨hx.fixed.1, by rw [hx.fixed.2]; exact fun _ hu => hu⟩⟩
    refine ⟨m', b, q, _, d', b', q', g', r', F', ?_,
      ⟨hca, .resume hen e2, e3.imp fun _ hc => ⟨hsub hc.1, hc.2⟩, e4⟩, e5,
      fun e => e6 ((hnil e).trans h.req)⟩
    unfold Sys.exec
    rw [h.stable.running, hk]
    exact (if_neg hen).trans e1
  | tick =>
    obtain ⟨s1, g1, e1, e2, -⟩ := @sysTick_section cfg.served k g r hst
    let T := due g.dly
    have hT : ∀ t ∈ T, (k.data g).timed t := due_loc h.stable.coh
    have hends : Ends cfg.served k r ((sysTick_Handler cfg.served k).map fun s => (s, ()))
        fun _ d g1 => d = (k.data g).expire T ∧ Calm g g1 :=
      Or.inr ⟨s1, g1, (), _, by rw [e1], ⟨e2.pend, e2.lock, Calm.refl _, e2.data⟩, rfl, e2.calm⟩
    have hfx : ((k.data g).expire T).aside.fixed = k.aside.fixed :=
      congrArg EvtPart.fixed (expire_evtPart (k.data g) T)
    obtain ⟨s', y, d, g2, g', r', F', d', b', q', f1, ⟨rfl, hc⟩, he, hb0⟩ :=
      hends.finish h.stable.lock hring fun y d g1 hy => by
        obtain ⟨rfl, hc⟩ := hy
        refine ⟨congrArg Fixed.ring hfx, F.filter (· ∉ T), ?_,
          fun t _ => hc.noMutex h.noMutex.loc t⟩
        rw [hc.live_eq]
        exact ⟨(hli.expire T).flag, fun t ht => ((hli.expire T).alive t ht).2⟩
    have hres : sysTick_Handler cfg.served k = some s' := by
      cases hs : sysTick_Handler cfg.served k with
      | none =>
        rw [hs] at f1
        exact nomatch f1
      | some z =>
        rw [hs] at f1
        exact congrArg some (congrArg Prod.fst (Option.some.inj f1))
    refine ⟨{ m with k := takeSwitch s' }, b, q, _, d', b', q', g', r', F', ?_, ⟨hca, .tick hT,
      he.serves.imp fun _ hc => ⟨hsub hc.1, hc.2⟩, he.abs hc.live_eq.symm _ _⟩, fun hb => ?_,
      fun e => (congrArg Aside.IsrReq he.data.aside).trans (hb0 ((hnil e).trans h.req))⟩
    · unfold Sys.exec
      rw [hk]
      exact congrArg (Option.map _) hres
    · refine @Ended.inv cfg m
        { m with k := takeSwitch s' } g g2 g' r r' F F' _ d' _ b' q' he h hb ?_
        h.cont h.idle
      exact @Inv.secOk cfg m g g2 r F ⟨(k.data g).expire T, Live cfg.served g2, .none, none⟩ b q h
        (hc.noMutex h.noMutex.loc) rfl (Or.inl ⟨hfx, by rw [hc.live_eq]; exact fun _ hu => hu⟩)

/-- A step that was taken could be taken; `hwild` says that a call that would follow a mark has no
    state after it. -/
theorem enabled_of_exec (hr : m.k.TCBRunning = some r) {rs : List SQC} {act : Act}
    (hwild : ∀ t, act = .call (.delTask t) → m.k.Wild t →
      coDelTask cfg.served (m.k.defer cfg.served rs) t = none)
    (hs : m.exec cfg.served rs act = some m') : Enabled m r act := by
  unfold Sys.exec at hs
  rw [hr] at hs
  cases act with
  | call c =>
    dsimp only at hs
    split at hs
    · exact nomatch hs
    · next hn =>
      refine ⟨fun e => hn (Or.inl e), not_not.mp fun e => hn (Or.inr e), fun hw => ?_⟩
      cases c with
      | delTask t =>
        rw [show Call.exec cfg.served (m.k.defer cfg.served rs) (.delTask t) = none from
          congrArg (Option.map _) (hwild t rfl hw)] at hs
        exact nomatch hs
      | _ => exact hw
  | resume =>
    dsimp only at hs
    split at hs
    · exact nomatch hs
    · next hn => exact hn
  | tick => trivial

theorem defer_wild (hr : RingOk cfg.served m.k) (rs : List SQC) {t : Nat} (ht : t < cfg.tasks)
    (hm : m.k.mutexID t = INVALID_ID) (hw : m.k.Wild t) :
    coDelTask cfg.served (m.k.defer cfg.served rs) t = none := by
  obtain ⟨b, q, hk, -⟩ := @defer_spec cfg.served rs m.k hr
  rw [hk]
  exact coDelTask_wild ht hm hw

theorem Inv.enabled (h : Inv cfg m g r F) {rs : List SQC} {act : Act} (hfine : Fine cfg m rs act)
    (hs : m.exec cfg.served rs act = some m') : Enabled m r act :=
  enabled_of_exec h.stable.running (fun t ht hw => by
    subst ht
    have hl : Live cfg.served g t := (alive_iff h.stable.coh.rep t).mp hfine
    exact defer_wild h.ringOk rs hl.1 (h.noMutex.id t hl) hw) hs

theorem Inv.step (h : Inv cfg m g r F) {rs : List SQC} {act : Act} (hfine : Fine cfg m rs act)
    (hs : m.step cfg rs act = some m') :
    ∃ b q a1 d' b' q' g' r' F', Stepped cfg m m' g g' r rs act b b' q q' a1 d' ∧
    Inv cfg m' g' r' F' := by
  unfold Sys.step at hs
  obtain ⟨he, hreq⟩ := Option.filter_eq_some_iff.mp hs
  have hb : m'.k.IsrReq = false := by
    rw [Bool.not_eq_true'] at hreq
    exact hreq
  obtain ⟨m1, b, q, a1, d', b', q', g', r', F', e1, e2, e3, -⟩ :=
    h.exec hfine (h.enabled hfine he)
  rw [he] at e1
  obtain rfl := Option.some.inj e1
  exact ⟨b, q, a1, d', b', q', g', r', F', e2, e3 hb⟩

/-- A step during which no interrupt defers a request can be taken. -/
theorem Inv.progress (h : Inv cfg m g r F) {act : Act} (hfine : Fine cfg m [] act)
    (hen : Enabled m r act) : ∃ m', m.step cfg [] act = some m' := by
  obtain ⟨m', b, q, a1, d', b', q', g', r', F', e1, -, -, e4⟩ := h.exec hfine hen
  refine ⟨m', Option.filter_eq_some_iff.mpr ⟨e1, ?_⟩⟩
  rw [e4 rfl]
  rfl

end Inv

/-! ## The rule -/

/-- The effect of a step from `m` starts in `a`, with the running task `r`. -/
def At (cfg : Env) (m : Sys) (a : Abs) (r : Nat) : Prop :=
  ∃ g F b q, Inv cfg m g r F ∧ a = (m.abs cfg.served g).setRing b q

section At

variable {cfg : Env} {m : Sys} {a : Abs} {r : Nat}

theorem At.caller (h : At cfg m a r) : Caller cfg.served a r := by
  obtain ⟨g, F, b, q, hi, rfl⟩ := h
  exact hi.caller b q

theorem At.wf (h : At cfg m a r) : Wf cfg.served a.d := by
  obtain ⟨g, F, b, q, hi, rfl⟩ := h
  exact (hi.flags.wf hi.stable.coh).setRing

theorem At.cont (h : At cfg m a r) : a.cont = m.cont := by
  obtain ⟨g, F, b, q, hi, rfl⟩ := h
  rfl

theorem At.log (h : At cfg m a r) : a.log = m.log := by
  obtain ⟨g, F, b, q, hi, rfl⟩ := h
  rfl

theorem At.running (h : At cfg m a r) : m.k.TCBRunning = some r := by
  obtain ⟨g, F, b, q, hi, rfl⟩ := h
  exact hi.stable.running

theorem At.evt (h : At cfg m a r) {t e : Nat} (he : a.d.evt.loc t = some e) :
    a.alive t ∧ e < cfg.maxEvent := by
  obtain ⟨g, F, b, q, hi, rfl⟩ := h
  exact ⟨hi.stable.coh.evt_live he, (hi.stable.coh.rep.evLt t e he).2⟩

theorem At.passed (h : At cfg m a r) (t : Nat) : (a.cont t).Passed cfg a.d.aside.eventType := by
  obtain ⟨g, F, b, q, hi, rfl⟩ := h
  exact hi.cont t

theorem At.sort (h : At cfg m a r) {e : Nat} (he : a.d.aside.eventType e ≠ .invalid) :
    a.d.aside.eventSortType e = sortFifo ∨ a.d.aside.eventSortType e = sortPrio := by
  obtain ⟨g, F, b, q, hi, rfl⟩ := h
  exact hi.sort e he

end At

/-- A step during which no interrupt defers a request: the effect alone. -/
theorem Inv.alone {g : Ghost} {F : List Nat} (hi : Inv cfg m g r F) {act : Act}
    (hf : Fine cfg m [] act)
    {m' : Sys} (hs : m.step cfg [] act = some m') : ∃ b q a1 b' q' g' r' F',
      Mid cfg.served r ((m.abs cfg.served g).setRing b q) act a1 ∧ Inv cfg m' g' r' F' ∧
      m'.abs cfg.served g' = a1.setRing b' q' := by
  obtain ⟨b, q, a1, d', b', q', g', r', F', hst, hi'⟩ := hi.step hf hs
  obtain ⟨cs, hcs, hc⟩ := hst.serves
  obtain rfl := List.subset_nil.mp hcs
  cases hc
  exact ⟨b, q, a1, b', q', g', r', F', hst.mid, hi', hst.abs⟩

/-- `P` is kept by everything a step that `ok` allows is made of, where `G` holds. -/
structure Keeps (cfg : Env) (ok : Sys → List SQC → Act → Prop) (G P : Abs → Prop) : Prop where
  ring : ∀ {a : Abs} (b : Bool) (q : SRQ), P a → P (a.setRing b q)
  serve : ∀ {a : Abs} (c : SQC), G a → P a → Wf cfg.served a.d →
    P { a with d := a.d.serve cfg.served c }
  mid : ∀ {m : Sys} {rs : List SQC} {act : Act} {a a1 : Abs} {r : Nat}, ok m rs act → At cfg m a r →
    G a → P a → Mid cfg.served r a act a1 → P a1

section Rule

variable {cfg : Env} {ok : Sys → List SQC → Act → Prop} {G P : Abs → Prop} {m0 m : Sys}

theorem Keeps.and (hG : Keeps cfg ok (fun _ => True) G) (hP : Keeps cfg ok G P) :
    Keeps cfg ok (fun _ => True) fun a => G a ∧ P a :=
  ⟨fun b q h => ⟨hG.ring b q h.1, hP.ring b q h.2⟩,
    fun c _ h hw => ⟨hG.serve c trivial h.1 hw, hP.serve c h.1 h.2 hw⟩,
    fun hok hat _ h hm => ⟨hG.mid hok hat trivial h.1 hm, hP.mid hok hat h.1 h.2 hm⟩⟩

theorem Keeps.mono {G' : Abs → Prop} (hP : Keeps cfg ok G P) (hG : ∀ a, G' a → G a) :
    Keeps cfg ok G' P :=
  ⟨hP.ring, fun c hg h hw => hP.serve c (hG _ hg) h hw, fun hok hat hg h hm =>
    hP.mid hok hat (hG _ hg) h hm⟩

theorem Keeps.serves (hP : Keeps cfg ok (fun _ => True) P) {a : Abs} {d d' : Data} {cs : List SQC}
    (hs : Serves cfg.served d cs d') (h : P { a with d := d }) : P { a with d := d' } := by
  induction hs with
  | nil d => exact h
  | cons hw _ ih => exact ih (hP.serve _ trivial h hw)

/-- A step from a state of the invariant. -/
theorem Keeps.step (hP : Keeps cfg ok (fun _ => True) P) {g : Ghost} {r : Nat} {F : List Nat}
    (hi : Inv cfg m g r F) (h : P (m.abs cfg.served g)) {m' : Sys} {rs : List SQC} {act : Act}
    (hok : ok m rs act) (hfine : Fine cfg m rs act) (hs : m.step cfg rs act = some m') :
    ∃ g' r' F', Inv cfg m' g' r' F' ∧ P (m'.abs cfg.served g') := by
  obtain ⟨b, q, a1, d', b', q', g', r', F', hst, hi'⟩ := hi.step hfine hs
  obtain ⟨cs, -, hc⟩ := hst.serves
  refine ⟨g', r', F', hi', ?_⟩
  rw [hst.abs]
  have h1 : P a1 := hP.mid hok ⟨g, F, b, q, hi, rfl⟩ trivial (hP.ring b q h) hst.mid
  exact hP.ring b' q' (hP.serves hc h1)

/-- A step from a state where `P` holds to a state where `Q` holds, along an invariant `G`. -/
theorem Inv.carry {Q : Abs → Prop} (hG : Keeps cfg ok (fun _ => True) G) {g : Ghost} {r : Nat}
    {F : List Nat} (hi : Inv cfg m g r F) (hg : G (m.abs cfg.served g))
    (hp : P (m.abs cfg.served g))
    {m' : Sys} {rs : List SQC} {act : Act} (hok : ok m rs act) (hfine : Fine cfg m rs act)
    (hs : m.step cfg rs act = some m')
    (ring : ∀ {a : Abs} (b : Bool) (q : SRQ), P a → P (a.setRing b q))
    (ring' : ∀ {a : Abs} (b : Bool) (q : SRQ), Q a → Q (a.setRing b q))
    (serve : ∀ {a : Abs} (c : SQC), G a → Q a → Wf cfg.served a.d →
      Q { a with d := a.d.serve cfg.served c })
    (mid : ∀ {a a1 : Abs} {r : Nat}, At cfg m a r → G a → P a → Mid cfg.served r a act a1 → Q a1) :
    ∃ g' r' F', Inv cfg m' g' r' F' ∧ G (m'.abs cfg.served g') ∧ Q (m'.abs cfg.served g') := by
  obtain ⟨b, q, a1, d', b', q', g', r', F', hst, hi'⟩ := hi.step hfine hs
  obtain ⟨cs, -, hc⟩ := hst.serves
  have hat : At cfg m ((m.abs cfg.served g).setRing b q) r := ⟨g, F, b, q, hi, rfl⟩
  have hg1 : G a1 := hG.mid hok hat trivial (hG.ring b q hg) hst.mid
  have hq1 : Q a1 := mid hat (hG.ring b q hg) (ring b q hp) hst.mid
  have hserves : ∀ {d d' : Data} {cs : List SQC}, Serves cfg.served d cs d' → G { a1 with d := d } →
      Q { a1 with d := d } → G { a1 with d := d' } ∧ Q { a1 with d := d' } := by
    intro d d' cs hs
    induction hs with
    | nil d => exact fun h1 h2 => ⟨h1, h2⟩
    | cons hw _ ih => exact fun h1 h2 => ih (hG.serve _ trivial h1 hw) (serve _ h1 h2 hw)
  obtain ⟨h1, h2⟩ := hserves hc hg1 hq1
  refine ⟨g', r', F', hi', ?_, ?_⟩
  · rw [hst.abs]
    exact hG.ring b' q' h1
  · rw [hst.abs]
    exact ring' b' q' h2

/-- **The rule for invariants of runs** -/
theorem Reach.rule (hfine : ∀ m rs act, ok m rs act → Fine cfg m rs act)
    (hP : Keeps cfg ok (fun _ => True) P)
    (h0 : ∃ g r F, Inv cfg m0 g r F ∧ P (m0.abs cfg.served g)) (h : Reach cfg ok m0 m) :
    ∃ g r F, Inv cfg m g r F ∧ P (m.abs cfg.served g) := by
  induction h with
  | start => exact h0
  | step _ hok hs ih =>
    obtain ⟨g, r, F, hi, hp⟩ := ih
    exact hP.step hi hp hok (hfine _ _ _ hok) hs

/-- The kernel is coherent in every state reached. -/
theorem Reach.inv (hfine : ∀ m rs act, ok m rs act → Fine cfg m rs act)
    (h0 : ∃ g r F, Inv cfg m0 g r F) (h : Reach cfg ok m0 m) : ∃ g r F, Inv cfg m g r F := by
  obtain ⟨g0, r0, F0, hi0⟩ := h0
  have hk : Keeps cfg ok (fun _ => True) fun _ => True :=
    ⟨fun _ _ _ => trivial, fun _ _ _ _ => trivial, fun _ _ _ _ _ => trivial⟩
  obtain ⟨g, r, F, hi, -⟩ := Reach.rule hfine hk ⟨g0, r0, F0, hi0, trivial⟩ h
  exact ⟨g, r, F, hi⟩

end Rule

end CoOS
