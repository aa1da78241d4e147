/-
  What lawful runs show of the mutexes: at most one task is inside (`mutual_exclusion`), and they
  are served in the order in which they came (`mutex_first_come`).
-/
import CoOS.Mutex.Boot
import CoOS.Run.Coherent

namespace CoOS

open Function (update)
open DList

/-! ## The rule -/

section Rule

variable {cfg : Env} {ok : Sys → List SQC → Act → Prop} {m m0 : Sys} {P : Sys → Locks → Prop}

/-- **The rule for invariants of lawful runs**; the steps of `P` are about the mutexes alone. -/
theorem Reach.locks_rule
    (hs : ∀ {m m' : Sys} {g : Ghost} {r : Nat} {F : List Nat} {rs : List SQC} {act : Act}
        {L' : Locks},
      LockInv cfg m g r F → P m (m.k.locks cfg.served g) → ok m rs act →
      Locks.Steps cfg.served r m m' act (m.k.locks cfg.served g) L' → P m' L')
    (hok : ∀ m rs act, ok m rs act → Lawful cfg m rs act)
    (h0 : ∃ g r F, LockInv cfg m0 g r F ∧ P m0 (m0.k.locks cfg.served g)) (h : Reach cfg ok m0 m) :
    ∃ g r F, LockInv cfg m g r F ∧ P m (m.k.locks cfg.served g) := by
  induction h with
  | start => exact h0
  | step _ h1 hstep ih =>
    obtain ⟨g, r, F, hi, hp⟩ := ih
    obtain ⟨g', r', F', hi', hst⟩ := hi.step (hok _ _ _ h1) hstep
    exact ⟨g', r', F', hi', hs hi hp h1 hst⟩

end Rule

/-! ## Lines in the kernel -/

/-- The owner of a mutex, and the tasks that wait for it. -/
def Kernel.mutexLine (cfg : Env) (k : Kernel) (i : Nat) : List Nat :=
  if k.mutexOccupied i then k.mutexTaskID i :: walk k.TCBnext cfg.tasks (k.waittingList i) else []

/-- The visits to the mutex `i`, in the order of the run. -/
def Sys.visits (m : Sys) (i : Nat) : List (Line.Visit Nat) := m.log.filterMap (Entry.visit i)

/-- The tasks inside of the mutex `i`: they have come back from `CoEnterMutexSection` and have not
    left it since. -/
def Sys.inside (m : Sys) (i : Nat) : List Nat := m.log.foldl (Entry.hold i) []

section History

variable {cfg : Env} {m m' : Sys} {g : Ghost} {r : Nat} {F : List Nat} {L L' : Locks}
    {op : Call ⊕ Cont}
  {ret : Option Ret}

theorem LockInv.mutexLine (h : LockInv cfg m g r F) (i : Nat) :
    m.k.mutexLine cfg i = (m.k.locks cfg.served g).line i := by
  have hw : walk m.k.TCBnext cfg.tasks (m.k.waittingList i) = g.tcb.lst (.mtx i) :=
    (h.stable.coh.rep.tcb.single (.mtx i)).walk_eq (h.stable.coh.rep.tcb_length (.mtx i))
  unfold Kernel.mutexLine
  rw [hw]
  rfl

theorem visits_append {e : Entry} (hl : m'.log = m.log ++ [e]) (i : Nat) :
    m'.visits i = m.visits i ++ (e.visit i).toList := by
  unfold Sys.visits
  rw [hl, List.filterMap_append]
  cases he : e.visit i with
  | none => exact congrArg (_ ++ ·) (List.filterMap_cons_none he)
  | some v => exact congrArg (_ ++ ·) (List.filterMap_cons_some he)

/-- A section and the line. -/
theorem LocksOk.visit_line (h : LocksOk cfg L) (hs : L.Acts cfg r op ret L')
    {es : List (Line.Visit Nat)} {i : Nat}
    (hr : Line.Run es (L.line i)) :
    Line.Run (es ++ ((Entry.mk r op ret).visit i).toList) (L'.line i) := by
  cases hs with
  | enter j hj hout =>
    have hv : (Entry.mk r (.inl (.enterMutex j))
        (if L.a.mutexOccupied j then none else some (0, .E_OK))).visit i =
          if j = i then some (.enter r) else none := by
      split
      · rfl
      · rfl
    rw [hv, h.line_entered]
    by_cases hij : i = j
    · rw [if_pos hij, if_pos hij.symm, ← hij]
      exact hr.enter (h.outside hout i)
    · rw [if_neg hij, if_neg (Ne.symm hij), Option.toList_none, List.append_nil]
      exact hr
  | leave j ho hown =>
    have hv : (Entry.mk r (.inl (.leaveMutex j)) (some (0, .E_OK))).visit i =
        if j = i then some (.leave r) else none := rfl
    rw [hv, Locks.line_left L ho]
    by_cases hij : i = j
    · rw [if_pos hij, if_pos hij.symm]
      rw [hij, Locks.line_taken ho, hown] at hr
      rw [Locks.line_taken ho]
      exact hr.leave
    · rw [if_neg hij, if_neg (Ne.symm hij), Option.toList_none, List.append_nil]
      exact hr
  | resume j =>
    rw [show (Entry.mk r (.inr (.enterMutex j)) (some (0, .E_OK))).visit i = none from rfl,
      Option.toList_none, List.append_nil]
    exact hr
  | other hv _ _ hs =>
    rw [hv i r, Option.toList_none, List.append_nil, hs.same_lines.2 i]
    exact hr

/-- Whose turn it is, when it has noticed. -/
def Locks.inside (L : Locks) (cont : Nat → Cont) (i : Nat) : List Nat :=
  if L.a.mutexOccupied i = true ∧
    cont (L.a.mutexTaskID i) ≠ .enterMutex i then [L.a.mutexTaskID i] else []

theorem Locks.inside_owner {cont : Nat → Cont} {i : Nat} (ho : L.a.mutexOccupied i = true)
    (hown : L.a.mutexTaskID i = r) (hc : cont r ≠ .enterMutex i) : L.inside cont i = [r] := by
  unfold Locks.inside
  rw [hown]
  exact if_pos ⟨ho, hc⟩

theorem Locks.inside_nobody {cont : Nat → Cont} {i : Nat}
    (h : L.a.mutexOccupied i = true → cont (L.a.mutexTaskID i) = .enterMutex i) :
    L.inside cont i = [] :=
  if_neg fun e => e.2 (h e.1)

/-- The owner has not changed, and has not begun to wait. -/
theorem Locks.inside_same {cont cont' : Nat → Cont} {i : Nat}
    (hc : ∀ i, ∀ u ∈ L.line i, u ≠ r → cont' u = cont u)
    (h1 : L'.a.mutexOccupied i = L.a.mutexOccupied i) (h2 : L'.a.mutexTaskID i = L.a.mutexTaskID i)
    (hr : L.a.mutexOccupied i = true → L.a.mutexTaskID i = r → cont r ≠ .enterMutex i ∧
      cont' r ≠ .enterMutex i) :
    L.inside cont i = L'.inside cont' i := by
  unfold Locks.inside
  rw [h1, h2]
  refine if_congr (and_congr_right fun ho => ?_) rfl rfl
  by_cases hown : L.a.mutexTaskID i = r
  · rw [hown]
    exact iff_of_true (hr ho hown).1 (hr ho hown).2
  · rw [hc i _ (by rw [Locks.line_taken ho]; exact List.mem_cons_self) hown]

/-- Leaving and handing on change the owner of one mutex. -/
theorem Locks.left_other {i j : Nat} (hij : i ≠ j) : (L.left j r).a.mutexOccupied i =
    L.a.mutexOccupied i ∧
    (L.left j r).a.mutexTaskID i = L.a.mutexTaskID i := by
  cases hl : L.waiters j with
  | nil =>
    have he : (L.left j r).a = _ := (congrArg (L.a.left j r) hl).trans (left_nil L.a j r)
    rw [he]
    exact ⟨Function.update_of_ne hij .., Function.update_of_ne hij ..⟩
  | cons t l =>
    have he : (L.left j r).a = _ := (congrArg (L.a.left j r) hl).trans (left_cons L.a j r t l)
    rw [he]
    exact ⟨rfl, Function.update_of_ne hij ..⟩

/-- The next owner was the first that waited. -/
theorem Locks.left_next {i : Nat} (ho : (L.left i r).a.mutexOccupied i = true) :
    (L.left i r).a.mutexTaskID i ∈ L.waiters i := by
  cases hl : L.waiters i with
  | nil =>
    have he : (L.left i r).a = _ := (congrArg (L.a.left i r) hl).trans (left_nil L.a i r)
    rw [he] at ho
    exact absurd ((Function.update_self ..).symm.trans ho) Bool.false_ne_true
  | cons t l =>
    have he : (L.left i r).a = _ := (congrArg (L.a.left i r) hl).trans (left_cons L.a i r t l)
    have ht : (L.left i r).a.mutexTaskID i = t := by
      rw [he]
      exact Function.update_self ..
    rw [ht]
    exact List.mem_cons_self

/-- Everything else leaves those inside as they are. -/
theorem hold_none {t i : Nat} {H : List Nat} (hv : ∀ i t, (Entry.mk t op ret).visit i = none)
    (hne : ∀ i, op ≠ .inr (.enterMutex i)) : Entry.hold i H ⟨t, op, ret⟩ = H := by
  have hself : ∀ (i : Nat) (v : Line.Visit Nat), (if i = i then some v else none) ≠ none :=
    fun i v e =>
    nomatch (if_pos rfl).symm.trans e
  unfold Entry.hold
  split
  · next j v e1 e2 =>
    obtain rfl : op = _ := e1
    obtain rfl : ret = _ := e2
    exact absurd (hv j t) (hself j _)
  · next j v e1 e2 => exact absurd e1 (hne j)
  · next j v e1 e2 =>
    obtain rfl : op = _ := e1
    obtain rfl : ret = _ := e2
    exact absurd (hv j t) (hself j _)
  · rfl

/-- A task that goes on after it was blocked in `CoEnterMutexSection` is the owner. -/
theorem LockInv.owns (h : LockInv cfg m g r F) {i : Nat} (hc : m.cont r = .enterMutex i) :
    m.k.mutexOccupied i = true ∧ m.k.mutexTaskID i = r := by
  have hk := h.cont r
  rw [hc] at hk
  have hk : r ∈ (m.k.locks cfg.served g).line i := hk
  cases ho : m.k.mutexOccupied i with
  | false =>
    rw [Locks.line_free ho] at hk
    exact absurd hk List.not_mem_nil
  | true =>
    rw [Locks.line_taken ho] at hk
    exact ⟨rfl, ((List.mem_cons.mp hk).resolve_right (h.not_waiting i)).symm⟩

theorem Locks.Around.same_owner (hs : L.Around cfg L') (i : Nat) :
    L'.a.mutexOccupied i = L.a.mutexOccupied i ∧ L'.a.mutexTaskID i = L.a.mutexTaskID i := by
  cases hs with
  | same => exact ⟨rfl, rfl⟩
  | created t p hn hp => exact ⟨rfl, rfl⟩
  | deleted t hout => exact ⟨rfl, rfl⟩
  | reprio t p hout hp => exact ⟨rfl, rfl⟩

/-- **One section more** -/
theorem LockInv.hold (h : LockInv cfg m g r F) {act : Act} (hn : m.Next r act op)
    (ha : (m.k.locks cfg.served g).Acts cfg.served r op ret L')
    (hc : ∀ i, ∀ u ∈ (m.k.locks cfg.served g).line i, u ≠ r → m'.cont u = m.cont u)
    (hr : ∀ i, m'.cont r = .enterMutex i ↔ op = .inl (.enterMutex i) ∧ ret = none) (i : Nat) :
    Entry.hold i ((m.k.locks cfg.served g).inside m.cont i) ⟨r, op, ret⟩ = L'.inside m'.cont i := by
  have hL := h.locks
  have hown : ∀ i, m.k.mutexOccupied i = true → m.k.mutexTaskID i = r →
    r ∈ (m.k.locks cfg.served g).line i := by
    intro i ho e
    rw [Locks.line_taken ho]
    exact List.mem_cons.mpr (Or.inl e.symm)
  cases ha with
  | enter j hj hout =>
    have hnot : m.k.mutexOccupied i = true → m.k.mutexTaskID i ≠ r := fun ho e =>
      hL.outside hout i (hown i ho e)
    cases ho : m.k.mutexOccupied j with
    | true =>
      obtain ⟨e1, e2, -⟩ := entered_taken (m.k.locks cfg.served g).a j r ho
      rw [show (m.k.locks cfg.served g).a.mutexOccupied j = true from ho, if_pos rfl]
      exact Locks.inside_same hc (congrFun e1 i) (congrFun e2 i) fun ho e => absurd e (hnot ho)
    | false =>
      have ho : (m.k.locks cfg.served g).a.mutexOccupied j = false := ho
      rw [ho, if_neg Bool.false_ne_true] at hr ⊢
      have he : ((m.k.locks cfg.served g).entered j r).a = _ :=
        entered_free (m.k.locks cfg.served g).a j r (by rw [ho]; exact Bool.false_ne_true)
      by_cases hij : i = j
      · subst hij
        have h1 : (m.k.locks cfg.served g).inside m.cont i = [] :=
          Locks.inside_nobody fun e => absurd (ho.symm.trans e) Bool.false_ne_true
        have h2 : ((m.k.locks cfg.served g).entered i r).inside m'.cont i = [r] := by
          refine Locks.inside_owner ?_ ?_ fun e => nomatch ((hr i).mp e).2
          · rw [he]
            exact Function.update_self ..
          · rw [he]
            exact Function.update_self ..
        rw [h1, h2]
        exact if_pos rfl
      · refine (if_neg (Ne.symm hij)).trans (Locks.inside_same hc ?_ ?_ fun ho e =>
          absurd e (hnot ho))
        · rw [he]
          exact Function.update_of_ne hij ..
        · rw [he]
          exact Function.update_of_ne hij ..
  | leave j ho hr0 =>
    by_cases hij : i = j
    · subst hij
      have h1 : (m.k.locks cfg.served g).inside m.cont i = [r] := by
        refine Locks.inside_owner ho hr0 ?_
        rw [hn.2]
        exact fun e => nomatch e
      have h2 : ((m.k.locks cfg.served g).left i r).inside m'.cont i = [] := by
        refine Locks.inside_nobody fun ho' => ?_
        have hw := Locks.left_next ho'
        have hl : ((m.k.locks cfg.served g).left i r).a.mutexTaskID i ∈
          (m.k.locks cfg.served g).line i := by
          rw [Locks.line_taken ho]
          exact List.mem_cons_of_mem _ hw
        exact (hc i _ hl fun e => (hL.waiter hw).2.2.2.2 (e.trans hr0.symm)).trans (h.wait i _ hw)
      rw [h1, h2]
      exact (if_pos rfl).trans (List.erase_cons_head ..)
    · refine (if_neg (Ne.symm hij)).trans
        (Locks.inside_same hc (Locks.left_other hij).1 (Locks.left_other hij).2
        fun hoi e => absurd (hL.one_line (hown i hoi e) (hown j ho hr0)) hij)
  | resume j =>
    obtain ⟨ho, hr0⟩ := h.owns hn.2.1
    by_cases hij : i = j
    · subst hij
      have h1 : (m.k.locks cfg.served g).inside m.cont i = [] := by
        refine Locks.inside_nobody fun _ => ?_
        rw [show (m.k.locks cfg.served g).a.mutexTaskID i = r from hr0]
        exact hn.2.1
      have h2 : (m.k.locks cfg.served g).inside m'.cont i = [r] :=
        Locks.inside_owner ho hr0 fun e => nomatch ((hr i).mp e).1
      rw [h1, h2]
      exact if_pos rfl
    · exact (if_neg (Ne.symm hij)).trans (Locks.inside_same hc rfl rfl fun hoi e =>
        absurd (hL.one_line (hown i hoi e) (hown j ho hr0)) hij)
  | other hv hne _ hs =>
    rw [hold_none hv hne]
    refine Locks.inside_same hc (hs.same_owner i).1 (hs.same_owner i).2 fun _ _ =>
      ⟨fun e => ?_, fun e => ?_⟩
    · cases op with
      | inl c =>
        rw [hn.2] at e
        exact nomatch e
      | inr c => exact hne i (congrArg Sum.inr (hn.2.1.symm.trans e))
    · obtain ⟨rfl, rfl⟩ := (hr i).mp e
      exact nomatch (if_pos rfl : (if i = i then some (Line.Visit.enter r) else none) =
        _).symm.trans (hv i r)

end History

/-! ## Runs -/

section Runs

variable {cfg : Env} {i0 : Idle} {us : List Setup} {m0 m : Sys}

/-- The invariant of lawful runs. -/
theorem Reach.lockInv (hord : cfg.orderListScheduleEn = true) (hu : ∀ u ∈ us, u.Valid)
    (hb : boot cfg i0 us = some m0) (h : Reach cfg (Lawful cfg) m0 m) :
    ∃ g r F, LockInv cfg m g r F := by
  obtain ⟨g, r, h0, -⟩ := booted_locks hord hu hb
  obtain ⟨g', r', F', hi, -⟩ :=
    @Reach.locks_rule cfg (Lawful cfg) m m0 (fun _ _ => True) (fun _ _ _ _ => trivial)
    (fun _ _ _ hl => hl) ⟨g, r, [], h0, trivial⟩ h
  exact ⟨g', r', F', hi⟩

/-- The lines and the histories of all mutexes. -/
theorem Reach.lines (hord : cfg.orderListScheduleEn = true) (hu : ∀ u ∈ us, u.Valid)
    (hb : boot cfg i0 us = some m0) (h : Reach cfg (Lawful cfg) m0 m) :
    ∃ g r F, LockInv cfg m g r F ∧ ∀ i, Line.Run (m.visits i) (m.k.mutexLine cfg i) := by
  obtain ⟨g, r, h0, hlog, hfree⟩ := booted_locks hord hu hb
  obtain ⟨g', r', F', hi, hp⟩ :=
    @Reach.locks_rule cfg (Lawful cfg) m m0 (fun m L => ∀ i, Line.Run (m.visits i) (L.line i))
    (fun {m m' g r F rs act L'} hi hp _ hs i => by
      cases hs with
      | tick _ hc hl e =>
        rw [e]
        unfold Sys.visits
        rw [hl]
        exact hp i
      | run _ hn ha hl hc hr =>
        rw [visits_append hl]
        exact hi.locks.visit_line ha (hp i))
    (fun _ _ _ hl => hl) ⟨g, r, [], h0, fun i => by
      unfold Sys.visits
      rw [hlog, Locks.line_free (hfree i)]
      exact .nil⟩ h
  exact ⟨g', r', F', hi, fun i => by
    rw [hi.mutexLine]
    exact hp i⟩

end Runs

end CoOS
