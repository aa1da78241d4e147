/-
  The mutexes on their own: the columns, the waiting lists and who exists (`Locks`), what entering,
  leaving, creating, deleting and a new priority do to them, and the invariant that all of these
  keep (`LocksOk`).

  A mutex is a line (`Locks.line`): the owner and behind it those who wait.
-/
import CoOS.Lib.Line
import CoOS.Mutex.Sections

namespace CoOS

open Function (update)

structure Locks where
  a : LockPart
  waiters : Nat → List Nat
  alive : Nat → Prop

/-- The owner, and the tasks that wait for it. -/
def Locks.line (L : Locks) (i : Nat) : List Nat :=
  if L.a.mutexOccupied i then L.a.mutexTaskID i :: L.waiters i else []

/-! ## Steps -/

/-- **CoEnterMutexSection** of the task `cur`. -/
def Locks.entered (L : Locks) (i cur : Nat) : Locks where
  a := L.a.entered i cur
  waiters := if L.a.mutexOccupied i then update L.waiters i (L.waiters i ++ [cur]) else L.waiters
  alive := L.alive

/-- **CoLeaveMutexSection** of the owner `cur`. -/
def Locks.left (L : Locks) (i cur : Nat) : Locks where
  a := L.a.left i cur (L.waiters i)
  waiters := update L.waiters i (L.waiters i).tail
  alive := L.alive

/-- `CreateTask` of `t`. -/
def Locks.created (L : Locks) (t p : Nat) : Locks where
  a := { L.a with prio := update L.a.prio t p, mutexID := update L.a.mutexID t INVALID_ID }
  waiters := L.waiters
  alive u := u = t ∨ L.alive u

def Locks.deleted (L : Locks) (t : Nat) : Locks where
  a := L.a
  waiters := L.waiters
  alive u := u ≠ t ∧ L.alive u

def Locks.reprio (L : Locks) (t p : Nat) : Locks where
  a := { L.a with prio := update L.a.prio t p }
  waiters := L.waiters
  alive := L.alive

/-! ## The invariant -/

/-- The line of a mutex holds the tasks whose `mutexID` it is. -/
structure LinesOk (L : Locks) : Prop where
  id : ∀ t, L.alive t → L.a.mutexID t = INVALID_ID ∨ L.a.mutexID t < L.a.MutexFreeID
  mem : ∀ i t, t ∈ L.line i ↔ L.alive t ∧ L.a.mutexID t = i ∧ i < L.a.MutexFreeID
  nodup : ∀ i, (L.line i).Nodup
  idle : L.a.mutexID 0 = INVALID_ID

/-- Nobody in the line of a mutex is more urgent than its owner. -/
structure LocksOk (cfg : Env) (L : Locks) : Prop extends LinesOk L where
  size : L.a.MutexFreeID ≤ cfg.maxMutex
  prio : ∀ t, L.a.prio t ≤ cfg.lowestPrio
  orig : ∀ i, L.a.mutexOccupied i = true → L.a.originalPrio i ≤ cfg.lowestPrio
  free : ∀ i, L.a.mutexOccupied i = false →
    L.waiters i = [] ∧ (i < L.a.MutexFreeID → L.a.mutexTaskID i = INVALID_ID)
  urgent : ∀ i, L.a.mutexOccupied i = true → ∀ t ∈ L.waiters i,
    L.a.prio (L.a.mutexTaskID i) ≤ L.a.prio t

section Columns

variable (a : LockPart) (i cur t : Nat) (l : List Nat)

theorem entered_mutexID : (a.entered i cur).mutexID = update a.mutexID cur i := by
  unfold LockPart.entered
  dsimp only
  split
  · split
    · rfl
    · rfl
  · rfl

theorem entered_MutexFreeID : (a.entered i cur).MutexFreeID = a.MutexFreeID := by
  unfold LockPart.entered
  dsimp only
  split
  · split
    · rfl
    · rfl
  · rfl

theorem entered_taken (ho : a.mutexOccupied i = true) :
    (a.entered i cur).mutexOccupied = a.mutexOccupied ∧ (a.entered i cur).mutexTaskID =
    a.mutexTaskID ∧
      (a.entered i cur).originalPrio = a.originalPrio ∧
      (a.entered i cur).prio =
        if a.prio cur < a.prio (a.mutexTaskID i) then update a.prio (a.mutexTaskID i) (a.prio cur)
        else a.prio := by
  by_cases hlt : a.prio cur < a.prio (a.mutexTaskID i)
  · rw [if_pos hlt, entered_promoted a i cur ho hlt]
    exact ⟨rfl, rfl, rfl, rfl⟩
  · rw [if_neg hlt, entered_waits a i cur ho hlt]
    exact ⟨rfl, rfl, rfl, rfl⟩

theorem left_nil : a.left i cur [] = { a with
    mutexID := update a.mutexID cur INVALID_ID
    mutexOccupied := update a.mutexOccupied i false
    mutexTaskID := update a.mutexTaskID i INVALID_ID } := rfl

theorem left_MutexFreeID : (a.left i cur l).MutexFreeID = a.MutexFreeID := by
  cases l <;> rfl

theorem left_mutexID : (a.left i cur l).mutexID = update a.mutexID cur INVALID_ID := by
  cases l <;> rfl

/-- Nobody that waits is more urgent than the priority that is handed on. -/
theorem handOn_first (h : ∀ u ∈ t :: l, a.prio (a.mutexTaskID i) ≤ a.prio u) :
    ∀ u ∈ t :: l, (a.handOn i t l).1 ≤ a.prio u := by
  unfold LockPart.handOn
  split
  · exact firstUrgent_first a.prio _ (t :: l)
  · exact h

end Columns

/-! ## Lines -/

section Lines

variable {cfg : Env} {L : Locks} {i j t cur : Nat}

theorem Locks.line_taken (ho : L.a.mutexOccupied i = true) :
    L.line i = L.a.mutexTaskID i :: L.waiters i :=
  if_pos ho

theorem Locks.line_free (ho : L.a.mutexOccupied i = false) : L.line i = [] :=
  if_neg (show ¬ L.a.mutexOccupied i = true by rw [ho]; decide)

theorem Locks.line_congr {L' : Locks} (h1 : L'.a.mutexOccupied i = L.a.mutexOccupied i)
    (h2 : L'.a.mutexTaskID i = L.a.mutexTaskID i) (h3 : L'.waiters i = L.waiters i) :
    L'.line i = L.line i := by
  unfold Locks.line
  rw [h1, h2, h3]

/-- Who enters goes to the end of the line. -/
theorem LocksOk.line_entered (h : LocksOk cfg L) (i cur j : Nat) :
    (L.entered i cur).line j = if j = i then L.line i ++ [cur] else L.line j := by
  cases ho : L.a.mutexOccupied i with
  | true =>
    obtain ⟨e1, e2, -⟩ := entered_taken L.a i cur ho
    have hw : (L.entered i cur).waiters = update L.waiters i (L.waiters i ++ [cur]) := if_pos ho
    by_cases hj : j = i
    · rw [hj, if_pos rfl, Locks.line_taken ho, Locks.line_taken ((congrFun e1 i).trans ho), hw,
        Function.update_self]
      exact congrArg (· :: _) (congrFun e2 i)
    · rw [if_neg hj]
      refine Locks.line_congr (congrFun e1 j) (congrFun e2 j) ?_
      rw [hw, Function.update_of_ne hj]
  | false =>
    have he : (L.entered i cur).a = _ := entered_free L.a i cur (by rw [ho]; decide)
    have hw : (L.entered i cur).waiters = L.waiters :=
      if_neg (show ¬ L.a.mutexOccupied i = true by rw [ho]; decide)
    by_cases hj : j = i
    · have h1 : (L.entered i cur).a.mutexOccupied i = true := by
        rw [he]
        exact Function.update_self ..
      rw [hj, if_pos rfl, Locks.line_free ho, Locks.line_taken h1, hw, (h.free i ho).1, he]
      exact congrArg (· :: []) (Function.update_self ..)
    · rw [if_neg hj]
      refine Locks.line_congr ?_ ?_ (congrFun hw j)
      · rw [he]
        exact Function.update_of_ne hj ..
      · rw [he]
        exact Function.update_of_ne hj ..

/-- The first leaves the line. -/
theorem Locks.line_left (L : Locks) (ho : L.a.mutexOccupied i = true) (cur j : Nat) :
    (L.left i cur).line j = if j = i then (L.line i).tail else L.line j := by
  have hw : (L.left i cur).waiters = update L.waiters i (L.waiters i).tail := rfl
  rw [Locks.line_taken ho, List.tail_cons]
  cases hl : L.waiters i with
  | nil =>
    have he : (L.left i cur).a = _ := (congrArg (L.a.left i cur) hl).trans (left_nil L.a i cur)
    by_cases hj : j = i
    · rw [hj, if_pos rfl]
      refine Locks.line_free ?_
      rw [he]
      exact Function.update_self ..
    · rw [if_neg hj]
      refine Locks.line_congr ?_ ?_ (by rw [hw, Function.update_of_ne hj])
      · rw [he]
        exact Function.update_of_ne hj ..
      · rw [he]
        exact Function.update_of_ne hj ..
  | cons t l =>
    have he : (L.left i cur).a = _ := (congrArg (L.a.left i cur) hl).trans (left_cons L.a i cur t l)
    by_cases hj : j = i
    · have h1 : (L.left i cur).a.mutexOccupied i = true := by
        rw [he]
        exact ho
      rw [hj, if_pos rfl, Locks.line_taken h1, hw, hl, Function.update_self, he]
      exact congrArg (· :: l) (Function.update_self ..)
    · rw [if_neg hj]
      refine Locks.line_congr ?_ ?_ (by rw [hw, Function.update_of_ne hj])
      · rw [he]
      · rw [he]
        exact Function.update_of_ne hj ..

theorem LocksOk.ne_invalid (h : LocksOk cfg L) (hi : i < L.a.MutexFreeID) : i ≠ INVALID_ID := by
  have := h.size
  have := cfg.maxMutex_le
  unfold INVALID_ID
  omega

theorem LocksOk.owner (h : LocksOk cfg L) (ho : L.a.mutexOccupied i = true) :
    L.alive (L.a.mutexTaskID i) ∧ L.a.mutexID (L.a.mutexTaskID i) = i ∧ i < L.a.MutexFreeID := by
  refine (h.mem i _).mp ?_
  rw [Locks.line_taken ho]
  exact List.mem_cons_self

theorem LocksOk.waiter (h : LocksOk cfg L) (ht : t ∈ L.waiters i) :
    L.a.mutexOccupied i = true ∧ L.alive t ∧ L.a.mutexID t = i ∧ i < L.a.MutexFreeID ∧
      t ≠ L.a.mutexTaskID i := by
  have ho : L.a.mutexOccupied i = true := by
    cases ho : L.a.mutexOccupied i with
    | true => rfl
    | false =>
      rw [(h.free i ho).1] at ht
      exact absurd ht List.not_mem_nil
  have hline := Locks.line_taken ho
  obtain ⟨h1, h2, h3⟩ := (h.mem i t).mp (by rw [hline]; exact List.mem_cons_of_mem _ ht)
  have hnd := h.nodup i
  rw [hline] at hnd
  exact ⟨ho, h1, h2, h3, fun e => (List.nodup_cons.mp hnd).1 (e ▸ ht)⟩

/-- A task outside of the mutexes is in no line. -/
theorem LocksOk.outside (h : LocksOk cfg L) (ht : L.a.mutexID t = INVALID_ID) (i : Nat) :
    t ∉ L.line i := by
  intro hm
  obtain ⟨-, h2, h3⟩ := (h.mem i t).mp hm
  exact h.ne_invalid h3 (h2.symm.trans ht)

/-- A task is in one line only. -/
theorem LocksOk.one_line (h : LocksOk cfg L) (hi : t ∈ L.line i) (hj : t ∈ L.line j) : i = j :=
  ((h.mem i t).mp hi).2.1.symm.trans ((h.mem j t).mp hj).2.1

end Lines

/-! ## Every step keeps the invariant -/

section Keep

variable {cfg : Env} {L : Locks} {i t p cur : Nat}

theorem LocksOk.lines_entered (h : LocksOk cfg L) (ha : L.alive cur) (h0 : cur ≠ 0)
    (hout : L.a.mutexID cur = INVALID_ID) (hi : i < L.a.MutexFreeID) :
    LinesOk (L.entered i cur) := by
  have hline := h.line_entered i cur
  have hid : (L.entered i cur).a.mutexID = update L.a.mutexID cur i := entered_mutexID L.a i cur
  have hfree : (L.entered i cur).a.MutexFreeID = L.a.MutexFreeID := entered_MutexFreeID L.a i cur
  have hoff := h.outside hout
  refine ⟨fun t ht => ?_, fun j t => ?_, fun j => ?_, ?_⟩
  · rw [hid, hfree]
    by_cases htc : t = cur
    · rw [htc, Function.update_self]
      exact Or.inr hi
    · rw [Function.update_of_ne htc]
      exact h.id t ht
  · rw [hline, hid, hfree]
    change _ ↔ L.alive t ∧ _
    by_cases ht : t = cur
    · rw [ht, Function.update_self]
      by_cases hj : j = i
      · rw [if_pos hj, hj]
        exact ⟨fun _ => ⟨ha, rfl, hi⟩, fun _ => List.mem_append_right _ (List.mem_singleton_self _)⟩
      · rw [if_neg hj]
        exact ⟨fun hm => absurd hm (hoff j), fun e => absurd e.2.1.symm hj⟩
    · rw [Function.update_of_ne ht, ← h.mem j t]
      by_cases hj : j = i
      · rw [if_pos hj, hj, List.mem_append, List.mem_singleton]
        exact ⟨fun hm => hm.resolve_right ht, Or.inl⟩
      · rw [if_neg hj]
  · rw [hline]
    split
    · refine List.nodup_append.mpr ⟨h.nodup i, List.pairwise_singleton _ _,
        fun b hb c hc e => hoff i ?_⟩
      rwa [← List.mem_singleton.mp hc, ← e]
    · exact h.nodup j
  · rw [hid, Function.update_of_ne (Ne.symm h0)]
    exact h.idle

/-- The caller waits. The owner's priority is not less urgent than before, nor than the caller's. -/
theorem LocksOk.joined (h : LocksOk cfg L) (hl : LinesOk (L.entered i cur))
    (ho : L.a.mutexOccupied i = true)
    (hne : cur ≠ L.a.mutexTaskID i) : LocksOk cfg (L.entered i cur) := by
  obtain ⟨e1, e2, e3, e5⟩ := entered_taken L.a i cur ho
  have hown := h.owner ho
  have hwait : (L.entered i cur).waiters = update L.waiters i (L.waiters i ++ [cur]) := if_pos ho
  have hlow : (L.entered i cur).a.prio (L.a.mutexTaskID i) ≤ L.a.prio (L.a.mutexTaskID i) ∧
      (L.entered i cur).a.prio (L.a.mutexTaskID i) ≤ L.a.prio cur := by
    change (L.a.entered i cur).prio _ ≤ _ ∧ (L.a.entered i cur).prio _ ≤ _
    rw [e5]
    split
    · next hlt =>
      rw [Function.update_self]
      exact ⟨Nat.le_of_lt hlt, Nat.le_refl _⟩
    · next hlt => exact ⟨Nat.le_refl _, Nat.le_of_not_lt hlt⟩
  have hsame : ∀ u, u ≠ L.a.mutexTaskID i → (L.entered i cur).a.prio u = L.a.prio u := by
    intro u hu
    change (L.a.entered i cur).prio _ = _
    rw [e5]
    split
    · exact Function.update_of_ne hu ..
    · rfl
  have hsize : (L.entered i cur).a.MutexFreeID = L.a.MutexFreeID := entered_MutexFreeID L.a i cur
  refine ⟨hl, Nat.le_trans (Nat.le_of_eq hsize) h.size, fun u => ?_, fun j hj => ?_, fun j hj => ?_,
    fun j hj t ht => ?_⟩
  · by_cases hu : u = L.a.mutexTaskID i
    · rw [hu]
      exact Nat.le_trans hlow.1 (h.prio _)
    · rw [hsame u hu]
      exact h.prio u
  · exact Nat.le_trans (Nat.le_of_eq (congrFun e3 j)) (h.orig j ((congrFun e1 j).symm.trans hj))
  · have hj' : L.a.mutexOccupied j = false := (congrFun e1 j).symm.trans hj
    have hji : j ≠ i := by
      rintro rfl
      rw [ho] at hj'
      exact nomatch hj'
    rw [hwait, Function.update_of_ne hji, hsize]
    exact ⟨(h.free j hj').1, fun hlt => (congrFun e2 j).trans ((h.free j hj').2 hlt)⟩
  · have hj' : L.a.mutexOccupied j = true := (congrFun e1 j).symm.trans hj
    rw [show (L.entered i cur).a.mutexTaskID j = L.a.mutexTaskID j from congrFun e2 j]
    rw [hwait] at ht
    by_cases hji : j = i
    · subst hji
      rw [Function.update_self] at ht
      rcases List.mem_append.mp ht with ht | ht
      · rw [hsame t (h.waiter ht).2.2.2.2]
        exact Nat.le_trans hlow.1 (h.urgent j ho t ht)
      · rw [List.mem_singleton.mp ht, hsame cur hne]
        exact hlow.2
    · rw [Function.update_of_ne hji] at ht
      -- the promoted task is the owner of another mutex
      have hmine : ∀ u, L.a.mutexID u = j → u ≠ L.a.mutexTaskID i := by
        rintro u hu rfl
        exact hji (hu.symm.trans hown.2.1)
      rw [hsame _ (hmine _ (h.owner hj').2.1), hsame _ (hmine _ (h.waiter ht).2.2.1)]
      exact h.urgent j hj' t ht

/-- The caller becomes the owner. -/
theorem LocksOk.taken (h : LocksOk cfg L) (hl : LinesOk (L.entered i cur))
    (ho : L.a.mutexOccupied i = false) :
    LocksOk cfg (L.entered i cur) := by
  have ha : (L.entered i cur).a = _ := entered_free L.a i cur (by rw [ho]; decide)
  have hwait : (L.entered i cur).waiters = L.waiters :=
    if_neg (show ¬ L.a.mutexOccupied i = true by rw [ho]; decide)
  have hsize : (L.entered i cur).a.MutexFreeID = L.a.MutexFreeID := entered_MutexFreeID L.a i cur
  refine ⟨hl, Nat.le_trans (Nat.le_of_eq hsize) h.size, ?_, fun j hj => ?_, fun j hj => ?_,
    fun j hj t ht => ?_⟩
  · rw [ha]
    exact h.prio
  · rw [ha] at hj ⊢
    dsimp only at hj ⊢
    by_cases hji : j = i
    · rw [hji, Function.update_self]
      exact h.prio cur
    · rw [Function.update_of_ne hji] at hj ⊢
      exact h.orig j hj
  · rw [hwait]
    rw [ha] at hj ⊢
    dsimp only at hj ⊢
    have hji : j ≠ i := by
      rintro rfl
      rw [Function.update_self] at hj
      exact nomatch hj
    rw [Function.update_of_ne hji] at hj ⊢
    exact h.free j hj
  · rw [hwait] at ht
    have hji : j ≠ i := by
      rintro rfl
      rw [(h.free j ho).1] at ht
      exact absurd ht List.not_mem_nil
    rw [ha] at hj ⊢
    dsimp only at hj ⊢
    rw [Function.update_of_ne hji] at hj ⊢
    exact h.urgent j hj t ht

/-- **CoEnterMutexSection** keeps the invariant. -/
theorem LocksOk.entered (h : LocksOk cfg L) (ha : L.alive cur) (h0 : cur ≠ 0)
    (hout : L.a.mutexID cur = INVALID_ID) (hi : i < L.a.MutexFreeID) :
    LocksOk cfg (L.entered i cur) := by
  have hl := h.lines_entered ha h0 hout hi
  cases ho : L.a.mutexOccupied i with
  | true =>
    refine h.joined hl ho fun e => h.outside hout i ?_
    rw [e, Locks.line_taken ho]
    exact List.mem_cons_self
  | false => exact h.taken hl ho

theorem LocksOk.lines_left (h : LocksOk cfg L) (ho : L.a.mutexOccupied i = true)
    (hown : L.a.mutexTaskID i = cur) :
    LinesOk (L.left i cur) := by
  have hline := L.line_left ho cur
  have hid : (L.left i cur).a.mutexID = update L.a.mutexID cur INVALID_ID := left_mutexID ..
  have hfree : (L.left i cur).a.MutexFreeID = L.a.MutexFreeID := left_MutexFreeID ..
  have hi : L.line i = cur :: L.waiters i := (Locks.line_taken ho).trans (by rw [hown])
  have hnd := List.nodup_cons.mp (hi ▸ h.nodup i)
  refine ⟨fun t ht => ?_, fun j t => ?_, fun j => ?_, ?_⟩
  · rw [hid, hfree]
    by_cases htc : t = cur
    · rw [htc, Function.update_self]
      exact Or.inl rfl
    · rw [Function.update_of_ne htc]
      exact h.id t ht
  · rw [hline, hid, hfree]
    change _ ↔ L.alive t ∧ _
    by_cases ht : t = cur
    · rw [ht, Function.update_self]
      refine ⟨fun hm => ?_, fun e => absurd e.2.1.symm (h.ne_invalid e.2.2)⟩
      split at hm
      · rw [hi] at hm
        exact absurd hm hnd.1
      · next hj => exact absurd (h.one_line hm (hi ▸ List.mem_cons_self)) hj
    · rw [Function.update_of_ne ht, ← h.mem j t]
      split
      · next hj =>
        rw [hj, hi, List.tail_cons, List.mem_cons]
        exact ⟨Or.inr, fun hm => hm.resolve_left ht⟩
      · exact Iff.rfl
  · rw [hline]
    split
    · rw [hi]
      exact hnd.2
    · exact h.nodup j
  · rw [hid]
    by_cases h0 : 0 = cur
    · rw [h0, Function.update_self]
    · rw [Function.update_of_ne h0]
      exact h.idle

/-- Nobody waits, and the mutex is free. -/
theorem LocksOk.freed (h : LocksOk cfg L) (hl : LinesOk (L.left i cur)) (hw : L.waiters i = []) :
    LocksOk cfg (L.left i cur) := by
  have ha : (L.left i cur).a = _ := (congrArg (L.a.left i cur) hw).trans (left_nil L.a i cur)
  have hwait : (L.left i cur).waiters = L.waiters := by
    change update L.waiters i (L.waiters i).tail = _
    rw [hw]
    exact Function.update_eq_self_iff.mpr hw.symm
  refine ⟨hl, ?_, ?_, fun j hj => ?_, fun j hj => ?_, fun j hj t ht => ?_⟩
  · rw [ha]
    exact h.size
  · rw [ha]
    exact h.prio
  · rw [ha] at hj ⊢
    dsimp only at hj ⊢
    by_cases hji : j = i
    · rw [hji, Function.update_self] at hj
      exact nomatch hj
    · rw [Function.update_of_ne hji] at hj
      exact h.orig j hj
  · rw [hwait]
    rw [ha] at hj ⊢
    dsimp only at hj ⊢
    by_cases hji : j = i
    · rw [hji, Function.update_self]
      exact ⟨hw, fun _ => rfl⟩
    · rw [Function.update_of_ne hji] at hj ⊢
      exact h.free j hj
  · rw [hwait] at ht
    rw [ha] at hj ⊢
    dsimp only at hj ⊢
    by_cases hji : j = i
    · rw [hji, hw] at ht
      exact absurd ht List.not_mem_nil
    · rw [Function.update_of_ne hji] at hj ⊢
      exact h.urgent j hj t ht

/-- The first that waits becomes the owner, as urgent as every other that waits. -/
theorem LocksOk.handed (h : LocksOk cfg L) (hl : LinesOk (L.left i cur))
    (ho : L.a.mutexOccupied i = true)
    (hown : L.a.mutexTaskID i = cur) {t : Nat} {l : List Nat} (hw : L.waiters i = t :: l) :
    LocksOk cfg (L.left i cur) := by
  have ha : (L.left i cur).a = _ := (congrArg (L.a.left i cur) hw).trans (left_cons L.a i cur t l)
  have hwait : (L.left i cur).waiters = update L.waiters i l :=
    congrArg (update L.waiters i) (congrArg List.tail hw)
  have hnd : (L.waiters i).Nodup := (List.nodup_cons.mp (Locks.line_taken ho ▸ h.nodup i)).2
  rw [hw] at hnd
  have hx : (L.a.handOn i t l).1 ≤ cfg.lowestPrio := handOn_le h.prio
  refine ⟨hl, ?_, fun u => ?_, fun j hj => ?_, fun j hj => ?_, fun j hj u hu => ?_⟩
  · rw [ha]
    exact h.size
  · rw [ha]
    dsimp only
    by_cases hut : u = t
    · rw [hut, Function.update_self]
      exact hx
    · rw [Function.update_of_ne hut]
      by_cases huc : u = cur
      · rw [huc, Function.update_self]
        exact h.orig i ho
      · rw [Function.update_of_ne huc]
        exact h.prio u
  · rw [ha] at hj ⊢
    dsimp only at hj ⊢
    by_cases hji : j = i
    · rw [hji, Function.update_self]
      exact h.prio t
    · rw [Function.update_of_ne hji]
      exact h.orig j hj
  · rw [hwait]
    rw [ha] at hj ⊢
    dsimp only at hj ⊢
    have hji : j ≠ i := by
      rintro rfl
      rw [ho] at hj
      exact nomatch hj
    rw [Function.update_of_ne hji, Function.update_of_ne hji]
    exact h.free j hj
  · rw [hwait] at hu
    rw [ha] at hj ⊢
    dsimp only at hj ⊢
    by_cases hji : j = i
    · rw [hji, Function.update_self] at hu
      rw [hji, Function.update_self, Function.update_self]
      have hmem : u ∈ L.waiters i := hw ▸ List.mem_cons_of_mem t hu
      have hut : u ≠ t := fun e => (List.nodup_cons.mp hnd).1 (e ▸ hu)
      have huc : u ≠ cur := fun e => (h.waiter hmem).2.2.2.2 (e.trans hown.symm)
      rw [Function.update_of_ne hut, Function.update_of_ne huc]
      refine handOn_first L.a i t l (fun v hv => h.urgent i ho v (hw ▸ hv)) u
        (List.mem_cons_of_mem t hu)
    · rw [Function.update_of_ne hji] at hu
      rw [Function.update_of_ne hji]
      -- both priorities that change are of tasks in the line of `i`
      have hmine : ∀ v, L.a.mutexID v = j →
        update (update L.a.prio cur (L.a.originalPrio i)) t (L.a.handOn i t l).1 v =
          L.a.prio v := by
        intro v hv
        have ht : L.a.mutexID t = i := (h.waiter (hw ▸ List.mem_cons_self)).2.2.1
        have hc : L.a.mutexID cur = i := hown ▸ (h.owner ho).2.1
        rw [Function.update_of_ne, Function.update_of_ne]
        · rintro rfl
          exact hji (hv.symm.trans hc)
        · rintro rfl
          exact hji (hv.symm.trans ht)
      rw [hmine _ (h.owner hj).2.1, hmine _ (h.waiter hu).2.2.1]
      exact h.urgent j hj u hu

/-- **CoLeaveMutexSection** keeps the invariant. -/
theorem LocksOk.left (h : LocksOk cfg L) (ho : L.a.mutexOccupied i = true)
    (hown : L.a.mutexTaskID i = cur) :
    LocksOk cfg (L.left i cur) := by
  have hl := h.lines_left ho hown
  cases hw : L.waiters i with
  | nil => exact h.freed hl hw
  | cons t l => exact h.handed hl ho hown hw

/-- A priority of a task outside of the mutexes. -/
theorem LocksOk.urgent_off (h : LocksOk cfg L) (hoff : ∀ i, t ∉ L.line i) (p : Nat) :
    ∀ i, L.a.mutexOccupied i = true → ∀ u ∈ L.waiters i,
      update L.a.prio t p (L.a.mutexTaskID i) ≤ update L.a.prio t p u := by
  intro i ho u hu
  have hline := Locks.line_taken ho
  have hne : ∀ v ∈ L.line i, v ≠ t := fun v hv e => hoff i (e ▸ hv)
  rw [Function.update_of_ne (hne _ (hline ▸ List.mem_cons_self)),
    Function.update_of_ne (hne u (hline ▸ List.mem_cons_of_mem _ hu))]
  exact h.urgent i ho u hu

theorem LocksOk.prio_update (h : LocksOk cfg L) (hp : p ≤ cfg.lowestPrio) (u : Nat) :
    update L.a.prio t p u ≤ cfg.lowestPrio := by
  by_cases hu : u = t
  · rw [hu, Function.update_self]
    exact hp
  · rw [Function.update_of_ne hu]
    exact h.prio u

theorem LocksOk.created (h : LocksOk cfg L) (hn : ¬ L.alive t) (hp : p ≤ cfg.lowestPrio) :
    LocksOk cfg (L.created t p) := by
  have hoff : ∀ i, t ∉ L.line i := fun i hm => hn ((h.mem i t).mp hm).1
  have hline : ∀ i, (L.created t p).line i = L.line i := fun i => Locks.line_congr rfl rfl rfl
  refine ⟨⟨fun u hu => ?_, fun i u => ?_, fun i => (hline i).symm ▸ h.nodup i, ?_⟩, h.size,
    h.prio_update hp, h.orig, h.free, h.urgent_off hoff p⟩
  · change update L.a.mutexID t INVALID_ID u = _ ∨ update L.a.mutexID t INVALID_ID u < _
    by_cases hut : u = t
    · rw [hut, Function.update_self]
      exact Or.inl rfl
    · rw [Function.update_of_ne hut]
      exact h.id u (hu.resolve_left hut)
  · rw [hline]
    change _ ↔ (u = t ∨ L.alive u) ∧ update L.a.mutexID t INVALID_ID u = i ∧ i < L.a.MutexFreeID
    by_cases hut : u = t
    · rw [hut, Function.update_self]
      exact ⟨fun hm => absurd hm (hoff i), fun e => absurd e.2.1.symm (h.ne_invalid e.2.2)⟩
    · rw [Function.update_of_ne hut, h.mem i u]
      exact and_congr ⟨Or.inr, fun e => e.resolve_left hut⟩ Iff.rfl
  · change update L.a.mutexID t INVALID_ID 0 = _
    by_cases h0 : 0 = t
    · rw [h0, Function.update_self]
    · rw [Function.update_of_ne h0]
      exact h.idle

theorem LocksOk.deleted (h : LocksOk cfg L) (hout : L.a.mutexID t = INVALID_ID) :
    LocksOk cfg (L.deleted t) := by
  have hline : ∀ i, (L.deleted t).line i = L.line i := fun i => Locks.line_congr rfl rfl rfl
  refine ⟨⟨fun u hu => h.id u hu.2, fun i u => ?_, fun i => (hline i).symm ▸ h.nodup i, h.idle⟩,
    h.size, h.prio, h.orig, h.free, h.urgent⟩
  rw [hline, h.mem i u]
  refine ⟨fun e => ⟨⟨?_, e.1⟩, e.2⟩, fun e => ⟨e.1.2, e.2⟩⟩
  rintro rfl
  exact h.ne_invalid e.2.2 (e.2.1.symm.trans hout)

theorem LocksOk.reprio (h : LocksOk cfg L) (hout : L.a.mutexID t = INVALID_ID)
    (hp : p ≤ cfg.lowestPrio) :
    LocksOk cfg (L.reprio t p) := by
  have hline : ∀ i, (L.reprio t p).line i = L.line i := fun i => Locks.line_congr rfl rfl rfl
  exact ⟨⟨h.id, fun i u => hline i ▸ h.mem i u, fun i => (hline i).symm ▸ h.nodup i,
    h.idle⟩, h.size, h.prio_update hp, h.orig, h.free, h.urgent_off (h.outside hout) p⟩

end Keep

end CoOS
