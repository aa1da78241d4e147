/-
  `CoSetPriority` inside a locked section. Its own sections are nested ones, so that their unlocks
  neither respond to requests nor schedule: it does the same as the function without `RespondSRQ`.
-/
import CoOS.Kernel.Frame
import CoOS.Kernel.Parts
import CoOS.Kernel.Unlock

namespace CoOS

open Function (update)

section Nested

variable {cfg : Env} {s : Kernel} {t m p n depth : Nat}

/-- The lock is `n` in every result. -/
def LockIs (n : Nat) (x : Option Kernel) : Prop := Ensures x fun s => s.OSSchedLock = n

theorem Framed.lockIs {v : Frame} {x : Option Kernel} (h : Framed v x) : LockIs v.OSSchedLock x :=
  h.imp fun _ e => congrArg Frame.OSSchedLock e

/-- Two computations that go on alike. -/
theorem bind_alike {α β : Type} {x : Option α} {P : α → Prop} {f g : α → Option β}
    (hx : Ensures x P)
    (h : ∀ a, P a → f a = g a) : x.bind f = x.bind g := by
  cases x with
  | none => rfl
  | some a => exact h a (hx a rfl)

theorem unlock_inner (cfg : Env) (h : s.OSSchedLock = n + 1) (hn : 0 < n) :
    osSchedUnlock cfg s = osSchedUnlock cfg.inner s ∧ LockIs n (osSchedUnlock cfg s) := by
  have hl : s.OSSchedLock ≠ 1 := by omega
  rw [osSchedUnlock_nested cfg hl, osSchedUnlock_nested cfg.inner hl]
  exact ⟨rfl, .some (by rw [h]; rfl)⟩

theorem changeTaskPri_locked (cfg : Env) (old new : Nat) :
    LockIs s.OSSchedLock (changeTaskPri cfg s old new) := by
  have hdel : LockIs s.OSSchedLock (deleteTaskPri s old) := by
    unfold deleteTaskPri
    exact Ensures.skip fun x => .ite (fun _ => .some rfl) fun _ => .some rfl
  unfold changeTaskPri
  refine .ite (fun _ => .some rfl) fun _ => Ensures.bind hdel fun s1 h1 => ?_
  rw [← h1]
  exact (activeTaskPri_frame rfl new).lockIs

theorem reorderReady_locked (cfg : Env) (t : Nat) :
    LockIs s.OSSchedLock (reorderReady cfg s t) := by
  have h : Framed s.frame (reorderReady cfg s t) :=
    Ensures.bind (removeFromTCBRdyList_frame cfg t rfl) fun _ h1 =>
      insertToTCBRdyList_frame cfg t h1
  exact h.lockIs

theorem reorderWaiting_inner (cfg : Env) (t : Nat) (hn : 0 < s.OSSchedLock) :
    reorderWaiting cfg s t = reorderWaiting cfg.inner s t ∧
      LockIs s.OSSchedLock (reorderWaiting cfg s t) := by
  unfold reorderWaiting
  dsimp only
  split
  · unfold eventTaskToWait
    let s1 : Kernel := { osSchedLock (removeEventWaittingList s t) with
      eventID := update (osSchedLock (removeEventWaittingList s t)).eventID t (s.eventID t) }
    have h1 : LockIs (s.OSSchedLock + 1) (linkWaiting cfg s1 (s.eventID t) t) :=
      (linkWaiting_frame cfg (s.eventID t) t rfl).lockIs
    have h2 : ∀ k : Kernel, k.OSSchedLock = s.OSSchedLock + 1 →
        osSchedUnlock cfg { k with state := update k.state t .WAITING, TaskSchedReq := true } =
          osSchedUnlock cfg.inner
            { k with state := update k.state t .WAITING, TaskSchedReq := true } ∧
        LockIs s.OSSchedLock
          (osSchedUnlock cfg { k with state := update k.state t .WAITING, TaskSchedReq := true }) :=
      fun k hk => unlock_inner cfg (show k.OSSchedLock = s.OSSchedLock + 1 from hk) hn
    exact ⟨bind_alike h1 fun k hk => (h2 k hk).1, Ensures.bind h1 fun k hk => (h2 k hk).2⟩
  · exact ⟨rfl, .some rfl⟩

/-- `CoSetPriority` of nested depth `depth` does not respond, and keeps the lock. -/
def SetsNested (cfg : Env) (depth : Nat) : Prop := ∀ {s : Kernel} (t p : Nat), 0 < s.OSSchedLock →
  coSetPriorityN cfg depth s t p = coSetPriorityN cfg.inner depth s t p ∧
    Ensures (coSetPriorityN cfg depth s t p) fun x => x.1.OSSchedLock = s.OSSchedLock

theorem passOn_inner (hs : SetsNested cfg depth) (m : Nat) (hn : 0 < s.OSSchedLock) :
    passOn cfg depth s m = passOn cfg.inner depth s m ∧
    LockIs s.OSSchedLock (passOn cfg depth s m) := by
  have hrest : ∀ x : Nat × Nat,
      ((osSchedUnlock cfg { osSchedLock s with hipriTaskID := update s.hipriTaskID m x.2 }).bind
      fun s =>
        if s.originalPrio m ≠ x.1 then
          (coSetPriorityN cfg depth s (s.mutexTaskID m) x.1).map Prod.fst
        else some s) =
      ((osSchedUnlock cfg.inner
        { osSchedLock s with hipriTaskID := update s.hipriTaskID m x.2 }).bind
        fun s => if s.originalPrio m ≠ x.1 then
          (coSetPriorityN cfg.inner depth s (s.mutexTaskID m) x.1).map Prod.fst else some s) ∧
      LockIs s.OSSchedLock
        ((osSchedUnlock cfg { osSchedLock s with hipriTaskID := update s.hipriTaskID m x.2 }).bind
          fun s =>
          if s.originalPrio m ≠ x.1 then
            (coSetPriorityN cfg depth s (s.mutexTaskID m) x.1).map Prod.fst
          else some s) := by
    intro x
    obtain ⟨e1, e2⟩ := @unlock_inner _ s.OSSchedLock cfg
      (show ({ osSchedLock s with hipriTaskID := update s.hipriTaskID m x.2 } :
        Kernel).OSSchedLock =
        s.OSSchedLock + 1 from rfl) hn
    rw [← e1]
    have h1 : ∀ k : Kernel, k.OSSchedLock = s.OSSchedLock → 0 < k.OSSchedLock := fun k e => e ▸ hn
    refine ⟨bind_alike e2 fun k hk => ?_,
      Ensures.bind e2 fun k hk => .ite (fun _ => ?_) fun _ => .some hk⟩
    · rw [(hs (k.mutexTaskID m) x.1 (h1 k hk)).1]
    · exact Ensures.map ((hs (k.mutexTaskID m) x.1 (h1 k hk)).2.imp fun y e => e.trans hk)
  unfold passOn
  exact ⟨congrArg _ (funext fun x => (hrest x).1), Ensures.skip fun x => (hrest x).2⟩

theorem reorderTask_inner (hs : SetsNested cfg depth) (t m : Nat) (hn : 0 < s.OSSchedLock) :
    reorderTask cfg depth s t m = reorderTask cfg.inner depth s t m ∧
      LockIs s.OSSchedLock (reorderTask cfg depth s t m) := by
  have hpass : (if m ≠ INVALID_ID then passOn cfg depth s m else some s) =
      (if m ≠ INVALID_ID then passOn cfg.inner depth s m else some s) ∧
      LockIs s.OSSchedLock (if m ≠ INVALID_ID then passOn cfg depth s m else some s) := by
    obtain ⟨e1, e2⟩ := passOn_inner hs m hn
    rw [← e1]
    exact ⟨rfl, .ite (fun _ => e2) fun _ => .some rfl⟩
  have hevent : ∀ k : Kernel, k.OSSchedLock = s.OSSchedLock →
      (if k.eventID t ≠ INVALID_ID then reorderWaiting cfg k t else some k) =
        (if k.eventID t ≠ INVALID_ID then reorderWaiting cfg.inner k t else some k) ∧
      LockIs s.OSSchedLock
        (if k.eventID t ≠ INVALID_ID then reorderWaiting cfg k t else some k) := by
    intro k hk
    obtain ⟨e1, e2⟩ := reorderWaiting_inner (s := k) cfg t (hk ▸ hn)
    rw [hk] at e2
    rw [← e1]
    exact ⟨rfl, .ite (fun _ => e2) fun _ => .some hk⟩
  unfold reorderTask
  split
  · have h1 : LockIs (s.OSSchedLock + 1) (reorderReady cfg (osSchedLock s) t) :=
      reorderReady_locked cfg t
    exact ⟨bind_alike h1 fun k hk => (unlock_inner cfg hk hn).1,
      Ensures.bind h1 fun k hk => (unlock_inner cfg hk hn).2⟩
  · obtain ⟨e1, e2⟩ :=
      @unlock_inner { osSchedLock s with TaskSchedReq := true } s.OSSchedLock cfg rfl hn
    rw [← e1]
    exact ⟨rfl, .ite (fun _ => e2) fun _ => .some rfl⟩
  · rw [← hpass.1]
    exact ⟨bind_alike hpass.2 fun k hk => (hevent k hk).1,
      Ensures.bind hpass.2 fun k hk => (hevent k hk).2⟩

theorem setsNested (cfg : Env) (depth : Nat) : SetsNested cfg depth := by
  induction depth with
  | zero => exact fun t p _ => ⟨rfl, .none⟩
  | succ depth ih =>
    intro s t p hn
    have hset : (setOriginal s t p).OSSchedLock = s.OSSchedLock := by
      unfold setOriginal
      split
      · rfl
      · rfl
    have h1 : LockIs s.OSSchedLock
      (changeTaskPri cfg (setOriginal s t p) ((setOriginal s t p).prio t) p) := by
      rw [← hset]
      exact changeTaskPri_locked cfg _ p
    have h2 : ∀ k : Kernel, k.OSSchedLock = s.OSSchedLock →
        reorderTask cfg depth { k with prio := update k.prio t p } t (s.mutexID t) =
          reorderTask cfg.inner depth { k with prio := update k.prio t p } t (s.mutexID t) ∧
        LockIs s.OSSchedLock (reorderTask cfg depth { k with prio := update k.prio t p } t
          (s.mutexID t)) := by
      intro k hk
      obtain ⟨e1, e2⟩ :=
        @reorderTask_inner cfg { k with prio := update k.prio t p } depth ih t (s.mutexID t)
        (show 0 < k.OSSchedLock by omega)
      exact ⟨e1, e2.imp fun _ e => e.trans hk⟩
    rw [coSetPriorityN_parts, coSetPriorityN_parts]
    rw [show priorityChecked cfg.inner s t p = priorityChecked cfg s t p from rfl]
    split
    · exact ⟨rfl, .some rfl⟩
    · split
      · exact ⟨rfl, .some hset⟩
      · refine ⟨bind_alike h1 fun k hk => ?_, Ensures.bind h1 fun k hk => Ensures.map (h2 k hk).2⟩
        rw [(h2 k hk).1]

/-- **CoSetPriority** inside a locked section. -/
theorem coSetPriority_inner (cfg : Env) (t p : Nat) (hn : 0 < s.OSSchedLock) :
    coSetPriority cfg s t p = coSetPriority cfg.inner s t p := (setsNested cfg _ t p hn).1

end Nested

end CoOS
