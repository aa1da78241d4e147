/-
  The waiting list of a mutex under `RemoveMutexList` and `CoLeaveMutexSection`.

  The list is a doubly linked one without a header: `waittingList` is its first task.
  `RemoveMutexList` repairs the links of the neighbours but never moves `waittingList` to the second
  task, and `CoLeaveMutexSection` moves it but leaves the back link of the second task as it is. So
  a removal is right unless the task is the first of several (`removeMutexList_exact`), and a
  hand-over unless somebody waits behind the new owner (`coLeaveMutexSection_exact`).

  The nested `CoSetPriority` does not come near the tasks that wait: no other list leads to them
  (`SetApart`), and the functions do not leave the zone of the other tasks.
-/
import CoOS.Mutex.Nested
import CoOS.Zone.Run

namespace CoOS

open Function (update)
open DList

/-! ## The waiting list -/

def Kernel.mtxLinks (s : Kernel) (m : Nat) : Links Nat := ⟨s.waittingList m, s.TCBnext, s.TCBprev⟩

/-- All tasks but those of `l`; in the lists of events and flags all but those of `w`. -/
def Zone.outside {l w : List Nat} (hs : l ⊆ w) (next prev : Nat → Option Nat) : Zone where
  tcb t := t ∉ l
  evt t := t ∉ w
  flag t := t ∉ w
  dormant _ := True
  timers := True
  next := next
  prev := prev
  evt_tcb _ h := fun e => h (hs e)
  flag_tcb _ h := fun e => h (hs e)

/-- No other list leads to the tasks `l`, and no event or flag to the tasks `w`. -/
def SetApart (cfg : Config) {l w : List Nat} (hs : l ⊆ w) (s : Kernel) : Prop :=
  Sealed cfg (Zone.outside hs s.TCBnext s.TCBprev) s.mtxPart s

section Apart

variable {cfg : Env} {s s' : Kernel} {l l' w : List Nat} {m t : Nat} {hs : l ⊆ w}

/-- Links of the tasks `l` are written, and some of these tasks leave `l` with null links. -/
theorem SetApart.relink (h : SetApart cfg.toConfig hs s) (hlt : ∀ u ∈ l, u < cfg.tasks)
    (hsub : l' ⊆ l)
    (hv : s'.zoneView = { s.zoneView with tcb := s'.rdyLinks, part := s'.mtxPart })
    (hh : s'.TCBRdy = s.TCBRdy)
    (hout : ∀ u, u ∉ l → s'.TCBnext u = s.TCBnext u ∧ s'.TCBprev u = s.TCBprev u)
    (hnull : ∀ u ∈ l, u ∉ l' → s'.TCBnext u = none ∧ s'.TCBprev u = none) :
    SetApart cfg.toConfig (List.Subset.trans hsub hs) s' := by
  have hn : ∀ {u}, u ∉ l → u ∉ l' := fun hu e => hu (hsub e)
  have hnext : ∀ a b, a ∉ l' → s'.TCBnext a = some b → b ∉ l' := by
    intro a b ha e
    by_cases hal : a ∈ l
    · rw [(hnull a hal ha).1] at e
      exact nomatch e
    · rw [(hout a hal).1] at e
      exact hn (h.tcb.next a b hal e)
  have hprev : ∀ a b, a ∉ l' → s'.TCBprev a = some b → b ∉ l' := by
    intro a b ha e
    by_cases hal : a ∈ l
    · rw [(hnull a hal ha).2] at e
      exact nomatch e
    · rw [(hout a hal).2] at e
      exact hn (h.tcb.prev a b hal e)
  have h1 : Sealed cfg.toConfig
    (Zone.outside (List.Subset.trans hsub hs) s'.TCBnext s'.TCBprev) s'.mtxPart
      { s with
        TCBnext := s'.TCBnext, TCBprev := s'.TCBprev
        prio := s'.prio, mutexID := s'.mutexID, originalPrio := s'.originalPrio
        mutexOccupied := s'.mutexOccupied, mutexTaskID := s'.mutexTaskID
        hipriTaskID := s'.hipriTaskID, waittingList := s'.waittingList
        MutexFreeID := s'.MutexFreeID } := by
    refine ⟨⟨fun a e => hn (h.tcb.head a e), hnext, hprev⟩, fun a e => hn (h.dly a e),
      fun a e => hn (h.free a e), fun a e => hn (h.cur a e), fun a e =>
        hn (h.nxt a e), fun a _ => ⟨rfl, rfl⟩,
      h.evt, h.node, h.tail, fun a ha e => hn (h.ready a ha e), fun a ha e => ?_, h.pnode,
      fun _ _ => trivial, fun i e => hn (h.ptr i e), fun i e => hn (h.bit i e), Or.inr trivial, rfl⟩
    refine h.eventID a ?_ e
    by_cases hal : a ∈ l
    · exact Or.inr (hlt a hal)
    · exact Or.inl hal
  refine h1.congr (hv.trans ?_)
  unfold Kernel.zoneView Kernel.rdyLinks
  rw [hh]
  rfl

/-- The links of the tasks `l` are the given ones. -/
theorem Sealed.apart {next prev : Nat → Option Nat} {d : MtxPart}
    (h : Sealed cfg.toConfig (Zone.outside hs next prev) d s) :
    SetApart cfg.toConfig hs s ∧ ∀ u ∈ l, s.TCBnext u = next u ∧ s.TCBprev u = prev u := by
  have e := h.part
  subst e
  exact ⟨{ h with off := fun _ _ => ⟨rfl, rfl⟩ }, fun u hu => h.off u fun hn => hn hu⟩

end Apart

/-! ## RemoveMutexList -/

/-- The tasks `l` without `t` wait for `m`, and `t` waits no more. -/
structure Removed (s : Kernel) (m t : Nat) (l : List Nat) : Prop where
  list : IsDList (s.mtxLinks m) (l.erase t)
  next : s.TCBnext t = none
  prev : s.TCBprev t = none
  mutexID : s.mutexID t = INVALID_ID

section Remove

variable {cfg : Env} {s s' : Kernel} {l l1 l2 w : List Nat} {m t n : Nat}

theorem Removed.congr (h : Removed s m t l) (ht : t ∈ l) (hw : s'.waittingList m = s.waittingList m)
    (hl : ∀ u ∈ l, s'.TCBnext u = s.TCBnext u ∧ s'.TCBprev u = s.TCBprev u)
    (hm : s'.mutexID t = s.mutexID t) : Removed s' m t l := by
  have hin : ∀ u ∈ l.erase t, u ∈ l := fun u hu => List.mem_of_mem_erase hu
  exact ⟨h.list.congr hw (fun a ha => (hl a (hin a ha)).1) fun a ha => (hl a (hin a ha)).2,
    (hl t ht).1.trans h.next, (hl t ht).2.trans h.prev, hm.trans h.mutexID⟩

/-- Unless `t` is the first of several, the writes are those of a removal. -/
theorem unlinkWaiter_links (h : s.TCBprev t ≠ none ∨ s.TCBnext t = none) :
    (unlinkWaiter s t).mtxLinks (s.mutexID t) = (s.mtxLinks (s.mutexID t)).unlink t := by
  unfold unlinkWaiter Links.unlink Kernel.mtxLinks
  dsimp only
  cases hn : s.TCBnext t with
  | none =>
    cases hp : s.TCBprev t with
    | none =>
      dsimp only
      rw [Function.update_self]
    | some p => rfl
  | some n =>
    cases hp : s.TCBprev t with
    | none => exact absurd (h.resolve_left fun h => h hp) (hn ▸ Option.some_ne_none n)
    | some p => rfl

/-- The first of several: `waittingList` stays. -/
theorem unlinkWaiter_first (hn : s.TCBnext t = some n) (hp : s.TCBprev t = none) :
    (unlinkWaiter s t).mtxLinks m =
      ⟨s.waittingList m, update s.TCBnext t none, update s.TCBprev n none⟩ := by
  unfold unlinkWaiter
  rw [hn, hp]
  rfl

theorem unlinkWaiter_mutexID : (unlinkWaiter s t).mutexID = update s.mutexID t INVALID_ID := by
  unfold unlinkWaiter
  dsimp only
  cases s.TCBnext t with
  | none =>
    cases s.TCBprev t with
    | none => rfl
    | some p => rfl
  | some n =>
    cases s.TCBprev t with
    | none => rfl
    | some p => rfl

theorem links_split (h : IsDList (s.mtxLinks m) (l1 ++ t :: l2)) :
    (s.TCBprev t ≠ none ∨ s.TCBnext t = none) ↔ (l1 ≠ [] ∨ l2 = []) := by
  rw [show s.TCBnext t = l2.head? from h.next_split,
    show s.TCBprev t = l1.getLast? from h.prev_split]
  exact or_congr (not_congr List.getLast?_eq_none_iff) List.head?_eq_none_iff

/-- The links are right unless `t` is the first of several. -/
theorem unlinkWaiter_removed (h : IsDList (s.mtxLinks (s.mutexID t)) (l1 ++ t :: l2)) :
    Removed (unlinkWaiter s t) (s.mutexID t) t (l1 ++ t :: l2) ↔ l1 ≠ [] ∨ l2 = [] := by
  have herase : (l1 ++ t :: l2).erase t = l1 ++ l2 := by
    rw [List.erase_append_right _ (nodup_split_left h.nodup), List.erase_cons_head]
  have hm : (unlinkWaiter s t).mutexID t = INVALID_ID := by
    rw [unlinkWaiter_mutexID, Function.update_self]
  constructor
  · intro hr
    by_contra hn
    obtain ⟨h1, h2⟩ := not_or.mp hn
    obtain ⟨n, l3, rfl⟩ := List.exists_cons_of_ne_nil h2
    rw [not_not.mp h1] at h hr herase
    have hlist := hr.list
    rw [herase, unlinkWaiter_first h.next_split h.prev_split] at hlist
    -- `waittingList` still leads to `t`
    have hhead : some t = some n := h.head.symm.trans hlist.head
    refine nodup_split_right h.nodup ?_
    rw [Option.some.inj hhead]
    exact List.mem_cons_self
  · intro hc
    have e := unlinkWaiter_links ((links_split h).mpr hc)
    obtain ⟨h1, h2⟩ := unlink_links h
    rw [← e] at h1 h2
    refine ⟨?_, h1, h2, hm⟩
    rw [herase, e]
    exact isDList_unlink h

/-- No task outside the list is written. -/
theorem unlinkWaiter_frame (h : IsDList (s.mtxLinks m) (l1 ++ t :: l2)) {a : Nat}
    (ha : a ∉ l1 ++ t :: l2) : (unlinkWaiter s t).TCBnext a = s.TCBnext a ∧
      (unlinkWaiter s t).TCBprev a = s.TCBprev a := by
  have hat : a ≠ t := fun e => ha (e ▸ List.mem_append_right l1 List.mem_cons_self)
  have hnext : ∀ n, s.TCBnext t = some n → a ≠ n := fun n e he => ha <| by
    rw [he]
    exact List.mem_append_right l1
      (List.mem_cons_of_mem t (List.mem_of_mem_head? (h.next_split.symm.trans e)))
  have hprev : ∀ p, s.TCBprev t = some p → a ≠ p := fun p e he => ha <| by
    rw [he]
    exact List.mem_append_left _ (List.mem_of_mem_getLast? (h.prev_split.symm.trans e))
  unfold unlinkWaiter
  dsimp only
  cases hn : s.TCBnext t with
  | none =>
    cases hp : s.TCBprev t with
    | none => exact ⟨rfl, rfl⟩
    | some p => exact ⟨Function.update_of_ne (hprev p hp) .., Function.update_of_ne hat ..⟩
  | some n =>
    cases hp : s.TCBprev t with
    | none => exact ⟨Function.update_of_ne hat .., Function.update_of_ne (hnext n hn) ..⟩
    | some p =>
      exact ⟨(Function.update_of_ne hat ..).trans (Function.update_of_ne (hprev p hp) ..),
        (Function.update_of_ne hat ..).trans (Function.update_of_ne (hnext n hn) ..)⟩

/-- The rest of the kernel is as it was, but for `waittingList` and `mutexID`. -/
theorem unlinkWaiter_view : (unlinkWaiter s t).zoneView =
    { s.zoneView with tcb := (unlinkWaiter s t).rdyLinks, part := (unlinkWaiter s t).mtxPart } ∧
    (unlinkWaiter s t).TCBRdy = s.TCBRdy ∧ (unlinkWaiter s t).OSSchedLock = s.OSSchedLock := by
  unfold unlinkWaiter
  dsimp only
  cases s.TCBnext t with
  | none =>
    cases s.TCBprev t with
    | none => exact ⟨rfl, rfl, rfl⟩
    | some p => exact ⟨rfl, rfl, rfl⟩
  | some n =>
    cases s.TCBprev t with
    | none => exact ⟨rfl, rfl, rfl⟩
    | some p => exact ⟨rfl, rfl, rfl⟩

theorem unlinkWaiter_apart {hs : l1 ++ t :: l2 ⊆ w} (ha : SetApart cfg.toConfig hs s)
    (h : IsDList (s.mtxLinks m) (l1 ++ t :: l2)) (hlt : ∀ u ∈ l1 ++ t :: l2, u < cfg.tasks) :
    SetApart cfg.toConfig hs (unlinkWaiter s t) := by
  obtain ⟨h1, h2, -⟩ := unlinkWaiter_view (s := s) (t := t)
  exact ha.relink hlt (List.Subset.refl _) h1 h2 (fun u hu => unlinkWaiter_frame h hu)
    fun u hu hu' => absurd hu hu'

/-- What a nested `CoSetPriority` leaves as it was. -/
structure StillWaits (l : List Nat) (s s' : Kernel) : Prop where
  waittingList : s'.waittingList = s.waittingList
  mutexID : s'.mutexID = s.mutexID
  links : ∀ u ∈ l, s'.TCBnext u = s.TCBnext u ∧ s'.TCBprev u = s.TCBprev u

/-- A locked **CoSetPriority** does not come near the waiting tasks. -/
theorem coSetPriority_apart {hs : l ⊆ w} (h : SetApart cfg.toConfig hs s) (hn : 0 < s.OSSchedLock)
    (o p : Nat) :
    Ensures (coSetPriority cfg s o p) fun x => SetApart cfg.toConfig hs x.1 ∧
    StillWaits l s x.1 := by
  rw [coSetPriority_inner cfg o p hn]
  have hr : Responds cfg.inner (Zone.outside hs s.TCBnext s.TCBprev) := fun _ _ _ => .none
  refine (coSetPriority_holders hr h o p).imp fun x ⟨d, hd, h2⟩ => ?_
  have e := h2.part
  subst e
  exact ⟨h2.apart.1, hd.waittingList, hd.mutexID, h2.apart.2⟩

theorem resetOwner_waits {hs : l ⊆ w} (h : SetApart cfg.toConfig hs s)
    (hn : 0 < s.OSSchedLock) (m : Nat) :
    Ensures (resetOwner cfg s m) (StillWaits l s) := by
  unfold resetOwner
  refine Ensures.skip fun x => Ensures.map ?_
  have h1 : SetApart cfg.toConfig hs { s with
      hipriTaskID := update s.hipriTaskID m x.2
      mutexTaskID := update s.mutexTaskID m INVALID_ID } := h.setPart rfl
  refine (coSetPriority_apart h1 hn (s.mutexTaskID m) x.1).imp fun y ⟨_, h2⟩ => ?_
  exact ⟨h2.waittingList, h2.mutexID, h2.links⟩

/-- **RemoveMutexList** takes out exactly its task, if and only if that is not the first of
    several. -/
theorem removeMutexList_exact (h : IsDList (s.mtxLinks (s.mutexID t)) l) (ht : t ∈ l)
    (hlt : ∀ u ∈ l, u < cfg.tasks) (ha : SetApart cfg.toConfig (List.Subset.refl l) s)
    (hn : 0 < s.OSSchedLock) :
    Ensures (removeMutexList cfg s t) fun s' =>
      Removed s' (s.mutexID t) t l ↔ l.head? ≠ some t ∨ l = [t] := by
  obtain ⟨l1, l2, rfl⟩ := List.append_of_mem ht
  have hpos : ((l1 ++ t :: l2).head? ≠ some t ∨ l1 ++ t :: l2 = [t]) ↔ (l1 ≠ [] ∨ l2 = []) := by
    cases l1 with
    | nil => simp
    | cons a l1 =>
      have hat : a ≠ t := fun e => nodup_split_left h.nodup (e ▸ List.mem_cons_self)
      simp [hat]
  have hu := (unlinkWaiter_removed h).trans hpos.symm
  rw [removeMutexList_parts]
  refine .ite (fun _ => ?_) fun _ => .some hu
  have h1 := unlinkWaiter_apart ha h hlt
  have hn1 : 0 < (unlinkWaiter s t).OSSchedLock := unlinkWaiter_view.2.2.symm ▸ hn
  refine (resetOwner_waits h1 hn1 (s.mutexID t)).imp fun s' hw => ?_
  have hback : StillWaits (l1 ++ t :: l2) s' (unlinkWaiter s t) :=
    ⟨hw.waittingList.symm, hw.mutexID.symm,
      fun u hu => ⟨(hw.links u hu).1.symm, (hw.links u hu).2.symm⟩⟩
  have hcongr : ∀ {k k' : Kernel}, StillWaits (l1 ++ t :: l2) k k' →
    Removed k (s.mutexID t) t (l1 ++ t :: l2) →
      Removed k' (s.mutexID t) t (l1 ++ t :: l2) := fun hw hr =>
    hr.congr ht (congrFun hw.waittingList _) hw.links (congrFun hw.mutexID t)
  exact Iff.trans ⟨hcongr hback, hcongr hw⟩ hu

end Remove

/-- The task 4 runs and owns the mutex 0, which the tasks `l` wait for. -/
def waitingOn (l : List Nat) : Kernel := { Kernel.zero with
  state := fun t => if t = 4 then .RUNNING else .WAITING
  prio := fun t => 10 - t
  mutexID := fun _ => 0
  eventID := fun _ => INVALID_ID
  TCBnext := nextIn l
  TCBprev := prevIn l
  TCBRdy := some 4
  TCBRunning := some 4
  RdyTaskPri := fun _ => INVALID_ID
  MutexFreeID := 1
  mutexOccupied := fun m => m == 0
  mutexTaskID := fun _ => 4
  originalPrio := fun _ => 9
  hipriTaskID := fun _ => 2
  waittingList := fun m => if m = 0 then l.head? else none }

theorem waitingOn_isDList {l : List Nat} (h : l.Nodup) : IsDList ((waitingOn l).mtxLinks 0) l :=
  ⟨rfl, h, fun _ _ => rfl, fun _ _ => rfl⟩

theorem waitingOn_apart {l : List Nat} (h4 : 4 ∉ l) :
    SetApart shippedEnv.toConfig (List.Subset.refl l) (waitingOn l) := by
  have hnext : ∀ {a}, a ∉ l → nextIn l a = none := nextIn_not_mem
  have hprev : ∀ {a}, a ∉ l → prevIn l a = none :=
    fun h => nextIn_not_mem (mt List.mem_reverse.mp h)
  exact {
    tcb := ⟨within_some h4, fun a b ha e => (nomatch (hnext ha).symm.trans e),
      fun a b ha e => (nomatch (hprev ha).symm.trans e)⟩
    dly := within_none
    free := within_none
    cur := within_some h4
    nxt := within_none
    off := fun _ _ => ⟨rfl, rfl⟩
    evt := fun _ => ⟨within_none, fun _ _ _ e => (nomatch e), fun _ _ _ e => (nomatch e)⟩
    node := ⟨within_none, fun _ _ _ e => (nomatch e), fun _ _ _ e => (nomatch e)⟩
    tail := within_none
    ready := fun t _ e => by
      change (if t = 4 then TaskState.RUNNING else .WAITING) = .READY at e
      split at e
      · exact nomatch e
      · exact nomatch e
    eventID := fun _ _ hne => absurd rfl hne
    pnode := fun _ _ e => nomatch e
    dormant := fun _ _ => trivial
    ptr := fun _ hne => absurd rfl hne
    bit := fun i e => nomatch (Nat.zero_testBit _).symm.trans e
    tmr := Or.inl rfl
    part := rfl }

/-- The task 2 in the middle of three, which the owner was promoted for. -/
theorem removeMutexList_middle :
    ∃ s', removeMutexList shippedEnv (osSchedLock (waitingOn [1, 2, 3])) 2 = some s' ∧
    Removed s' 0 2 [1, 2, 3] := by
  obtain ⟨s', e⟩ := Option.isSome_iff_exists.mp (show (removeMutexList shippedEnv
    (osSchedLock (waitingOn [1, 2, 3])) 2).isSome = true by decide +kernel)
  have hd : IsDList ((waitingOn [1, 2, 3]).mtxLinks 0) [1, 2, 3] := waitingOn_isDList (by decide)
  have ha : SetApart shippedEnv.toConfig (List.Subset.refl [1, 2, 3])
    (osSchedLock (waitingOn [1, 2, 3])) :=
    osSchedLock_sealed (waitingOn_apart (by decide))
  exact ⟨s', e, (@removeMutexList_exact shippedEnv (osSchedLock (waitingOn [1, 2, 3])) [1, 2,
    3] 2 hd (by decide)
    (by decide) ha (by decide) s' e).mpr (by decide)⟩

/-- The owner deletes the first of two waiting tasks: `waittingList` still leads to its TCB. -/
theorem removeMutexList_first_of_two : ∃ m0 m s', boot shippedEnv shippedIdle
      [.plainTask 5, .plainTask 6, .plainTask 7, .mutex] = some m0 ∧
      Reach shippedEnv LeavesOccupied m0 m ∧
    (m.step shippedEnv [] (.call (.delTask 2))).isSome = true ∧
    IsDList ((osSchedLock m.k).mtxLinks 0) [2, 3] ∧ m.k.mutexOccupied 0 = true ∧ m.k.mutexID 2 = 0 ∧
    removeMutexList shippedEnv (osSchedLock m.k) 2 = some s' ∧ ¬ Removed s' 0 2 [2, 3] := by
  obtain ⟨m0, m, h1, h2, h3⟩ := @ran shippedEnv LeavesOccupied _ shippedIdle
    [.plainTask 5, .plainTask 6, .plainTask 7, .mutex]
    [([], .call (.enterMutex 0)), ([], .call (.tickDelay 2)), ([], .call (.enterMutex 0)),
      ([], .call (.enterMutex 0)), ([], .tick), ([], .tick)] _
    (fun m => ((m.step shippedEnv [] (.call (.delTask 2))).isSome,
      decide (IsDList ((osSchedLock m.k).mtxLinks 0) [2, 3]), m.k.mutexOccupied 0, m.k.mutexID 2,
      (removeMutexList shippedEnv (osSchedLock m.k) 2).map fun s => s.waittingList 0))
    (true, true, true, 0, some (some 2)) (by decide +kernel)
  obtain ⟨h3, h4, h5, h6, h7⟩ : _ ∧ _ ∧ _ ∧ _ ∧ _ := by simpa only [Prod.mk.injEq] using h3
  obtain ⟨s', h8, h9⟩ := Option.map_eq_some_iff.mp h7
  refine ⟨m0, m, s', h1, h2, h3, of_decide_eq_true h4, h5, h6, h8, fun hr => ?_⟩
  exact absurd (h9.symm.trans hr.list.head) (by decide)

/-! ## CoLeaveMutexSection -/

/-- The tasks `l` wait for `m`, and a removal of any of them writes no other task. -/
structure Removable (s : Kernel) (m : Nat) (l : List Nat) : Prop where
  list : IsDList (s.mtxLinks m) l
  frame : ∀ t ∈ l, ∀ a, a ∉ l → (unlinkWaiter s t).TCBnext a = s.TCBnext a ∧
    (unlinkWaiter s t).TCBprev a = s.TCBprev a

section Leave

variable {cfg : Env} {s s' : Kernel} {rest w : List Nat} {m t w1 prio : Nat}

/-- The tasks behind the new owner, in the links that they had. -/
structure HandedOn (s s' : Kernel) (m : Nat) (rest : List Nat) : Prop where
  waittingList : s'.waittingList m = rest.head?
  links : ∀ u ∈ rest, s'.TCBnext u = s.TCBnext u ∧ s'.TCBprev u = s.TCBprev u

/-- The back link of the second task is the one that it had in front of its first neighbour. -/
theorem HandedOn.removable (h : HandedOn s s' m rest) (hd : IsDList (s.mtxLinks m) (w1 :: rest)) :
    Removable s' m rest ↔ rest = [] := by
  constructor
  · intro hr
    cases rest with
    | nil => rfl
    | cons w2 l =>
      have h1 : s'.TCBprev w2 = none := @IsDList.prev_split _ _ (s'.mtxLinks m) [] l w2 hr.list
      have h2 : s.TCBprev w2 = some w1 := @IsDList.prev_split _ _ (s.mtxLinks m) [w1] l w2 hd
      have h3 := (h.links w2 List.mem_cons_self).2
      rw [h1, h2] at h3
      exact nomatch h3
  · intro e
    subst e
    exact ⟨isDList_nil h.waittingList, fun _ hu => absurd hu List.not_mem_nil⟩

/-- The hand-over to `w1`, while the other tasks wait on. -/
theorem handMutex_apart {hs : w1 :: rest ⊆ w} (h : SetApart cfg.toConfig hs s)
    (hlt : ∀ u ∈ w1 :: rest, u < cfg.tasks) (hd : IsDList (s.mtxLinks m) (w1 :: rest)) :
    Ensures (handMutex cfg s m prio) fun s' =>
      SetApart cfg.toConfig (List.Subset.trans (List.subset_cons_self w1 rest) hs) s' ∧
      HandedOn s s' m rest := by
  obtain ⟨hnot, -⟩ := List.nodup_cons.mp hd.nodup
  have hnext : s.TCBnext w1 = rest.head? := @IsDList.next_split _ _ (s.mtxLinks m) [] rest w1 hd
  have hmem : ∀ {u}, u ∈ rest → u ∈ w1 :: rest := fun hu => List.mem_cons_of_mem w1 hu
  have hne : ∀ {u}, u ∈ rest → u ≠ w1 := fun hu e => hnot (e ▸ hu)
  let s1 : Kernel := { s with
    waittingList := update s.waittingList m (s.TCBnext w1)
    originalPrio := update s.originalPrio m (s.prio w1)
    mutexTaskID := update s.mutexTaskID m w1 }
  have h1 : Sealed cfg.toConfig (Zone.outside hs s.TCBnext s.TCBprev) s1.mtxPart s1 := h.setPart rfl
  have hpri : Ensures
    (if prio ≠ s1.prio w1 then changeTaskPri cfg s1 (s1.prio w1) prio else some s1)
      (Sealed cfg.toConfig (Zone.outside hs s.TCBnext s.TCBprev) s1.mtxPart) :=
    .ite (fun _ => changeTaskPri_sealed h1 (s1.prio w1) prio) fun _ => .some h1
  unfold handMutex
  rw [show s.waittingList m = some w1 from hd.head, Option.bind_some]
  refine Ensures.bind hpri fun s2 h2 => ?_
  obtain ⟨h3, hl⟩ := h2.apart
  -- `w1` gets null links, and may be in any list from now on
  let s3 : Kernel := { s2 with
    prio := update s2.prio w1 prio
    TCBnext := update s2.TCBnext w1 none
    TCBprev := update s2.TCBprev w1 none }
  have h4 : SetApart cfg.toConfig (List.Subset.trans (List.subset_cons_self w1 rest) hs) s3 := by
    refine h3.relink hlt (List.subset_cons_self w1 rest) rfl rfl (fun u hu => ?_) fun u hu hu' => ?_
    · have hu1 : u ≠ w1 := fun e => hu (e ▸ List.mem_cons_self)
      exact ⟨Function.update_of_ne hu1 .., Function.update_of_ne hu1 ..⟩
    · rw [(List.mem_cons.mp hu).resolve_right hu']
      exact ⟨Function.update_self .., Function.update_self ..⟩
  refine (insertToTCBRdyList_sealed h4 (show w1 ∉ rest from hnot)).imp fun s4 h5 => ?_
  obtain ⟨h6, hl4⟩ := h5.apart
  have e1 : s4.waittingList = s2.waittingList := congrArg MtxPart.waittingList h5.part
  have e2 : s2.waittingList = s1.waittingList := congrArg MtxPart.waittingList h2.part
  refine ⟨h6, ?_, fun u hu => ?_⟩
  · rw [e1, e2, ← hnext]
    exact Function.update_self ..
  · have hn : s3.TCBnext u = s2.TCBnext u := Function.update_of_ne (hne hu) ..
    have hp : s3.TCBprev u = s2.TCBprev u := Function.update_of_ne (hne hu) ..
    exact ⟨((hl4 u hu).1.trans hn).trans (hl u (hmem hu)).1,
      ((hl4 u hu).2.trans hp).trans (hl u (hmem hu)).2⟩

theorem HandedOn.trans {k : Kernel} (h : StillWaits (w1 :: rest) s k) (h' : HandedOn k s' m rest) :
    HandedOn s s' m rest :=
  ⟨h'.waittingList, fun u hu =>
    have hu' := List.mem_cons_of_mem w1 hu
    ⟨(h'.links u hu).1.trans (h.links u hu').1, (h'.links u hu).2.trans (h.links u hu').2⟩⟩

theorem StillWaits.isDList {k : Kernel} {l : List Nat} (h : StillWaits l s k)
    (hd : IsDList (s.mtxLinks m) l) :
    IsDList (k.mtxLinks m) l :=
  hd.congr (congrFun h.waittingList m) (fun u hu => (h.links u hu).1) fun u hu => (h.links u hu).2

theorem leaveWaited_apart {hs : w1 :: rest ⊆ w} (h : SetApart cfg.toConfig hs s)
    (hn : 0 < s.OSSchedLock)
    (hlt : ∀ u ∈ w1 :: rest, u < cfg.tasks) (hd : IsDList (s.mtxLinks m) (w1 :: rest)) :
    Ensures (leaveWaited cfg s m w1) fun s' =>
      SetApart cfg.toConfig (List.Subset.trans (List.subset_cons_self w1 rest) hs) s' ∧
      HandedOn s s' m rest := by
  unfold leaveWaited
  refine Ensures.skip fun x => ?_
  have h1 : SetApart cfg.toConfig hs { s with
      hipriTaskID := update s.hipriTaskID m x.2
      mutexTaskID := update s.mutexTaskID m INVALID_ID } := h.setPart rfl
  refine Ensures.bind (coSetPriority_apart h1 hn (s.mutexTaskID m) (s.originalPrio m))
    fun y ⟨h2, h3⟩ => ?_
  have hw : StillWaits (w1 :: rest) s y.1 := ⟨h3.waittingList, h3.mutexID, h3.links⟩
  have hd2 := hw.isDList hd
  exact (handMutex_apart h2 hlt hd2).imp fun s' ⟨h4, h5⟩ => ⟨h4, h5.trans hw⟩

/-- **CoLeaveMutexSection** keeps the list of the tasks that still wait, if and only if there are
    none. -/
theorem coLeaveMutexSection_exact (hi : s.OSIntNesting = 0) (hm : m < s.MutexFreeID)
    (hd : IsDList (s.mtxLinks m) (w1 :: rest)) (hlt : ∀ u ∈ w1 :: rest, u < cfg.tasks)
    (ha : SetApart cfg.toConfig (List.Subset.refl (w1 :: rest)) s)
    (hc : ∀ next prev, CallsBack cfg (Zone.outside (List.subset_cons_self w1 rest) next prev)) :
    Ensures (coLeaveMutexSection cfg.served s m) fun x => Removable x.1 m rest ↔ rest = [] := by
  rw [coLeaveMutexSection_parts, if_neg (by omega), if_neg (Nat.not_le_of_lt hm),
    show s.waittingList m = some w1 from hd.head]
  have h1 : SetApart cfg.toConfig (List.Subset.refl (w1 :: rest)) (leaving s m) :=
    (osSchedLock_sealed ha).setPart rfl
  refine Ensures.bind (@leaveWaited_apart cfg.served _ _ _ _ _ _ h1 (Nat.succ_pos _) hlt hd)
    fun s2 ⟨h2, h3⟩ => ?_
  refine Ensures.map ((osSchedUnlock_sealed (responds_served (hc _ _)) h2).imp fun s3 h4 => ?_)
  obtain ⟨-, hl⟩ := h4.apart
  have e : s3.waittingList = s2.waittingList := congrArg MtxPart.waittingList h4.part
  have h5 : HandedOn s s3 m rest :=
    ⟨(congrFun e m).trans h3.waittingList, fun u hu => ⟨(hl u hu).1.trans (h3.links u hu).1,
      (hl u hu).2.trans (h3.links u hu).2⟩⟩
  exact h5.removable hd

end Leave

/-- One task waits: the list is empty afterwards. -/
theorem coLeaveMutexSection_single :
    ∃ x, coLeaveMutexSection shippedEnv.served (waitingOn [1]) 0 = some x ∧
    Removable x.1 0 [] := by
  obtain ⟨x, e⟩ := Option.isSome_iff_exists.mp (show (coLeaveMutexSection shippedEnv.served
    (waitingOn [1]) 0).isSome = true by decide +kernel)
  have hd : IsDList ((waitingOn [1]).mtxLinks 0) [1] := waitingOn_isDList (by decide)
  have ha : SetApart shippedEnv.toConfig (List.Subset.refl [1]) (waitingOn [1]) :=
    waitingOn_apart (by decide)
  exact ⟨x, e,
    (@coLeaveMutexSection_exact shippedEnv (waitingOn [1]) [] 0 1 rfl (by decide) hd (by decide) ha
    (fun _ _ _ _ _ _ h => .some h) x e).mpr rfl⟩

/-- Two tasks wait: the second keeps its link to the new owner. -/
theorem coLeaveMutexSection_two : ∃ m0 m x, boot shippedEnv shippedIdle
      [.plainTask 5, .plainTask 6, .plainTask 7, .mutex] = some m0 ∧
      Reach shippedEnv LeavesOccupied m0 m ∧
    m.k.TCBRunning = some (m.k.mutexTaskID 0) ∧ m.k.mutexOccupied 0 = true ∧
    IsDList (m.k.mtxLinks 0) [2, 3] ∧
    coLeaveMutexSection shippedEnv.served m.k 0 = some x ∧ ¬ Removable x.1 0 [3] := by
  obtain ⟨m0, m, h1, h2, h3⟩ := @ran shippedEnv LeavesOccupied _ shippedIdle
    [.plainTask 5, .plainTask 6, .plainTask 7, .mutex]
    [([], .call (.enterMutex 0)), ([], .call (.tickDelay 2)), ([], .call (.enterMutex 0)),
      ([], .call (.enterMutex 0)), ([], .tick), ([], .tick)] _
    (fun m => (decide (m.k.TCBRunning = some (m.k.mutexTaskID 0)), m.k.mutexOccupied 0,
      decide (IsDList (m.k.mtxLinks 0) [2, 3]),
      (coLeaveMutexSection shippedEnv.served m.k 0).map fun x => x.1.TCBprev 3))
    (true, true, true, some (some 2)) (by decide +kernel)
  obtain ⟨h3, h4, h5, h6⟩ : _ ∧ _ ∧ _ ∧ _ := by simpa only [Prod.mk.injEq] using h3
  obtain ⟨x, h7, h8⟩ := Option.map_eq_some_iff.mp h6
  refine ⟨m0, m, x, h1, h2, of_decide_eq_true h3, h4, of_decide_eq_true h5, h7, fun hr => ?_⟩
  have h9 : x.1.TCBprev 3 = none := hr.list.prev 3 (List.mem_singleton.mpr rfl)
  exact absurd (h8.symm.trans h9) (by decide)

end CoOS
