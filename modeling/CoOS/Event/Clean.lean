/-
  What `DeleteEvent` leaves of the tasks that it releases. Its loop takes each task off the head
  of the waiting list and clears the task's `waitNext`, not the `waitPrev` of the next head: every
  released task but the first keeps the link to the task before it. `RemoveEventWaittingList`
  judges the place of a task by its two links, so that such a task may later not leave the list
  of another event.

  The loop never reads `waitPrev`, so it runs as on the state in which these links are mended
  (`withPrev`), and there it is the removal of one waiting task after the other.
-/
import CoOS.Coh.Writes
import CoOS.Kernel.Delete
import CoOS.Run.Expiry

namespace CoOS

open Function (update)
open DList KeyOrder

/-! ## The property -/

/-- `t` can wait for `e` and be removed: the waiting list loses `t` and no list else changes. -/
def LeavesAlone (cfg : Env) (s : Kernel) (t e : Nat) : Prop :=
  ∃ s2, linkWaiting cfg { s with eventID := update s.eventID t e } e t = some s2 ∧
    t ∈ s2.waiters cfg e ∧
    (removeEventWaittingList s2 t).waiters cfg e = (s2.waiters cfg e).erase t ∧
    ∀ e', e' ≠ e → (removeEventWaittingList s2 t).waiters cfg e' = s2.waiters cfg e'

/-- From `s` to `s1` all tasks that waited for `e` were released. -/
structure Cleaned (cfg : Env) (s : Kernel) (e : Nat) (s1 : Kernel) : Prop where
  state : ∀ t ∈ s.waiters cfg e, s1.state t = .READY
  ready : ∀ t ∈ s.waiters cfg e, (s1.readyTasks cfg).count t = 1
  delayed : ∀ t ∈ s.waiters cfg e, t ∉ s1.delayed cfg
  event : ∀ t ∈ s.waiters cfg e, s1.eventID t = INVALID_ID
  next : ∀ t ∈ s.waiters cfg e, s1.waitNext t = none
  prev : ∀ t ∈ s.waiters cfg e, s1.waitPrev t = none
  again : ∀ t ∈ s.waiters cfg e, ∀ e', e' < cfg.maxEvent →
    s1.eventSortType e' = sortFifo ∨ s1.eventSortType e' = sortPrio → LeavesAlone cfg s1 t e'

/-! ## The links that the loop does not read -/

def Kernel.withPrev (s : Kernel) (w : Nat → Option Nat) : Kernel := { s with waitPrev := w }

section Loop

variable {cfg : Env} {s : Kernel} {g : Ghost} {e t : Nat} {w : Nat → Option Nat}

theorem robinCheck_withPrev :
    robinCheck cfg (s.withPrev w) t = (robinCheck cfg s t).withPrev w := by
  unfold robinCheck Kernel.withPrev
  cases hr : s.TCBRunning with
  | none =>
    dsimp only
    rw [← hr]
  | some r =>
    dsimp only
    split
    · rw [← hr]
    · rw [← hr]

theorem findRdyPlace_withPrev (p fuel : Nat) : ∀ c n,
    findRdyPlace (s.withPrev w) p fuel c n = findRdyPlace s p fuel c n := by
  induction fuel with
  | zero =>
    intro c n
    cases n <;> rfl
  | succ k ih =>
    intro c n
    cases n with
    | none => rfl
    | some n => exact if_congr Iff.rfl rfl (ih n (s.TCBnext n))

theorem insertOrdered_withPrev : insertOrdered cfg (s.withPrev w) t =
    (insertOrdered cfg s t).map fun s' => s'.withPrev w := by
  unfold insertOrdered
  rw [show (s.withPrev w).TCBRdy = s.TCBRdy from rfl]
  cases s.TCBRdy with
  | none => rfl
  | some h =>
    dsimp only
    by_cases hp : s.prio t < s.prio h
    · rw [if_pos hp, if_pos (show (s.withPrev w).prio t < (s.withPrev w).prio h from hp)]
      rfl
    · rw [if_neg hp, if_neg (show ¬ (s.withPrev w).prio t < (s.withPrev w).prio h from hp),
        findRdyPlace_withPrev]
      change (findRdyPlace s (s.prio t) cfg.tasks h (s.TCBnext h)).bind _ =
        Option.map _ (Option.bind _ _)
      cases findRdyPlace s (s.prio t) cfg.tasks h (s.TCBnext h) with
      | none => rfl
      | some x => rfl

theorem insertBinary_withPrev : insertBinary (s.withPrev w) t =
    (insertBinary s t).map fun s' => s'.withPrev w := by
  unfold insertBinary
  change (getPriSeqNum s (s.prio t)).bind _ = Option.map _ (Option.bind _ _)
  cases getPriSeqNum s (s.prio t) with
  | none => rfl
  | some x =>
    rw [Option.bind_some, Option.bind_some, apply_ite (Option.map fun s' : Kernel => s'.withPrev w)]
    refine if_congr Iff.rfl rfl ?_
    rw [apply_ite (Option.map fun s' : Kernel => s'.withPrev w)]
    rfl

theorem insertToTCBRdyList_withPrev : insertToTCBRdyList cfg (s.withPrev w) t =
    (insertToTCBRdyList cfg s t).map fun s' => s'.withPrev w := by
  unfold insertToTCBRdyList
  change (if cfg.orderListScheduleEn = true then
    insertOrdered cfg
      (robinCheck cfg (Kernel.withPrev { s with state := update s.state t .READY } w) t) t
    else insertBinary
      (robinCheck cfg (Kernel.withPrev { s with state := update s.state t .READY } w) t) t) = _
  rw [robinCheck_withPrev, insertOrdered_withPrev, insertBinary_withPrev]
  exact (apply_ite (Option.map fun s' : Kernel => s'.withPrev w) ..).symm

/-- `releaseTasks` up to the insertion of `t`. -/
def popWaiter (s : Kernel) (e t : Nat) : Kernel :=
  let s := if s.delayTick t ≠ INVALID_VALUE then removeDelayList s t else s
  { s with
    eventTCBList := update s.eventTCBList e (s.waitNext t)
    waitNext := update s.waitNext t none
    eventID := update s.eventID t INVALID_ID }

theorem releaseTasks_some (hd : s.eventTCBList e = some t) (fuel : Nat) :
    releaseTasks cfg e (fuel + 1) s =
      (insertToTCBRdyList cfg (popWaiter s e t) t).bind (releaseTasks cfg e fuel) := by
  conv_lhs => unfold releaseTasks
  rw [hd]
  rfl

theorem popWaiter_waitPrev : (popWaiter s e t).waitPrev = s.waitPrev := by
  unfold popWaiter
  dsimp only
  split <;> rfl

/-- `InsertToTCBRdyList` leaves the links of the waiting lists as they are. -/
theorem insertToTCBRdyList_waitPrev {s' : Kernel} (h : insertToTCBRdyList cfg s t = some s') :
    s'.waitPrev = s.waitPrev := by
  obtain ⟨L, T, ct, req, st, nx, rfl⟩ := insertToTCBRdyList_writes (Resched.refl s) t s' h
  rfl

/-- The task leaves the delay list if it is in it. -/
theorem Coh.stopDelay (h : Coh cfg s g) (hlive : Live cfg g t)
    (hloc : g.tcb.loc t = none ∨ g.tcb.loc t = some .dly) :
    ∃ g', Coh cfg (if s.delayTick t ≠ INVALID_VALUE then removeDelayList s t else s) g' ∧
      g'.tcb.loc t = none ∧ g'.evt = g.evt ∧ ∀ a, a ≠ t → g'.tcb.loc a = g.tcb.loc a := by
  have hiff := h.delayTick_iff hlive
  rcases hloc with hloc | hloc
  · rw [if_neg (by rw [hiff, hloc]; exact fun e => nomatch e)]
    exact ⟨g, h, hloc, rfl, fun _ _ => rfl⟩
  · rw [if_pos (hiff.mpr hloc)]
    exact ⟨g.undelay t, h.undelay hloc, Family.take_loc_self .., rfl,
      fun a ha => Family.take_loc_ne _ _ ha⟩

/-- One round of the loop: on the mended state the head leaves the list and becomes ready. -/
theorem releaseTasks_round (h : Coh cfg (s.withPrev w) g) {l : List Nat}
    (hl : g.evt.lst e = t :: l) :
    ∃ s' g', (∀ fuel, releaseTasks cfg e (fuel + 1) s = releaseTasks cfg e fuel s') ∧
      Coh cfg (s'.withPrev (clearPrev (s.waitNext t) w)) g' ∧ s'.waitPrev = s.waitPrev ∧
      g'.evt = g.evt.take e t l ∧ g'.tcb.loc t = some .rdy ∧
      ∀ u, u ≠ t → g'.tcb.loc u = g.tcb.loc u := by
  have hhead : s.eventTCBList e = some t := by
    have := (h.rep.evt.double e rfl).head
    rw [hl] at this
    exact this
  obtain ⟨hloc, hpop⟩ := popEvent_eq h hhead
  have hlive := h.evt_live hloc
  have h1 : Coh cfg (removeEventWaittingList (s.withPrev w) t) (g.leaveEvent e t) :=
    h.leaveEvent hloc
  have hev : (g.leaveEvent e t).evt = g.evt.take e t l := by
    unfold Ghost.leaveEvent
    rw [hl, List.erase_cons_head]
  have hlive1 : Live cfg (g.leaveEvent e t) t := hlive
  obtain ⟨g2, h2, e1, e2, e3⟩ := h1.stopDelay hlive1 (h.waits hlive hloc).2
  have hmend : (popWaiter s e t).withPrev (clearPrev (s.waitNext t) w) =
      if (removeEventWaittingList (s.withPrev w) t).delayTick t ≠ INVALID_VALUE then
        removeDelayList (removeEventWaittingList (s.withPrev w) t) t
      else removeEventWaittingList (s.withPrev w) t := by
    rw [← hpop]
    unfold popWaiter
    dsimp only
    by_cases hd : s.delayTick t ≠ INVALID_VALUE
    · rw [if_pos hd, if_pos (show (s.withPrev w).delayTick t ≠ INVALID_VALUE from hd)]
      rfl
    · rw [if_neg hd, if_neg (show ¬ (s.withPrev w).delayTick t ≠ INVALID_VALUE from hd)]
      rfl
  rw [← hmend] at h2
  have hlive2 : Live cfg g2 t := ⟨hlive.1, by rw [e1]; exact fun e => nomatch e⟩
  have hoff : g2.evt.loc t = none := by
    rw [e2, hev]
    exact Family.take_loc_self ..
  obtain ⟨L, T, ct, h3, h4⟩ := h2.mkReady hlive2 e1 hoff
  rw [insertToTCBRdyList_withPrev] at h3
  obtain ⟨s', h5, h6⟩ := Option.map_eq_some_iff.mp h3
  refine ⟨s', _, fun fuel => ?_, h6 ▸ h4 _, ?_, ?_, ?_, fun u hu => ?_⟩
  · rw [releaseTasks_some hhead, h5]
    rfl
  · exact (insertToTCBRdyList_waitPrev h5).trans popWaiter_waitPrev
  · exact e2.trans hev
  · exact Family.put_loc_self ..
  · exact (Family.put_loc_ne _ _ hu).trans (e3 u hu)

/-- **The loop** releases all tasks that wait. -/
theorem releaseTasks_spec (l : List Nat) : ∀ {s : Kernel} {g : Ghost} {w : Nat → Option Nat}
    {fuel : Nat}, Coh cfg (s.withPrev w) g → g.evt.lst e = l → l.length ≤ fuel →
    ∃ s1 w1 g1, releaseTasks cfg e fuel s = some s1 ∧ Coh cfg (s1.withPrev w1) g1 ∧
      s1.waitPrev = s.waitPrev ∧ (l.length ≤ 1 → w1 = w) ∧
      (∀ u ∈ l, g1.tcb.loc u = some .rdy ∧ g1.evt.loc u = none) ∧
      ∀ u, u ∉ l → g1.tcb.loc u = g.tcb.loc u ∧ g1.evt.loc u = g.evt.loc u := by
  induction l with
  | nil =>
    intro s g w fuel h hl _
    have hhead : s.eventTCBList e = none := by
      have := (h.rep.evt.double e rfl).head
      rw [hl] at this
      exact this
    refine ⟨s, w, g, ?_, h, rfl, fun _ => rfl, fun u hu => absurd hu List.not_mem_nil,
      fun _ _ => ⟨rfl, rfl⟩⟩
    unfold releaseTasks
    rw [hhead]
  | cons t l ih =>
    intro s g w fuel h hl hf
    obtain ⟨n, rfl⟩ : ∃ n, fuel = n + 1 := ⟨fuel - 1, by rw [List.length_cons] at hf; omega⟩
    have hnd := (h.rep.evt.double e rfl).nodup
    rw [hl] at hnd
    obtain ⟨htl, -⟩ := List.nodup_cons.mp hnd
    obtain ⟨s', g', h1, h2, h3, h4, h5, h6⟩ := releaseTasks_round h hl
    have hl' : g'.evt.lst e = l := by
      rw [h4]
      exact Family.take_lst_self ..
    obtain ⟨s1, w1, g1, k1, k2, k3, k0, k4, k5⟩ := ih h2 hl' (Nat.le_of_succ_le_succ hf)
    refine ⟨s1, w1, g1, (h1 n).trans k1, k2, k3.trans h3, fun h1 => ?_, fun u hu => ?_,
      fun u hu => ?_⟩
    · -- alone in the list: there is no next head to mend
      obtain rfl : l = [] := List.length_eq_zero_iff.mp (Nat.le_zero.mp (Nat.le_of_succ_le_succ h1))
      have hlk : IsDList ((s.withPrev w).evtLinks e) ([] ++ t :: []) := by
        rw [List.nil_append, ← hl]
        exact h.rep.evt.double e rfl
      have hn : s.waitNext t = none := hlk.toSList.next_split
      rw [k0 (Nat.zero_le 1), hn]
      rfl
    · rcases List.mem_cons.mp hu with rfl | hu
      · obtain ⟨f1, f2⟩ := k5 u htl
        refine ⟨f1.trans h5, f2.trans ?_⟩
        rw [h4]
        exact Family.take_loc_self ..
      · exact k4 u hu
    · obtain ⟨hut, hul⟩ := not_or.mp (fun e => hu (List.mem_cons.mpr e))
      obtain ⟨f1, f2⟩ := k5 u hul
      refine ⟨f1.trans (h6 u hut), f2.trans ?_⟩
      rw [h4]
      exact Family.take_loc_ne _ _ hut

end Loop

/-! ## The main result -/

section Main

variable {cfg : Env} {s : Kernel} {g : Ghost} {t : Nat}

/-- In coherent lists `RemoveEventWaittingList` takes out its task and nothing else. -/
theorem Rep.removeWaiting (h : Rep cfg s g) {e : Nat} (hid : s.eventID t = e)
    (ho : g.evt.loc t = some e) :
    (removeEventWaittingList s t).waiters cfg e = (s.waiters cfg e).erase t ∧
      ∀ e', e' ≠ e → (removeEventWaittingList s t).waiters cfg e' = s.waiters cfg e' := by
  have h' := h.leaveEvent hid ho
  refine ⟨?_, fun e' hne => ?_⟩
  · rw [h'.waiters_eq, h.waiters_eq]
    exact Family.take_lst_self ..
  · rw [h'.waiters_eq, h.waiters_eq]
    exact Family.take_lst_ne _ _ hne

/-- Where the links are in order, a task that waits for nothing can wait and be removed. -/
theorem Coh.leavesAlone (h : Coh cfg s g) (ht : t < cfg.tasks) (ho : g.evt.loc t = none) {e : Nat}
    (he : e < cfg.maxEvent) (hsort : s.eventSortType e = sortFifo ∨ s.eventSortType e = sortPrio) :
    LeavesAlone cfg s t e := by
  have h0 : Rep cfg { s with eventID := update s.eventID t e } g := h.rep.congr rfl rfl rfl rfl rfl
  obtain ⟨L, h1, h2⟩ := h0.joinEvent ht he ho hsort
  have hloc : (g.wait { s with eventID := update s.eventID t e } e t).evt.loc t = some e :=
    Family.put_loc_self ..
  have hid : (Kernel.setEvtLinks { s with eventID := update s.eventID t e } e L).eventID t = e :=
    Function.update_self ..
  have hmem : t ∈
    (Kernel.setEvtLinks { s with eventID := update s.eventID t e } e L).waiters cfg e := by
    rw [h2.waiters_eq, h2.evt.mem]
    exact hloc
  exact ⟨_, h1, hmem, h2.removeWaiting hid hloc⟩

/-- **DeleteEvent** with `OPT_DEL_ANYWAY` leaves its waiting tasks clean when there is at most one
    of them, and only then. -/
theorem delete_cleans (h : Coh cfg s g) (e : Nat) :
    deleteEvent cfg s e OPT_DEL_ANYWAY = ((releaseTasks cfg e cfg.tasks (osSchedLock s)).bind
      fun s1 => (osSchedUnlock cfg s1).bind fun s2 => some (s2, none)) ∧
    ∃ s1, releaseTasks cfg e cfg.tasks (osSchedLock s) = some s1 ∧
      (Cleaned cfg s e s1 ↔ (s.waiters cfg e).length ≤ 1) := by
  have h0 : Coh cfg ((osSchedLock s).withPrev s.waitPrev) g := h.congr rfl
  have hw := h.rep.waiters_eq e
  obtain ⟨s1, w1, g1, h1, h2, h3, h4, h5, -⟩ :=
    releaseTasks_spec (g.evt.lst e) h0 rfl (h.rep.evt_length e)
  refine ⟨rfl, s1, h1, fun hx => ?_, fun hle => ?_⟩
  · -- the second of several waiting tasks keeps its link to the first
    by_contra hlen
    have hdl := h.rep.evt.double e rfl
    have hprev := hx.prev
    rw [hw] at hlen hprev
    cases hl : g.evt.lst e with
    | nil => simp [hl] at hlen
    | cons a l =>
      cases l with
      | nil => simp [hl] at hlen
      | cons b l =>
        rw [hl] at hdl hprev
        have hsplit : IsDList (s.evtLinks e) ([a] ++ b :: l) := hdl
        have hp : s.waitPrev b = some a := hsplit.prev_split
        have hb := hprev b (by simp)
        rw [h3] at hb
        exact nomatch hp.symm.trans hb
  · rw [hw] at hle
    have hcoh : Coh cfg s1 g1 := by
      rw [h4 hle] at h2
      rwa [show s1.withPrev s.waitPrev = s1 from h3 ▸ rfl] at h2
    have hall : ∀ t ∈ s.waiters cfg e, Live cfg g1 t ∧ g1.tcb.loc t = some .rdy ∧
      g1.evt.loc t = none := by
      intro t ht
      rw [hw] at ht
      obtain ⟨hr, ho⟩ := h5 t ht
      exact ⟨⟨hcoh.rep.lt t _ hr, by rw [hr]; exact fun e => nomatch e⟩, hr, ho⟩
    refine ⟨fun t ht => ?_, fun t ht => ?_, fun t ht => ?_, fun t ht => ?_, fun t ht => ?_,
      fun t ht => ?_,
      fun t ht e' he hs => ?_⟩
    all_goals obtain ⟨hlive, hr, ho⟩ := hall t ht
    · exact ((hcoh.task t hlive).rdy hr).1
    · rw [hcoh.rep.readyTasks_eq]
      exact List.count_eq_one_of_mem (hcoh.rep.tcb.single .rdy).nodup
        ((hcoh.rep.tcb.mem .rdy t).mpr hr)
    · rw [hcoh.rep.delayed_eq, hcoh.rep.tcb.mem .dly t, hr]
      exact fun e => nomatch e
    · rw [(hcoh.task t hlive).ev, ho]
      rfl
    · exact (hcoh.rep.evt.off t ho).1
    · exact (hcoh.rep.evt.off t ho).2
    · exact hcoh.leavesAlone hlive.1 ho he hs

theorem delete_cleans_one : ∃ m0 m s1, boot shippedEnv shippedIdle twoTasks = some m0 ∧
    Reach shippedEnv (Tame shippedEnv) m0 m ∧ m.k.waiters shippedEnv 0 = [1] ∧
    releaseTasks shippedEnv.served 0 shippedEnv.tasks (osSchedLock m.k) = some s1 ∧
    Cleaned shippedEnv.served m.k 0 s1 := by
  obtain ⟨m0, m, h1, h2, h3⟩ := @ran shippedEnv DelayStep _ shippedIdle twoTasks
    [([], .call (.pend .sem 0 3)), ([], .resume)] _ (fun m => m.k.waiters shippedEnv 0) [1]
    (by decide +kernel)
  obtain ⟨g, r, hbt, -⟩ := @booted shippedEnv m0 shippedIdle twoTasks (by decide) h1
  obtain ⟨g, r, F, hi⟩ := h2.ofTimed.tame ⟨g, r, [], hbt.inv⟩
  obtain ⟨-, s1, h4, h5⟩ := delete_cleans hi.stable.coh 0
  refine ⟨m0, m, s1, h1, h2.ofTimed, h3, h4, h5.mpr ?_⟩
  rw [show m.k.waiters shippedEnv.served 0 = [1] from h3]
  decide

/-- Three tasks and two semaphores that are never given. -/
def threeTasks : List Setup :=
  [.plainTask 5, .plainTask 10, .plainTask 15, .sem 0 1 sortFifo, .sem 0 1 sortFifo]

/-- Tasks 1 and 2 wait for semaphore 0 and task 3 deletes it. Task 2 keeps its link to task 1; when
    it waits for semaphore 1 alone, it cannot be removed. -/
theorem delete_keeps_link : ∃ m0 m s1, boot shippedEnv shippedIdle threeTasks = some m0 ∧
    Reach shippedEnv (Tame shippedEnv) m0 m ∧ m.k.waiters shippedEnv 0 = [1, 2] ∧
    releaseTasks shippedEnv.served 0 shippedEnv.tasks (osSchedLock m.k) = some s1 ∧
    s1.waitPrev 2 = some 1 ∧ ¬ LeavesAlone shippedEnv.served s1 2 1 ∧
    ¬ Cleaned shippedEnv.served m.k 0 s1 := by
  obtain ⟨m0, m, h1, h2, h3⟩ := @ran shippedEnv DelayStep _ shippedIdle threeTasks
    [([], .call (.pend .sem 0 0)), ([], .resume), ([], .call (.pend .sem 0 0)), ([], .resume)]
    _ (fun m => (m.k.waiters shippedEnv 0,
      (releaseTasks shippedEnv.served 0 shippedEnv.tasks (osSchedLock m.k)).bind fun s1 =>
        (linkWaiting shippedEnv.served { s1 with eventID := update s1.eventID 2 1 } 1
          2).map fun s2 =>
          (s1.waitPrev 2, s2.waiters shippedEnv 1,
            (removeEventWaittingList s2 2).waiters shippedEnv 1)))
    ([1, 2], some (some 1, [2], [2])) (by decide +kernel)
  have hw : m.k.waiters shippedEnv 0 = [1, 2] := congrArg Prod.fst h3
  obtain ⟨s1, h4, h5⟩ := Option.bind_eq_some_iff.mp (congrArg Prod.snd h3)
  obtain ⟨s2, h6, h7⟩ := Option.map_eq_some_iff.mp h5
  have hp : s1.waitPrev 2 = some 1 := congrArg Prod.fst h7
  refine ⟨m0, m, s1, h1, h2.ofTimed, hw, h4, hp, fun hx => ?_, fun hx => ?_⟩
  · obtain ⟨s2', k1, -, k2, -⟩ := hx
    rw [h6] at k1
    obtain rfl := Option.some.inj k1
    rw [show (removeEventWaittingList s2 2).waiters shippedEnv.served 1 = [2] from
        congrArg (fun x => x.2.2) h7,
      show s2.waiters shippedEnv.served 1 = [2] from congrArg (fun x => x.2.1) h7] at k2
    exact absurd k2 (by decide)
  · have h2w : (2 : Nat) ∈ m.k.waiters shippedEnv.served 0 := by
      rw [show m.k.waiters shippedEnv.served 0 = [1, 2] from hw]
      decide
    have := hx.prev 2 h2w
    rw [hp] at this
    exact nomatch this

end Main

end CoOS
