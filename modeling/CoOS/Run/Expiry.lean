/-
  How a delay ends. At its expiry `TimeDispose` takes the task out of the event list or the flag
  list that it waits in as well. `CoResetTaskDelayTick` with 0 ticks takes it out of the delay
  list only: a task that waits for something else too is made ready and stays in the other list.
-/
import CoOS.Run.Delayed

namespace CoOS

open Function (update)
open DList KeyOrder

def Kernel.readyTasks (cfg : Env) (k : Kernel) : List Nat := walk k.TCBnext cfg.tasks k.TCBRdy

/-- The waiting list of the event `e`. -/
def Kernel.waiters (cfg : Env) (k : Kernel) (e : Nat) : List Nat :=
  walk k.waitNext cfg.tasks (k.eventTCBList e)

/-- The delayed tasks, each with the ticks that remain. -/
def Kernel.remaining (cfg : Env) (k : Kernel) : List (Nat × Nat) :=
  sums k.delayTick 0 (k.delayed cfg)

/-- From `s` to `s'` the delay of `t` ended. -/
structure Expired (cfg : Env) (s : Kernel) (t : Nat) (s' : Kernel) : Prop where
  state : s'.state t = .READY
  ready : (s'.readyTasks cfg).count t = 1
  tick : s'.delayTick t = INVALID_VALUE
  event : ∀ e, e < cfg.maxEvent → t ∉ s'.waiters cfg e
  flag : t ∉ s'.aside.flagTasks cfg
  others : s'.remaining cfg = without (s.remaining cfg) t

/-- `t` waits for nothing but the end of its delay. -/
def Kernel.OnlyDelayed (k : Kernel) (t : Nat) : Prop :=
  k.eventID t = INVALID_ID ∧ ∀ n, k.pnode t ≠ .node n

/-! ## The lists that a state holds -/

section Lists

variable {cfg : Env} {s : Kernel} {g : Ghost}

theorem Rep.readyTasks_eq (h : Rep cfg s g) : s.readyTasks cfg = g.tcb.lst .rdy :=
  (h.tcb.single .rdy).walk_eq (h.tcb_length .rdy)

theorem Rep.waiters_eq (h : Rep cfg s g) (e : Nat) : s.waiters cfg e = g.evt.lst e :=
  (h.evt.single e).walk_eq (h.evt_length e)

theorem Rep.remaining_eq (h : Rep cfg s g) : s.remaining cfg = g.dly := by
  unfold Kernel.remaining
  rw [h.delayed_eq, h.dly]
  exact h.deltas.sums_eq

end Lists

/-! ## The two ways to end a delay -/

section Ends

variable {cfg : Env} {s s' : Kernel} {g g' : Ghost} {F : List Nat} {t : Nat}

/-- What is left to see once `t` is ready and off the delay list. -/
theorem expired_iff (h : Rep cfg s g) (h' : Rep cfg s' g') (hst : s'.state t = .READY)
    (hloc : g'.tcb.loc t = some .rdy) (htick : s'.delayTick t = INVALID_VALUE)
    (hdly : g'.dly = without g.dly t) : Expired cfg s t s' ↔
      (∀ e, e < cfg.maxEvent → g'.evt.loc t ≠ some e) ∧ t ∉ s'.aside.flagTasks cfg := by
  have hev : ∀ e, t ∈ s'.waiters cfg e ↔ g'.evt.loc t = some e := fun e => by
    rw [h'.waiters_eq e]
    exact h'.evt.mem e t
  refine ⟨fun hx => ⟨fun e he hl => hx.event e he ((hev e).mpr hl), hx.flag⟩, fun hx => ?_⟩
  refine ⟨hst, ?_, htick, fun e he hm => hx.1 e he ((hev e).mp hm), hx.2, ?_⟩
  · rw [h'.readyTasks_eq]
    exact List.count_eq_one_of_mem (h'.tcb.single .rdy).nodup ((h'.tcb.mem .rdy t).mpr hloc)
  · rw [h'.remaining_eq, h.remaining_eq, hdly]

/-- **TimeDispose**: one round ends the delay of the first task, whatever else it waits for. -/
theorem timeDispose_expired (h : Coh cfg s g) (hf : FlagOk cfg s g F) {l : List (Nat × Nat)}
    (hd : g.dly = (t, 0) :: l) :
    ∃ s', (∀ fuel, timeDispose cfg (fuel + 1) s = timeDispose cfg fuel s') ∧
    Expired cfg s t s' := by
  obtain ⟨s', g', h1, h2, h3, h4⟩ := timeDispose_round h hd
  have hself : ∀ {β : Type} (x y : β), (if t ∈ [t] then x else y) = x := fun x y =>
    if_pos (List.mem_singleton_self t)
  have hloc : g'.tcb.loc t = some .rdy := (h4.loc t).trans (hself ..)
  have hlive : Live cfg g' t := ⟨h2.rep.lt t .rdy hloc, by rw [hloc]; exact fun e => nomatch e⟩
  refine ⟨s', h1,
    (expired_iff h.rep h2.rep ((h4.state t).trans (hself ..)) hloc ?_ ?_).mpr ⟨?_, ?_⟩⟩
  · exact (h2.task t hlive).tick (by rw [hloc]; exact fun e => nomatch e)
  · have hnd := h.rep.isDelta.links.nodup
    rw [hd] at hnd
    rw [h3, hd]
    exact (@without_split t [] l 0 hnd).symm
  · intro e he
    rw [(h4.evt t).trans (hself ..)]
    exact fun e => nomatch e
  · -- its node left the list of the flags
    have hl : FlagList s'.aside (F.erase t) := by
      rw [h4.aside]
      exact hf.list.dropFlag t
    rw [hl.tasks (Nat.le_trans (List.length_erase_le) hf.length)]
    exact fun hm => (List.Nodup.mem_erase_iff hf.list.nodup).mp hm |>.1 rfl

/-- The critical section of `CoResetTaskDelayTick`, with 0 ticks. -/
def endDelay (cfg : Env) (s : Kernel) (t : Nat) : Option Kernel :=
  insertToTCBRdyList cfg (removeDelayList (osSchedLock s) t) t

theorem coResetTaskDelayTick_zero (ht : t < cfg.tasks) (hs : s.hasStk t = true)
    (hd : s.delayTick t ≠ INVALID_VALUE) : coResetTaskDelayTick cfg s t 0 =
      (endDelay cfg s t).bind fun s1 => (osSchedUnlock cfg s1).bind fun s2 => some (s2, .E_OK) := by
  unfold coResetTaskDelayTick
  rw [if_neg (Nat.not_le_of_lt ht), if_neg (not_not.mpr hs), if_neg hd]
  rfl

/-- **CoResetTaskDelayTick** with 0 ticks leaves the other list as it is. -/
theorem endDelay_expired (h : Coh cfg s g) (hf : FlagOk cfg s g F)
    (hloc : g.tcb.loc t = some .dly) :
    ∃ s1, endDelay cfg s t = some s1 ∧ (Expired cfg s t s1 ↔ s.OnlyDelayed t) := by
  have hlive : Live cfg g t := ⟨h.rep.lt t .dly hloc, by rw [hloc]; exact fun e => nomatch e⟩
  have h0 : Rep cfg (osSchedLock s) g := h.rep.congr rfl rfl rfl rfl rfl
  obtain ⟨h1, -⟩ := h0.undelay hloc
  have hoff : (g.undelay t).tcb.loc t = none := Function.update_self ..
  obtain ⟨L, T, ct, h2, h3⟩ := h1.mkReady hlive.1 hoff
  have ha : ∀ req, ((removeDelayList (osSchedLock s) t).readied t L T ct req).aside = s.aside :=
    fun req => (readied_aside ..).trans (setDly_aside s ((osSchedLock s).dly.remove t))
  refine ⟨_, h2, (expired_iff h.rep (h3 _) (Function.update_self ..) (Function.update_self ..)
    (Function.update_self ..) rfl).trans (and_congr ?_ ?_)⟩
  · -- the event list is not touched
    change (∀ e, e < cfg.maxEvent → g.evt.loc t ≠ some e) ↔ s.eventID t = INVALID_ID
    rw [← not_ne_iff, h.eventID_iff hlive, not_exists]
    exact ⟨fun hx e he => hx e (h.rep.evLt t e he).2 he, fun hx e _ => hx e⟩
  · rw [ha, hf.tasks]
    exact ⟨fun hm => hf.list.off t hm, fun hx hm => hx t (hf.list.node t hm)⟩

end Ends

/-! ## In runs -/

section Runs

variable {cfg : Env} {i : Idle} {us : List Setup} {m0 m : Sys}

/-- **A delay reset to 0 ends as at its expiry** exactly when its task waits for nothing else. -/
theorem reset_expires (hu : ∀ u ∈ us, u.Valid) (hb : boot cfg i us = some m0)
    (h : Reach cfg (Tame cfg) m0 m) {t : Nat} (ht : t ∈ m.k.delayed cfg) :
    coResetTaskDelayTick cfg.served m.k t 0 =
      ((endDelay cfg.served m.k t).bind fun s1 => (osSchedUnlock cfg.served s1).bind fun s2 =>
        some (s2, .E_OK)) ∧
    ∃ s1, endDelay cfg.served m.k t = some s1 ∧
      (Expired cfg.served m.k t s1 ↔ m.k.OnlyDelayed t) := by
  obtain ⟨g, r, hbt, -⟩ := booted hu hb
  obtain ⟨g, r, F, hi⟩ := h.tame ⟨g, r, [], hbt.inv⟩
  have hc := hi.stable.coh
  have hloc : g.tcb.loc t = some .dly := by
    rw [← hc.rep.tcb.mem .dly t, ← hc.rep.delayed_eq]
    exact ht
  have hlive : Live cfg.served g t :=
    ⟨hc.rep.lt t .dly hloc, by rw [hloc]; exact fun e => nomatch e⟩
  exact ⟨coResetTaskDelayTick_zero hlive.1 (hc.stk t hlive) ((hc.delayTick_iff hlive).mpr hloc),
    endDelay_expired hc hi.flags hloc⟩

theorem reset_expires_shipped : ∃ m0 m s1, boot shippedEnv shippedIdle twoTasks = some m0 ∧
    Reach shippedEnv (Tame shippedEnv) m0 m ∧ m.k.delayed shippedEnv = [2, 1] ∧
    endDelay shippedEnv.served m.k 1 = some s1 ∧ Expired shippedEnv.served m.k 1 s1 := by
  obtain ⟨m0, m, h1, h2, h3⟩ := @ran shippedEnv DelayStep _ shippedIdle twoTasks
    [([], .call (.tickDelay 7)), ([], .call (.tickDelay 4)), ([], .tick)] _
    (fun m => (m.k.delayed shippedEnv, m.k.eventID 1, m.k.pnode 1)) ([2, 1], INVALID_ID, .null)
    (by decide +kernel)
  have hd : m.k.delayed shippedEnv = [2, 1] := congrArg Prod.fst h3
  have he : m.k.eventID 1 = INVALID_ID := congrArg (fun x => x.2.1) h3
  have hp : m.k.pnode 1 = .null := congrArg (fun x => x.2.2) h3
  obtain ⟨-, s1, h4, h5⟩ := reset_expires (by decide) h1 h2.ofTimed (t := 1) (by rw [hd]; decide)
  refine ⟨m0, m, s1, h1, h2.ofTimed, hd, h4, h5.mpr ⟨he, fun n => ?_⟩⟩
  rw [hp]
  exact fun e => nomatch e

/-- A task that waits for a semaphore with a timeout is made ready and keeps waiting for it. -/
theorem reset_keeps_waiting : ∃ m0 m s1, boot shippedEnv shippedIdle twoTasks = some m0 ∧
    Reach shippedEnv (Tame shippedEnv) m0 m ∧ 1 ∈ m.k.delayed shippedEnv ∧
    endDelay shippedEnv.served m.k 1 = some s1 ∧ s1.state 1 = .READY ∧ 1 ∈ s1.waiters shippedEnv 0 ∧
    ¬ Expired shippedEnv.served m.k 1 s1 := by
  obtain ⟨m0, m, h1, h2, h3⟩ := @ran shippedEnv DelayStep _ shippedIdle twoTasks
    [([], .call (.pend .sem 0 3)), ([], .resume)] _
    (fun m => (m.k.delayed shippedEnv, (endDelay shippedEnv.served m.k 1).map fun s =>
      (s.state 1, s.waiters shippedEnv 0))) ([1], some (.READY, [1])) (by decide +kernel)
  have hd : m.k.delayed shippedEnv = [1] := congrArg Prod.fst h3
  obtain ⟨s1, h4, h5⟩ := Option.map_eq_some_iff.mp (congrArg Prod.snd h3)
  have hw : 1 ∈ s1.waiters shippedEnv 0 := by
    rw [show s1.waiters shippedEnv 0 = [1] from congrArg Prod.snd h5]
    decide
  exact ⟨m0, m, s1, h1, h2.ofTimed, by rw [hd]; decide, h4, congrArg Prod.fst h5, hw,
    fun hx => hx.event 0 (by decide) hw⟩

end Runs

end CoOS
