/-
  The pool of TCBs: which tasks exist, which id a new task gets, and what becomes of calls on
  tasks that do not exist.

  `CoDelTask`, `CoSuspendTask`, `CoAwakeTask` and `CoSetPriority` recognise a free TCB by its
  state DORMANT. `CreateTCBList` does not write the state of the last TCB, so until its first
  use that TCB passes for a ready task (`Kernel.spareState`).
-/
import CoOS.Run.Coherent

namespace CoOS

open Function (update)
open DList

/-! ## Calls on tasks that do not exist -/

/-- The call names a task that does not exist, and not the last TCB before its first use. -/
def Call.Rejected (cfg : Env) (k : Kernel) : Call → Prop
  | .delTask t | .suspendTask t | .awakeTask t | .setPriority t _ =>
    ¬ k.alive cfg t ∧ (t + 1 = cfg.tasks → k.hasStk t = true)
  | .resetDelay t _ => ¬ k.alive cfg t
  | _ => False

section Rejected

variable {cfg : Env} {k : Kernel} {g : Ghost} {t : Nat}

theorem Coh.free_of_not_alive (h : Coh cfg k g) (hn : ¬ k.alive cfg t) (ht : t < cfg.tasks) :
    g.tcb.loc t = some .free := by
  rw [alive_iff h.rep t] at hn
  exact not_not.mp fun e => hn ⟨ht, e⟩

/-- A free TCB is DORMANT, the last one once it has been used. -/
theorem Coh.dormant_iff (h : Coh cfg k g) (hn : ¬ k.alive cfg t) (ht : t < cfg.tasks) :
    k.state t = .DORMANT ↔ (t + 1 = cfg.tasks → k.hasStk t = true) := by
  rw [(h.free t (h.free_of_not_alive hn ht)).2]
  unfold Kernel.spareState
  split
  · next hs => exact ⟨fun _ e => hs.resolve_left (by omega), fun _ => rfl⟩
  · next hs =>
    refine ⟨(fun e => nomatch e), fun e => absurd ?_ hs⟩
    by_cases hl : t + 1 = cfg.tasks
    · exact Or.inr (e hl)
    · exact Or.inl (by omega)

/-- The four calls on a DORMANT TCB, whatever the state of the kernel. -/
theorem dormant_calls (h0 : t ≠ 0) (hd : t < cfg.tasks → k.state t = .DORMANT) (p : Nat) :
    coDelTask cfg k t = some (k, .E_INVALID_ID) ∧ coSuspendTask cfg k t = some (k, .E_INVALID_ID) ∧
      coAwakeTask cfg k t = some (k, .E_INVALID_ID) ∧
      coSetPriority cfg k t p = some (k, .E_INVALID_ID) := by
  unfold coDelTask coSuspendTask coAwakeTask coSetPriority coSetPriorityN
  by_cases ht : cfg.tasks ≤ t
  · simp only [if_pos ht, if_neg h0, and_self]
  · simp only [if_neg ht, if_neg h0, if_pos (hd (Nat.lt_of_not_le ht)), and_self]

theorem Call.Rejected.exec (h : Stable cfg k g cur) {c : Call} (hc : c.Rejected cfg k) :
    ∃ st, st ≠ .E_OK ∧ c.exec cfg k = some (returned k (0, st)) := by
  have h0 : ∀ {t}, ¬ k.alive cfg t → t ≠ 0 := by
    rintro t hn rfl
    exact hn ((alive_iff h.coh.rep 0).mpr h.idle.live)
  have hfour : ∀ {t}, ¬ k.alive cfg t ∧ (t + 1 = cfg.tasks → k.hasStk t = true) → ∀ p,
      coDelTask cfg k t = some (k, .E_INVALID_ID) ∧
      coSuspendTask cfg k t = some (k, .E_INVALID_ID) ∧
      coAwakeTask cfg k t = some (k, .E_INVALID_ID) ∧
      coSetPriority cfg k t p = some (k, .E_INVALID_ID) := fun hr p =>
    dormant_calls (h0 hr.1) (fun ht => (h.coh.dormant_iff hr.1 ht).mpr hr.2) p
  cases c with
  | delTask t => exact ⟨.E_INVALID_ID, by decide, congrArg (Option.map _) (hfour hc 0).1⟩
  | suspendTask t => exact ⟨.E_INVALID_ID, by decide, congrArg (Option.map _) (hfour hc 0).2.1⟩
  | awakeTask t => exact ⟨.E_INVALID_ID, by decide, congrArg (Option.map _) (hfour hc 0).2.2.1⟩
  | setPriority t p => exact ⟨.E_INVALID_ID, by decide, congrArg (Option.map _) (hfour hc p).2.2.2⟩
  | resetDelay t n =>
    by_cases ht : cfg.tasks ≤ t
    · exact ⟨.E_INVALID_ID, by decide, congrArg (Option.map _) (if_pos ht)⟩
    by_cases hs : k.hasStk t = true
    · have htick := h.coh.spare t (h.coh.free_of_not_alive hc (Nat.lt_of_not_le ht)) hs
      have hres : coResetTaskDelayTick cfg k t n = some (k, .E_NOT_IN_DELAY_LIST) :=
        (if_neg ht).trans ((if_neg (not_not.mpr hs)).trans (if_pos htick))
      exact ⟨.E_NOT_IN_DELAY_LIST, by decide, congrArg (Option.map _) hres⟩
    · exact ⟨.E_INVALID_ID, by decide, congrArg (Option.map _) ((if_neg ht).trans (if_pos hs))⟩
  | _ => exact hc.elim

/-- A rejected call leaves the kernel as it is. -/
theorem Inv.rejected {m m' : Sys} {r : Nat} {F : List Nat} (h : Inv cfg m g r F) {rs : List SQC}
    {c : Call} (hc : c.Rejected cfg m.k) (hs : m.step cfg rs (.call c) = some m') :
    ∃ q st, st ≠ .E_OK ∧ Inv cfg m' g r F ∧
      m' = ⟨{ m.k with IsrReq := false, ServiceReq := q }, m.cont,
        m.log ++ [⟨r, .inl c, some (0, st)⟩]⟩ := by
  obtain ⟨hx, hb⟩ := Option.filter_eq_some_iff.mp hs
  obtain ⟨b, q, hk, hring, -⟩ := @defer_spec cfg.served rs m.k h.ringOk
  rw [hk] at hring
  let k : Kernel := { m.k with IsrReq := b, ServiceReq := q }
  have hst : Stable cfg.served k g r := h.stable.congr rfl rfl rfl
  obtain ⟨st, hne, he⟩ := @Call.Rejected.exec cfg.served k g r hst c hc
  unfold Sys.exec at hx
  rw [h.stable.running, hk] at hx
  dsimp only at hx
  split at hx
  · exact nomatch hx
  · next hrc =>
    have h0 : m.cont r = .none := not_not.mp (not_or.mp hrc).2
    rw [he] at hx
    have hm' : m' = ⟨k, m.cont, m.log ++ [⟨r, .inl c, some (0, st)⟩]⟩ := by
      rw [← Option.some.inj hx]
      unfold Sys.after returned
      dsimp only
      rw [hst.takeSwitch, forget_failed hne, ← h0, Function.update_eq_self]
    have hbf : b = false := by
      rw [hm'] at hb
      exact (Bool.not_eq_true' b).mp hb
    have hcnt : q.cnt = 0 := by
      have := hring.req
      rw [hbf] at this
      exact not_not.mp (of_decide_eq_false this.symm)
    refine ⟨q, st, hne, ?_, ?_⟩
    · rw [hm']
      exact ⟨hst, h.flags.setRing b q, ⟨h.noMutex.id, h.noMutex.loc⟩, hcnt, hring.head, hbf, h.time,
        h.timer, h.sort, h.cont, h.idle⟩
    · rw [hm', ← hbf]

end Rejected

/-! ## Runs with such calls -/

/-- A step of `Fine`, or a call that is rejected. -/
def Tame (cfg : Env) (m : Sys) (rs : List SQC) : Act → Prop
  | .call c => c.Fine cfg m.k rs ∨ c.Rejected cfg m.k
  | _ => True

theorem Inv.tame {cfg : Env} {m m' : Sys} {g : Ghost} {r : Nat} {F : List Nat} (h : Inv cfg m g r F)
    {rs : List SQC} {act : Act} (hok : Tame cfg m rs act) (hs : m.step cfg rs act = some m') :
    ∃ g r F, Inv cfg m' g r F := by
  have hfine : Fine cfg m rs act → ∃ g r F, Inv cfg m' g r F := fun hf => by
    obtain ⟨-, -, -, -, -, -, g', r', F', -, hi⟩ := h.step hf hs
    exact ⟨g', r', F', hi⟩
  cases act with
  | call c =>
    rcases hok with hf | hr
    · exact hfine hf
    · obtain ⟨-, -, -, hi, -⟩ := h.rejected hr hs
      exact ⟨g, r, F, hi⟩
  | resume => exact hfine trivial
  | tick => exact hfine trivial

theorem Reach.tame {cfg : Env} {m0 m : Sys} (h0 : ∃ g r F, Inv cfg m0 g r F)
    (h : Reach cfg (Tame cfg) m0 m) : ∃ g r F, Inv cfg m g r F := by
  induction h with
  | start => exact h0
  | step _ hok hs ih =>
    obtain ⟨g, r, F, hi⟩ := ih
    exact hi.tame hok hs

/-! ## Ids of tasks that do not exist -/

/-- The states after `CoInitOS`: while objects are created, and in the runs that follow. -/
def AfterInit (cfg : Env) (i : Idle) (k : Kernel) : Prop :=
  ∃ us : List Setup, (∀ u ∈ us, u.Valid) ∧ (setUpTo cfg i us = some k ∨
    ∃ m0 m, boot cfg i us = some m0 ∧ Reach cfg (Tame cfg) m0 m ∧ m.k = k)

/-- The four calls reject the id `t` and change nothing. -/
def Rejects (cfg : Env) (k : Kernel) (t : Nat) : Prop :=
  ∀ p, coDelTask cfg k t = some (k, .E_INVALID_ID) ∧
    coSuspendTask cfg k t = some (k, .E_INVALID_ID) ∧
    coAwakeTask cfg k t = some (k, .E_INVALID_ID) ∧
    coSetPriority cfg k t p = some (k, .E_INVALID_ID)

section Missing

variable {cfg : Env} {i : Idle} {k : Kernel} {t : Nat}

theorem AfterInit.coh (h : AfterInit cfg i k) : ∃ g, Coh cfg.served k g := by
  obtain ⟨us, hu, h | ⟨m0, m, hb, hr, rfl⟩⟩ := h
  · obtain ⟨k0, g0, e1, e2, e3, -⟩ := coInitOS_spec cfg.served i
    obtain ⟨k1, g1, n1, f1, f2, -⟩ := setUp_makes us e2 e3 hu
    unfold setUpTo at h
    rw [e1, Option.bind_some, f1] at h
    obtain rfl := Option.some.inj h
    exact ⟨g1, f2.coh⟩
  · obtain ⟨g, r, hbt, -⟩ := booted hu hb
    obtain ⟨g, r, F, hi⟩ := hr.tame ⟨g, r, [], hbt.inv⟩
    exact ⟨g, hi.stable.coh⟩

/-- **Which free ids are rejected**: all but the last one before its first use. -/
theorem missing_rejected (h : AfterInit cfg i k) (h1 : 1 ≤ t) (ht : t ∈ k.freeTasks cfg) :
    Rejects cfg.served k t ↔ (t + 1 = cfg.tasks → k.hasStk t = true) := by
  obtain ⟨g, hc⟩ := h.coh
  have hn : ¬ k.alive cfg.served t := fun e => e.2 ht
  have hlt : t < cfg.tasks := by
    have hw : k.freeTasks cfg = g.tcb.lst .free :=
      (hc.rep.tcb.single .free).walk_eq (hc.rep.tcb_length .free)
    rw [hw] at ht
    exact hc.rep.lt t .free ((hc.rep.tcb.mem .free t).mp ht)
  have h0 : t ≠ 0 := Nat.ne_of_gt h1
  refine Iff.trans ⟨fun hr => ?_, fun hd => dormant_calls h0 fun _ => hd⟩ (hc.dormant_iff hn hlt)
  -- `CoAwakeTask` says E_INVALID_ID to a DORMANT task only
  by_contra hd
  have hw : k.state t ≠ .WAITING := by
    rw [(hc.free t (hc.free_of_not_alive hn hlt)).2]
    unfold Kernel.spareState
    split
    · exact fun e => nomatch e
    · exact fun e => nomatch e
  have hawake := (hr 0).2.2.1
  unfold coAwakeTask at hawake
  rw [if_neg h0, if_neg (show ¬ cfg.served.tasks ≤ t from Nat.not_le_of_lt hlt), if_neg hd,
    if_pos hw] at hawake
  exact nomatch (Prod.mk.inj (Option.some.inj hawake)).2

theorem missing_rejected_shipped : ∃ m0, boot shippedEnv shippedIdle [.plainTask 5] = some m0 ∧
    4 ∈ m0.k.freeTasks shippedEnv ∧ Rejects shippedEnv.served m0.k 4 := by
  have h : ((boot shippedEnv shippedIdle [.plainTask 5]).map fun m => m.k.freeTasks shippedEnv) =
      some [2, 3, 4, 5] := by decide +kernel
  obtain ⟨m0, hm, hf⟩ := Option.map_eq_some_iff.mp h
  have hu : ∀ u ∈ [Setup.plainTask 5], u.Valid := by decide
  have ht : 4 ∈ m0.k.freeTasks shippedEnv := by
    rw [hf]
    decide
  exact ⟨m0, hm, ht, (missing_rejected ⟨_, hu, Or.inr ⟨m0, m0, hm, .start, rfl⟩⟩ (by decide) ht).mpr
    fun e => absurd e (by decide)⟩

/-- The last TCB has never been used: it is deleted, and not rejected. -/
theorem last_tcb_deleted : ∃ m0, boot shippedEnv shippedIdle [.plainTask 5] = some m0 ∧
    AfterInit shippedEnv shippedIdle m0.k ∧ 5 ∈ m0.k.freeTasks shippedEnv ∧
    (coDelTask shippedEnv.served m0.k 5).map Prod.snd = some .E_OK ∧
    ¬ Rejects shippedEnv.served m0.k 5 := by
  have h : ((boot shippedEnv shippedIdle [.plainTask 5]).map fun m =>
      (m.k.freeTasks shippedEnv, (coDelTask shippedEnv.served m.k 5).map Prod.snd)) =
      some ([2, 3, 4, 5], some .E_OK) := by decide +kernel
  obtain ⟨m0, hm, hf⟩ := Option.map_eq_some_iff.mp h
  have hu : ∀ u ∈ [Setup.plainTask 5], u.Valid := by decide
  refine ⟨m0, hm, ⟨_, hu, Or.inr ⟨m0, m0, hm, .start, rfl⟩⟩, ?_, congrArg Prod.snd hf, fun hr => ?_⟩
  · rw [show m0.k.freeTasks shippedEnv = [2, 3, 4, 5] from congrArg Prod.fst hf]
    decide
  · have hd := congrArg Prod.snd hf
    rw [show coDelTask shippedEnv.served m0.k 5 = _ from (hr 0).1] at hd
    exact nomatch Option.some.inj hd

end Missing

/-! ## The tasks that exist -/

/-- The tasks after a section, `l` before it. -/
def Entry.tasks (en : Entry) (l : List Nat) : List Nat :=
  match en.op, en.ret with
  | .inl (.createTask _ _ _), some (i, _) => newTask i ++ l
  | .inl (.delTask t), some (_, .E_OK) => l.filter (· ≠ t)
  | .inl .exitTask, some (_, .E_OK) => l.filter (· ≠ en.task)
  | _, _ => l

/-- The tasks that have been created and not deleted, `l` at the start of the run. -/
def Sys.tasks (m : Sys) (l : List Nat) : List Nat := m.log.foldl (fun l en => en.tasks l) l

/-- The tasks of `l` exist, and the log tells what became of them. -/
def Known (l : List Nat) (a : Abs) : Prop :=
  ∀ t, a.alive t ↔ t ∈ a.log.foldl (fun l en => en.tasks l) l

section Known

variable {cfg : Env} {a : Abs} {r : Nat} {x : Out} {l : List Nat}

theorem mem_without {t u : Nat} : u ∈ l.filter (· ≠ t) ↔ u ≠ t ∧ u ∈ l := by
  rw [List.mem_filter, decide_eq_true_iff]
  exact and_comm

theorem newTask_of_lt {i : Nat} (h : i < cfg.tasks) : newTask i = [i] := by
  have := cfg.maxUserTasks_le
  unfold Config.tasks at h
  unfold newTask INVALID_ID
  exact if_neg (by omega)

/-- A call other than those that make and end tasks. -/
theorem Call.Does.alive {c : Call} (hx : c.Does cfg a r x) (he : c.ends r = none)
    (hc : ∀ u v w, c ≠ .createTask u v w) : x.alive = a.alive := by
  by_cases hq : c.quiet = true
  · exact (hx.quiet hq).2.1
  cases c with
  | createTask u v w => exact absurd rfl (hc u v w)
  | delTask t => exact nomatch he
  | exitTask => exact nomatch he
  | setPriority t p =>
    obtain ⟨st, ⟨rfl, -⟩ | ⟨rfl, -⟩⟩ := hx
    · rfl
    · rfl
  | accept k id =>
    obtain rfl := hx
    rfl
  | pend k id n =>
    obtain rfl := hx
    split
    · rfl
    · rfl
  | post k id v =>
    obtain rfl := hx
    rfl
  | enterMutex i => exact hx.elim
  | leaveMutex i => exact hx.elim
  | _ => exact absurd rfl hq

theorem tasks_failed {op : Call ⊕ Cont} {v : Nat} {st : StatusType} (h : st ≠ .E_OK)
    (hop : ∀ x y z, op ≠ .inl (.createTask x y z)) : Entry.tasks ⟨r, op, some (v, st)⟩ l = l := by
  unfold Entry.tasks
  split
  · next e _ => exact absurd e (hop _ _ _)
  · next e => exact absurd (congrArg Prod.snd (Option.some.inj e)) h
  · next e => exact absurd (congrArg Prod.snd (Option.some.inj e)) h
  · rfl

theorem Abs.Deletes.tasks {t : Nat} {op : Call ⊕ Cont} (hx : a.Deletes t x)
    (hop : ∀ v, Entry.tasks ⟨r, op, some (v, .E_OK)⟩ l = l.filter (· ≠ t))
    (hno : ∀ v st, st ≠ .E_OK → Entry.tasks ⟨r, op, some (v, st)⟩ l = l)
    (h : ∀ u, a.alive u ↔ u ∈ l) (u : Nat) : x.alive u ↔ u ∈ Entry.tasks ⟨r, op, x.ret⟩ l := by
  obtain ⟨st, hst, rfl⟩ | rfl := hx
  · change a.alive u ↔ u ∈ Entry.tasks ⟨r, op, some (0, st)⟩ l
    rw [hno 0 st hst]
    exact h u
  · change u ≠ t ∧ a.alive u ↔ u ∈ Entry.tasks ⟨r, op, some (0, .E_OK)⟩ l
    rw [hop 0, mem_without, h u]

theorem Call.Does.tasks {c : Call} (hx : c.Does cfg a r x) (h : ∀ u, a.alive u ↔ u ∈ l) (u : Nat) :
    x.alive u ↔ u ∈ Entry.tasks ⟨r, .inl c, x.ret⟩ l := by
  cases c with
  | createTask task stk parameter =>
    obtain rfl | ⟨i, p, w, hi, -, rfl⟩ := hx
    · exact h u
    · change u = i ∨ a.alive u ↔ u ∈ newTask i ++ l
      rw [newTask_of_lt hi, List.mem_append, List.mem_singleton, h u]
  | delTask t =>
    exact Abs.Deletes.tasks hx (fun v => rfl) (fun v st hst => tasks_failed hst fun _ _ _ e => by
      cases e) h u
  | exitTask =>
    exact Abs.Deletes.tasks hx (fun v => rfl) (fun v st hst => tasks_failed hst fun _ _ _ e => by
      cases e) h u
  | _ =>
    rw [hx.alive rfl fun _ _ _ e => nomatch e]
    exact h u

theorem known_keeps (ok : Sys → List SQC → Act → Prop) (l : List Nat) :
    Keeps cfg ok (fun _ => True) (Known l) := by
  refine ⟨fun b q h => h, fun c _ h _ => h, fun _ _ _ h hm => ?_⟩
  cases hm with
  | call hr h0 hx =>
    intro u
    unfold Abs.after
    rw [List.foldl_append]
    exact hx.tasks h u
  | @resume x h0 hx =>
    intro u
    unfold Abs.after
    rw [List.foldl_append]
    change x.alive u ↔ u ∈ List.foldl _ l _
    rw [hx.fixed.2]
    exact h u
  | tick hT => exact h

end Known

/-! ## The pool -/

/-- A TCB that is linked nowhere and waits for nothing. -/
structure CleanTCB (k : Kernel) (t : Nat) : Prop where
  next : k.TCBnext t = none
  prev : k.TCBprev t = none
  waitNext : k.waitNext t = none
  waitPrev : k.waitPrev t = none
  delay : k.delayTick t = INVALID_VALUE
  event : k.eventID t = INVALID_ID
  node : k.pnode t = .null

/-- The parameters that `CreateTask` accepts. -/
structure ValidTask (cfg : Env) (task stk parameter : Nat) : Prop where
  task : task ≠ 0
  stk : stk ≠ 0
  prio : parameter &&& 0xff ≤ cfg.lowestPrio
  size : 20 ≤ (parameter &&& 0xfff00) >>> 8

/-- `CreateTask` when the tasks of `l` exist. -/
structure Creates (cfg : Env) (k : Kernel) (l : List Nat) (task stk parameter : Nat) : Prop where
  returns : ∃ k' i, createTask cfg k task stk parameter = some (k', i)
  fails : (createTask cfg k task stk parameter).map Prod.snd = some INVALID_ID ↔
    ∀ t, t < cfg.tasks → t ∈ l
  fresh : ∀ k' i, createTask cfg k task stk parameter = some (k', i) → i ≠ INVALID_ID →
    i < cfg.tasks ∧ i ∉ l ∧
      ∃ k1, CleanTCB k1 i ∧ createTask cfg k task stk parameter = startTask cfg k1 i parameter

/-- The free list holds the TCBs of the tasks that do not exist, each once. -/
def FreeChain (cfg : Env) (k : Kernel) (l : List Nat) : Prop :=
  ∃ f, IsSList k.FreeTCB k.TCBnext f ∧ ∀ t, t ∈ f ↔ t < cfg.tasks ∧ t ∉ l

section Pool

variable {cfg : Env} {k : Kernel} {g : Ghost} {r : Nat} {l : List Nat}

theorem Coh.freeChain (h : Coh cfg k g) (hl : ∀ t, Live cfg g t ↔ t ∈ l) : FreeChain cfg k l := by
  refine ⟨g.tcb.lst .free, h.rep.tcb.single .free, fun t => ?_⟩
  rw [h.rep.tcb.mem .free t, ← hl t]
  refine ⟨fun e => ⟨h.rep.lt t .free e, fun hn => hn.2 e⟩, fun e => ?_⟩
  exact not_not.mp fun hn => e.2 ⟨e.1, hn⟩

theorem Stable.createTask_some (h : Stable cfg k g r) (hr : r ≠ 0) (hi : k.IsrReq = false)
    (task stk parameter : Nat) : ∃ k' i, createTask cfg k task stk parameter = some (k', i) := by
  rcases createTask_ends h hr hi task stk parameter
    with ⟨k', g', i, e, -⟩ | ⟨k1, g1, i, d, e, hb, hq⟩
  · exact ⟨k', i, e⟩
  · have hd : d.aside.IsrReq = false := by
      rcases hq with ⟨rfl, -⟩ | ⟨p, w, -, -, rfl⟩
      · exact hi
      · exact hi
    obtain ⟨k', g', r', e1, -⟩ := hb.finish h.lock hd
    exact ⟨k', i, by rw [e, e1]; rfl⟩

theorem Stable.creates (h : Stable cfg k g r) (hr : r ≠ 0) (hi : k.IsrReq = false)
    (hl : ∀ t, Live cfg g t ↔ t ∈ l) {task stk parameter : Nat}
    (hv : ValidTask cfg task stk parameter) :
    Creates cfg k l task stk parameter := by
  have hp : parameter &&& 0xff < 256 := Nat.lt_succ_of_le Nat.and_le_right
  have hbad : ¬ (task = 0 ∨ stk = 0 ∨ cfg.lowestPrio < parameter &&& 0xff ∨
      (parameter &&& 0xfff00) >>> 8 < 20) := by
    rintro (e | e | e | e)
    · exact hv.task e
    · exact hv.stk e
    · exact absurd hv.prio (Nat.not_le_of_lt e)
    · exact absurd hv.size (Nat.not_le_of_lt e)
  have hhead : k.FreeTCB = (g.tcb.lst .free).head? := (h.coh.rep.tcb.single .free).head
  cases hf : g.tcb.lst .free with
  | nil =>
    have hres : createTask cfg k task stk parameter = some (k, INVALID_ID) := by
      rw [createTask_eq h hr hi, if_neg hbad, hhead, hf]
      rfl
    refine ⟨⟨k, _, hres⟩, ⟨fun _ t ht => (hl t).mp ⟨ht, fun e => ?_⟩, fun _ => by rw [hres]; rfl⟩,
      fun k' i e hne => ?_⟩
    · have := (h.coh.rep.tcb.mem .free t).mpr e
      rw [hf] at this
      exact List.not_mem_nil this
    · rw [hres] at e
      exact absurd (congrArg Prod.snd (Option.some.inj e)).symm hne
  | cons t f =>
    obtain ⟨T, h1, -, -, -, -, -, h7⟩ := @Stable.alloc cfg k g r t h f hf (parameter &&& 0xff)
      (newSlice cfg parameter) hp
    let k1 := (k.assigned t (parameter &&& 0xff) (newSlice cfg parameter)).setPriTable T
    have hres : createTask cfg k task stk parameter = startTask cfg k1 t parameter := by
      rw [createTask_eq h hr hi, if_neg hbad, hhead, hf]
      exact congrArg (fun o => Option.bind o _) h1
    obtain ⟨k', i, e⟩ := h.createTask_some hr hi task stk parameter
    have hit : i = t := by
      rw [hres] at e
      unfold startTask at e
      split at e
      · obtain ⟨k2, -, e⟩ := Option.bind_eq_some_iff.mp e
        obtain ⟨k3, -, e⟩ := Option.bind_eq_some_iff.mp e
        exact (congrArg Prod.snd (Option.some.inj e)).symm
      · exact (congrArg Prod.snd (Option.some.inj e)).symm
    subst hit
    have hlt := h.coh.rep.lt i .free h7
    have hnl : i ∉ l := fun hm => ((hl i).mpr hm).2 h7
    have hclean : CleanTCB k1 i := by
      refine ⟨?_, ?_, ?_, ?_, ?_, ?_, ?_⟩ <;> exact Function.update_self ..
    have hne : i ≠ INVALID_ID := by
      have h2 := cfg.maxUserTasks_le
      unfold Config.tasks at hlt
      unfold INVALID_ID
      omega
    refine ⟨⟨k', i, e⟩, ⟨fun hx => ?_, fun hx => absurd (hx i hlt) hnl⟩, fun k'' j ej _ => ?_⟩
    · rw [e] at hx
      exact absurd (Option.some.inj hx) hne
    · rw [e] at ej
      obtain rfl : i = j := congrArg Prod.snd (Option.some.inj ej)
      exact ⟨hlt, hnl, k1, hclean, hres⟩

end Pool

/-- Calls that make, end, suspend and awake tasks of `l`, delay the caller, and use
    semaphores. -/
def Call.Pool (l : List Nat) : Call → Prop
  | .createTask .. | .exitTask | .tickDelay _ => True
  | .delTask t | .suspendTask t | .awakeTask t => t ∈ l
  | .accept kd _ | .post kd _ _ | .pend kd _ _ => kd = .sem
  | _ => False

instance (l : List Nat) (c : Call) : Decidable (c.Pool l) :=
  match c with
  | .createTask .. | .exitTask | .tickDelay _ => inferInstanceAs (Decidable True)
  | .delTask t | .suspendTask t | .awakeTask t => inferInstanceAs (Decidable (t ∈ l))
  | .accept kd _ | .post kd _ _ | .pend kd _ _ => inferInstanceAs (Decidable (kd = .sem))
  | .setPriority .. | .resetDelay .. | .createFlag .. | .delFlag .. | .setFlag _ | .clearFlag _
  | .acceptFlag _ | .acceptFlags .. | .waitFlag .. | .waitFlags .. | .enterMutex _
  | .leaveMutex _ =>
    inferInstanceAs (Decidable False)

/-- Such a call, the rest of one, or a tick; `l` are the tasks at the start of the run. -/
def PoolStep (l : List Nat) (m : Sys) (rs : List SQC) : Act → Prop
  | .call c => rs = [] ∧ c.Pool (m.tasks l)
  | _ => rs = []

instance (l : List Nat) (m : Sys) (rs : List SQC) (a : Act) : Decidable (PoolStep l m rs a) :=
  match a with
  | .call _ => inferInstanceAs (Decidable (_ ∧ _))
  | .resume | .tick => inferInstanceAs (Decidable (_ = _))

/-- Delays and timeouts are below `2^31`. -/
def Act.Short : Act → Prop
  | .call (.tickDelay n) | .call (.resetDelay _ n) | .call (.pend _ _ n) | .call (.waitFlag _ n)
  | .call (.waitFlags _ _ n) => n < 2 ^ 31
  | _ => True

instance (a : Act) : Decidable a.Short :=
  match a with
  | .call (.tickDelay n) | .call (.resetDelay _ n) | .call (.pend _ _ n) | .call (.waitFlag _ n)
  | .call (.waitFlags _ _ n) => inferInstanceAs (Decidable (n < 2 ^ 31))
  | .call (.createTask ..) | .call (.delTask _) | .call .exitTask | .call (.suspendTask _)
  | .call (.awakeTask _) | .call (.setPriority ..) | .call (.accept ..) | .call (.post ..)
  | .call (.createFlag ..) | .call (.delFlag ..) | .call (.setFlag _) | .call (.clearFlag _)
  | .call (.acceptFlag _) | .call (.acceptFlags ..) | .call (.enterMutex _) | .call (.leaveMutex _)
  | .resume | .tick => inferInstanceAs (Decidable True)

section PoolRuns

variable {cfg : Env} {i : Idle} {us : List Setup} {m0 m : Sys}

theorem PoolStep.fine {l : List Nat} {rs : List SQC} {act : Act} (h : PoolStep l m rs act)
    (hs : act.Short) (hl : ∀ t, t ∈ m.tasks l → m.k.alive cfg t) : Fine cfg m rs act := by
  cases act with
  | call c =>
    obtain ⟨hrs, h⟩ := h
    have hsem : ∀ {kd : EventType}, kd = .sem → kd ≠ .invalid := by
      rintro kd rfl
      decide
    cases c with
    | createTask task stk parameter => exact hrs
    | delTask t => exact hl t h
    | exitTask => trivial
    | suspendTask t => exact hl t h
    | awakeTask t => exact hl t h
    | tickDelay n => exact hs
    | accept kd id => exact hsem h
    | pend kd id n => exact ⟨hsem h, hs⟩
    | post kd id v => exact hsem h
    | _ => exact h.elim
  | resume => trivial
  | tick => trivial

theorem Reach.known (hu : ∀ u ∈ us, u.Valid) (hb : boot cfg i us = some m0)
    (h : Reach cfg (fun m rs a => PoolStep (bootTasks cfg i us) m rs a ∧ a.Short) m0 m) :
    ∃ g r F, Inv cfg m g r F ∧ Known (bootTasks cfg i us) (m.abs cfg.served g) := by
  induction h with
  | start =>
    obtain ⟨g, r, hbt, hl⟩ := booted hu hb
    refine ⟨g, r, [], hbt.inv, fun t => ?_⟩
    change Live cfg.served g t ↔ t ∈ List.foldl _ _ m0.log
    rw [hbt.log]
    exact hl t
  | step _ hok hs ih =>
    obtain ⟨g, r, F, hi, hk⟩ := ih
    refine (known_keeps (fun _ _ _ => True) _).step hi hk trivial
      (hok.1.fine hok.2 fun t ht => ?_) hs
    exact (alive_iff hi.stable.coh.rep t).mpr ((hk t).mpr ht)

/-- Two tasks and a semaphore. -/
def twoTasks : List Setup := [.plainTask 5, .plainTask 10, .sem 0 1 sortFifo]

end PoolRuns

end CoOS
