/-
  Start-up leaves all mutexes free, and every priority within its bound; so the runs begin with
  `LockInv`.
-/
import CoOS.Lib.Ensures
import CoOS.Mutex.Run
import CoOS.Run.Boot

namespace CoOS

open Function (update)

/-- Nobody owns a mutex. -/
structure Unheld (cfg : Env) (p : LockPart) : Prop where
  prio : ∀ t, p.prio t ≤ cfg.lowestPrio
  free : ∀ i, p.mutexOccupied i = false
  owner : ∀ i, i < p.MutexFreeID → p.mutexTaskID i = INVALID_ID
  size : p.MutexFreeID ≤ cfg.maxMutex

section Unheld

variable {cfg : Env} {k : Kernel} {g : Ghost} {n : Nat}

theorem Unheld.create (h : Unheld cfg k.aside.lockPart) {p : Nat}
    (hp : p ≤ cfg.lowestPrio) (t : Nat) :
    Unheld cfg ((k.data g).create t p true).aside.lockPart := by
  refine ⟨fun u => ?_, h.free, h.owner, h.size⟩
  change update k.prio t p u ≤ _
  by_cases hu : u = t
  · rw [hu, Function.update_self]
    exact hp
  · rw [Function.update_of_ne hu]
    exact h.prio u

theorem Unheld.create_mutex {k' : Kernel} (h : Unheld cfg k.aside.lockPart)
    (hlt : k.MutexFreeID < cfg.maxMutex)
    (hk : k'.aside.lockPart = { k.aside.lockPart with
      hipriTaskID := update k.hipriTaskID k.MutexFreeID INVALID_ID
      originalPrio := update k.originalPrio k.MutexFreeID 0xff
      mutexOccupied := update k.mutexOccupied k.MutexFreeID false
      mutexTaskID := update k.mutexTaskID k.MutexFreeID INVALID_ID
      MutexFreeID := k.MutexFreeID + 1 }) : Unheld cfg k'.aside.lockPart := by
  rw [hk]
  refine ⟨h.prio, fun i => ?_, fun i hi => ?_, hlt⟩
  · dsimp only
    by_cases hik : i = k.MutexFreeID
    · rw [hik, Function.update_self]
    · rw [Function.update_of_ne hik]
      exact h.free i
  · dsimp only at hi ⊢
    by_cases hik : i = k.MutexFreeID
    · rw [hik, Function.update_self]
    · rw [Function.update_of_ne hik]
      exact h.owner i (show i < k.MutexFreeID by omega)

theorem createTask_unheld (h : Before cfg k g n) (hu : Unheld cfg k.aside.lockPart)
    (task stk parameter : Nat) :
    Ensures (createTask cfg k task stk parameter) fun x => Unheld cfg x.1.aside.lockPart := by
  by_cases hbad : task = 0 ∨ stk = 0 ∨ cfg.lowestPrio < parameter &&& 0xff ∨
      (parameter &&& 0xfff00) >>> 8 < 20
  · rw [show createTask cfg k task stk parameter = some (k, INVALID_ID) from if_pos hbad]
    exact .some hu
  · have hhead : k.FreeTCB = (g.tcb.lst .free).head? := (h.coh.rep.tcb.single .free).head
    cases hl : g.tcb.lst .free with
    | nil =>
      have e : createTask cfg k task stk parameter = some (k, INVALID_ID) := by
        unfold createTask
        dsimp only
        rw [if_neg hbad, assignTCB_locked h.locked h.fresh.req, hhead, hl]
        rfl
      rw [e]
      exact .some hu
    | cons t l =>
      simp only [not_or, Nat.not_lt] at hbad
      obtain ⟨b1, b2, b3, b4⟩ := hbad
      obtain ⟨k', g', e1, e2, -⟩ := createTask_locked h.coh h.locked h.fresh.req b1 b2 b3 b4 hl
      rw [e1]
      refine .some ?_
      rw [e2.aside]
      exact hu.create b3 t

theorem creatEvent_unheld (h : Before cfg k g n) (hu : Unheld cfg k.aside.lockPart) (ty : EventType)
    (sort : Nat)
    (ptr : EventPtr) :
    Ensures (creatEvent cfg k ty sort ptr) fun x => Unheld cfg x.1.aside.lockPart := by
  rw [creatEvent_locked h]
  refine .some ?_
  split
  · exact hu
  · exact hu

/-- The functions of start-up but for `CreateTask` take no notice of tasks and owners. -/
theorem Setup.exec_unheld (h : Before cfg k g n) (hu : Unheld cfg k.aside.lockPart) (u : Setup) :
    Ensures (u.exec cfg k) fun k' => Unheld cfg k'.aside.lockPart := by
  have hnop : ∀ {k1 : Kernel}, k1.IsrReq = k.IsrReq → k1.OSSchedLock = k.OSSchedLock →
      osSchedUnlock cfg (osSchedLock k1) = some k1 := fun e1 e2 =>
    lock_unlock (e1.trans h.fresh.req) (Or.inl (by rw [e2]; exact h.locked))
  cases u with
  | task entry stk parameter => exact Ensures.map (createTask_unheld h hu entry stk parameter)
  | sem initCnt maxCnt sort =>
    refine Ensures.map ?_
    unfold coCreateSem
    refine .ite (fun _ => .some hu) fun _ =>
      Ensures.bind (creatEvent_unheld h hu _ _ _) fun ⟨k1, o⟩ h1 => ?_
    cases o with
    | none => exact .some h1
    | some e => exact .some h1
  | mbox sort =>
    refine Ensures.map ?_
    unfold coCreateMbox
    refine Ensures.bind (creatEvent_unheld h hu _ _ _) fun ⟨k1, o⟩ h1 => ?_
    cases o with
    | none => exact .some h1
    | some e => exact .some h1
  | queue qStart size sort =>
    refine Ensures.map ?_
    by_cases hg : qStart = 0 ∨ size = 0
    · rw [show coCreateQueue cfg k qStart size sort = some (k, INVALID_ID) from if_pos hg]
      exact .some hu
    · rw [coCreateQueue_locked h hg]
      refine .some ?_
      split
      · exact hu
      · split
        · exact hu
        · exact hu
  | flag auto init =>
    refine Ensures.map ?_
    unfold coCreateFlag
    dsimp only
    rw [show (osSchedLock k).flagActive = k.flagActive from rfl]
    cases freeFlag k.flagActive FLAG_MAX_NUM 0 with
    | none =>
      dsimp only
      rw [@hnop k rfl rfl]
      exact .some hu
    | some i =>
      have e := @hnop { k with
        flagActive := k.flagActive ||| flagBit i
        flagRdy := k.flagRdy ||| (BitVec.ofNat 32 init <<< i)
        resetOpt := k.resetOpt ||| (BitVec.ofNat 32 auto <<< i) } rfl rfl
      refine fun x hx => ?_
      have hx := (congrArg (fun o => Option.bind o fun s => some (s, i)) e).symm.trans hx
      rw [← Option.some.inj hx]
      exact hu
  | mutex =>
    refine Ensures.map ?_
    unfold coCreateMutex
    refine .ite (fun hlt => ?_) fun _ => ?_
    · have e := @hnop { k with MutexFreeID := k.MutexFreeID + 1 } rfl rfl
      change Ensures
        ((osSchedUnlock cfg (osSchedLock { k with MutexFreeID := k.MutexFreeID + 1 })).bind _) _
      rw [e]
      exact .some (hu.create_mutex hlt rfl)
    · rw [@hnop k rfl rfl]
      exact .some hu

theorem setUp_unheld (us : List Setup) : ∀ {k : Kernel} {g : Ghost} {n : Nat}, Before cfg k g n →
    Ready0 k g →
    (∀ u ∈ us, u.Valid) → Unheld cfg k.aside.lockPart →
    Ensures (setUp cfg k us) fun k' => Unheld cfg k'.aside.lockPart := by
  induction us with
  | nil => exact fun _ _ _ hu => .some hu
  | cons u us ih =>
    intro k g n h h0 hv hu
    obtain ⟨k1, g1, n1, e1, e2, e3, -⟩ := Setup.exec_makes h h0 (hv u List.mem_cons_self)
    have h1 := Setup.exec_unheld h hu u k1 e1
    unfold setUp
    rw [List.foldlM_cons, e1]
    exact ih e2 e3 (fun v hm => hv v (List.mem_cons_of_mem u hm)) h1

theorem coInitOS_unheld (cfg : Env) (task stk stkSz : Nat) :
    Ensures (coInitOS cfg Kernel.zero task stk stkSz) fun k => Unheld cfg k.aside.lockPart := by
  unfold coInitOS
  refine Ensures.bind (@createTask_unheld cfg (Kernel.start cfg) _ _ (start_before cfg) ?_ _ _ _)
    fun x h => .some h
  exact ⟨fun _ => Nat.zero_le _, fun _ => rfl, fun _ hi => absurd hi (Nat.not_lt_zero _),
    Nat.zero_le _⟩

theorem boot_unheld {m : Sys} {i : Idle} {us : List Setup} (hu : ∀ u ∈ us, u.Valid)
    (hb : boot cfg i us = some m) : Unheld cfg.served m.k.aside.lockPart := by
  obtain ⟨k1, g1, e1, e2, e3, -⟩ := coInitOS_spec cfg.served i
  obtain ⟨k2, g2, n, f1, f2, f3, -⟩ := setUp_makes us e2 e3 hu
  obtain ⟨k3, g3, r, i1, -, i3, -⟩ := coStartOS_spec f2 f3
  have h2 := setUp_unheld us e2 e3 hu (coInitOS_unheld _ _ _ _ k1 e1) k2 f1
  unfold boot at hb
  rw [e1, Option.bind_eq_bind, Option.bind_some, f1, Option.bind_some, i1] at hb
  rw [← Option.some.inj hb]
  change Unheld cfg.served (takeSwitch k3).aside.lockPart
  rw [i3]
  exact h2

/-- Mutexes that nobody owns. -/
theorem Unheld.locks (h : Unheld cfg.served k.aside.lockPart) (hm : NoMutex cfg.served k g)
    (hr : Rep cfg.served k g) (h0 : Live cfg.served g 0) :
    LocksOk cfg.served (k.locks cfg.served g) := by
  have hw : ∀ i, (k.locks cfg.served g).waiters i = [] := fun i =>
    List.eq_nil_iff_forall_not_mem.mpr fun t ht => hm.loc t i ((hr.tcb.mem (.mtx i) t).mp ht)
  have hline : ∀ i, (k.locks cfg.served g).line i = [] := fun i => Locks.line_free (h.free i)
  have hno : ∀ {i : Nat}, (k.locks cfg.served g).a.mutexOccupied i ≠ true := fun {i} ho =>
    absurd ((h.free i).symm.trans ho) Bool.false_ne_true
  refine ⟨⟨fun t ht => Or.inl (hm.id t ht), fun i t => ?_, fun i => ?_, hm.id 0 h0⟩, h.size, h.prio,
    fun i ho => absurd ho hno, fun i _ => ⟨hw i, h.owner i⟩, fun i ho => absurd ho hno⟩
  · rw [hline]
    refine ⟨fun e => absurd e List.not_mem_nil, fun e => ?_⟩
    have h1 : i = INVALID_ID := e.2.1.symm.trans (hm.id t e.1)
    have h2 : i < k.MutexFreeID := e.2.2
    have h3 : k.MutexFreeID ≤ cfg.maxMutex := h.size
    have := cfg.maxMutex_le
    unfold INVALID_ID at h1
    omega
  · rw [hline]
    exact List.nodup_nil

/-- **The runs with mutexes** begin with the invariant. -/
theorem booted_locks {m : Sys} {i : Idle} {us : List Setup} (hord : cfg.orderListScheduleEn = true)
    (hu : ∀ u ∈ us, u.Valid) (hb : boot cfg i us = some m) : ∃ g r, LockInv cfg m g r [] ∧
      m.log = [] ∧ (∀ i, m.k.mutexOccupied i = false) := by
  obtain ⟨g, r, h, hlive⟩ := booted hu hb
  have hun := boot_unheld hu hb
  have h0 : Live cfg.served g 0 := (hlive 0).mpr List.mem_cons_self
  have hi := h.inv
  refine ⟨g, r, ⟨hord, hi.stable, hi.flags, hun.locks hi.noMutex hi.stable.coh.rep h0, hi.cnt,
    hi.head, hi.req,
    hi.time, hi.timer, hi.sort, fun t => (hi.cont t).kept, fun i t ht =>
      ?_, hi.idle⟩, h.log, hun.free⟩
  exact absurd ((hi.stable.coh.rep.tcb.mem (.mtx i) t).mp ht) (hi.noMutex.loc t i)

end Unheld

end CoOS
