/-
  What is left behind when the scheduler is unlocked.

  `RespondSRQ` looks at the time request, the timer request and the queue one after the other, and
  clears `IsrReq` for the queue alone; `OsSchedUnlock` looks at `IsrReq` once. A request that comes
  after its kind was looked at (`Timely` excludes it) stays, and when it is a time or a timer
  request, `IsrReq` does not tell of it. Requests that come before are all served.

  `Reqs` are the columns in question. Each statement and each interrupt is described by what it
  does to them; `Stmt.Ok` is the invariant, statement by statement.
-/
import CoOS.Kernel.Unlock
import CoOS.Run.Boot

namespace CoOS

open Function (update)

structure Reqs where
  IsrReq : Bool
  TimeReq : Bool
  TimerReq : Bool
  cnt : Nat
  lock : Nat
  nest : Nat

def Kernel.reqs (k : Kernel) : Reqs where
  IsrReq := k.IsrReq
  TimeReq := k.TimeReq
  TimerReq := k.TimerReq
  cnt := k.ServiceReq.cnt
  lock := k.OSSchedLock
  nest := k.OSIntNesting

/-- Something was deferred. -/
def Reqs.Pending (v : Reqs) : Prop := v.cnt ≠ 0 ∨ v.TimeReq = true ∨ v.TimerReq = true

/-- Nothing is deferred, and `IsrReq` says so. -/
structure Reqs.Clean (v : Reqs) : Prop where
  isr : v.IsrReq = false
  time : v.TimeReq = false
  timer : v.TimerReq = false
  cnt : v.cnt = 0

/-- Only posts were deferred between `v` and `v'`. -/
structure Reqs.Posted (v v' : Reqs) : Prop where
  time : v'.TimeReq = v.TimeReq
  timer : v'.TimerReq = v.TimerReq
  lock : v'.lock = v.lock
  nest : v'.nest = v.nest
  isr : v'.IsrReq = true ∨ (v'.IsrReq = v.IsrReq ∧ v'.cnt = v.cnt)

theorem Reqs.Clean.not_pending {v : Reqs} (h : v.Clean) : ¬ v.Pending := by
  rintro (e | e | e)
  · exact e h.cnt
  · rw [h.time] at e
    exact nomatch e
  · rw [h.timer] at e
    exact nomatch e

theorem Reqs.Posted.refl (v : Reqs) : v.Posted v := ⟨rfl, rfl, rfl, rfl, Or.inr ⟨rfl, rfl⟩⟩

theorem Reqs.Posted.trans {v v' v'' : Reqs} (h : v.Posted v') (h' : v'.Posted v'') :
    v.Posted v'' := by
  refine ⟨h'.time.trans h.time, h'.timer.trans h.timer, h'.lock.trans h.lock,
    h'.nest.trans h.nest, ?_⟩
  rcases h'.isr with e' | e'
  · exact Or.inl e'
  · rcases h.isr with e | e
    · exact Or.inl (e'.1.trans e)
    · exact Or.inr ⟨e'.1.trans e.1, e'.2.trans e.2⟩

/-! ## The functions that the statements call -/

section Calls

variable {cfg : Env} {k k' : Kernel}

theorem reqs_of_frame (h : k'.frame = k.frame) : k'.reqs = k.reqs :=
  congrArg (fun v : Frame => Reqs.mk v.IsrReq v.TimeReq v.TimerReq v.ServiceReq.cnt v.OSSchedLock
    v.OSIntNesting) h

theorem timeDispose_reqs (n : Nat) (k : Kernel) :
    Ensures (timeDispose cfg n k) fun k' => k'.reqs = k.reqs :=
  (timeDispose_frame cfg n rfl).imp fun _ e => reqs_of_frame e

theorem schedule_reqs (k : Kernel) : Ensures (schedule cfg k) fun k' => k'.reqs = k.reqs :=
  (schedule_frame cfg rfl).imp fun _ e => reqs_of_frame e

theorem serve_reqs (hl : 0 < k.OSSchedLock) (c : SQC) :
    Ensures (serve cfg k c) fun x => x.1.reqs = k.reqs :=
  (serve_frame cfg c rfl hl).imp fun _ e => reqs_of_frame e

/-- The loop of `RespondSRQ`, with nothing in between. -/
theorem serveLoop_reqs (n : Nat) : ∀ {k : Kernel}, 0 < k.OSSchedLock →
    Ensures (serveLoop cfg n k) fun k' => k'.reqs = { k.reqs with cnt := 0 } := by
  have hend : ∀ {k : Kernel}, k.ServiceReq.cnt = 0 → k.reqs = { k.reqs with cnt := 0 } := by
    intro k hc
    exact congrArg (fun n => { k.reqs with cnt := n }) hc
  induction n with
  | zero =>
    intro k _
    unfold serveLoop
    exact .ite (fun hc => .some (hend hc)) fun _ => .none
  | succ n ih =>
    intro k hl
    unfold serveLoop
    refine .ite (fun hc => .some (hend hc)) fun _ => ?_
    let q := k.ServiceReq
    let k1 : Kernel := { k with ServiceReq := { q with
      head := (q.head + 1) % cfg.maxServiceRequest, cnt := q.cnt - 1 } }
    refine Ensures.bind (serve_reqs (k := k1) hl _) fun x hx => ?_
    have hl2 : 0 < x.1.OSSchedLock := Nat.lt_of_lt_of_eq hl (congrArg Reqs.lock hx).symm
    refine (ih hl2).imp fun k2 e => e.trans ?_
    exact congrArg (fun v : Reqs => { v with cnt := 0 }) hx

/-- `RespondSRQ` when only posts were deferred. -/
theorem respondSRQ_reqs (hl : 0 < k.OSSchedLock) (ht : k.TimeReq = false)
    (hr : k.TimerReq = false) :
    Ensures (respondSRQ cfg k) fun k' => k'.reqs = { k.reqs with IsrReq := false, cnt := 0 } := by
  have h1 : respondTime cfg k = some k := if_neg (by rw [ht]; decide)
  have h2 : respondTimer cfg k = some k := if_neg (by rw [hr]; decide)
  rw [respondSRQ_parts, h1, Option.bind_some, h2, Option.bind_some]
  refine Ensures.map ((serveLoop_reqs _ hl).imp fun k1 e1 => ?_)
  have hc : k1.ServiceReq.cnt = 0 := congrArg Reqs.cnt e1
  unfold endRespond
  rw [if_pos hc]
  exact congrArg (fun v : Reqs => { v with IsrReq := false }) e1

/-- `OsSchedUnlock` when only posts were deferred. -/
theorem unlock_reqs (hl : k.OSSchedLock = 1) (ht : k.TimeReq = false) (hr : k.TimerReq = false)
    (hp : k.reqs.Pending → k.IsrReq = true) :
    Ensures (osSchedUnlock cfg.served k) fun k' =>
      k'.reqs = ⟨false, false, false, 0, 0, k.OSIntNesting⟩ := by
  have hlast : ∀ {s : Kernel}, s.reqs = ⟨false, false, false, 0, 1, k.OSIntNesting⟩ →
      Ensures ((if s.TaskSchedReq then schedule cfg.served s else some s).map fun s =>
        { s with OSSchedLock := 0 }) fun k' =>
          k'.reqs = ⟨false, false, false, 0, 0, k.OSIntNesting⟩ := by
    intro s hs
    refine Ensures.map (Ensures.imp (P := fun s' => s'.reqs = s.reqs) ?_ fun s' e => ?_)
    · exact .ite (fun _ => schedule_reqs s) fun _ => .some rfl
    · exact congrArg (fun v : Reqs => { v with lock := 0 }) (e.trans hs)
  rw [osSchedUnlock_parts, if_pos hl]
  have hdrain : Ensures (if k.IsrReq then cfg.served.respondSRQ k else some k) fun s =>
      s.reqs = ⟨false, false, false, 0, 1, k.OSIntNesting⟩ := by
    refine .ite (fun _ => ?_) fun hi => .some ?_
    · refine (respondSRQ_reqs (by omega) ht hr).imp fun s e => e.trans ?_
      unfold Kernel.reqs
      rw [ht, hr, hl]
    · have hno : ¬ k.reqs.Pending := fun e => hi (hp e)
      have hc : k.ServiceReq.cnt = 0 := not_not.mp fun e => hno (Or.inl e)
      unfold Kernel.reqs
      rw [ht, hr, hl, hc, (Bool.not_eq_true _).mp hi]
  exact Ensures.bind hdrain fun s hs => hlast hs

end Calls

/-! ## Timer callbacks -/

/-- The callbacks of the application defer posts, at most. -/
def Posting (cfg : Env) : Prop :=
  ∀ f k k', cfg.runCallBack f k = some k' → ∃ rs, k'.reqs = (k.defer cfg rs).reqs

section Timers

variable {cfg : Env} {k : Kernel}

theorem insertInSRQ_posted (cfg : Env) (k : Kernel) (ty : ReqType) (id arg : Nat) :
    k.reqs.Posted (insertInSRQ cfg k ty id arg).1.reqs := by
  unfold insertInSRQ
  dsimp only
  split
  · exact .refl _
  · exact ⟨rfl, rfl, rfl, rfl, Or.inl rfl⟩

theorem defer_posted (cfg : Env) (rs : List SQC) :
    ∀ k : Kernel, k.reqs.Posted (k.defer cfg rs).reqs := by
  induction rs with
  | nil => exact fun k => .refl _
  | cons c rs ih => exact fun k => (insertInSRQ_posted cfg k ..).trans (ih _)

/-- The functions of the timer list lock the scheduler once more. -/
theorem unlock_nested_reqs (hl : 0 < k.OSSchedLock) {s : Kernel}
    (hs : s.reqs = (osSchedLock k).reqs) :
    Ensures (osSchedUnlock cfg s) fun k' => k'.reqs = k.reqs := by
  have h1 : s.OSSchedLock = k.OSSchedLock + 1 := congrArg Reqs.lock hs
  rw [osSchedUnlock_nested cfg (by omega)]
  refine .some ?_
  change { s.reqs with lock := s.OSSchedLock - 1 } = k.reqs
  rw [hs, h1]
  rfl

theorem removeTmrList_reqs (hl : 0 < k.OSSchedLock) (t : Nat) :
    Ensures (removeTmrList cfg k t) fun k' => k'.reqs = k.reqs := unlock_nested_reqs hl rfl

theorem insertTmrList_reqs (hl : 0 < k.OSSchedLock) (t : Nat) :
    Ensures (insertTmrList cfg k t) fun k' => k'.reqs = k.reqs := by
  unfold CoOS.insertTmrList
  refine .ite (fun _ => .some rfl) fun _ => ?_
  exact Ensures.skip fun _ => unlock_nested_reqs hl rfl

theorem callBack_posted (hcb : Posting cfg) (t : Nat) :
    Ensures (callBack cfg k t) fun k' => k.reqs.Posted k'.reqs := by
  intro k' e
  obtain ⟨rs, e1⟩ := hcb _ _ _ e
  rw [e1]
  exact defer_posted cfg rs { k with callBacks := k.callBacks ++ [(t, k.OSTickCnt)] }

theorem fireTmr_posted (hcb : Posting cfg) (hl : 0 < k.OSSchedLock) (t : Nat) :
    Ensures (fireTmr cfg k t) fun k' => k.reqs.Posted k'.reqs := by
  unfold CoOS.fireTmr
  refine .ite (fun _ => ?_) fun _ => ?_
  · refine Ensures.bind (removeTmrList_reqs hl t) fun s1 h1 => ?_
    let s2 : Kernel := { s1 with tmr := { s1.tmr with
      tmrCnt := update s1.tmr.tmrCnt t (s1.tmr.tmrReload t) } }
    have hl2 : 0 < s2.OSSchedLock := Nat.lt_of_lt_of_eq hl (congrArg Reqs.lock h1).symm
    refine Ensures.bind (insertTmrList_reqs (k := s2) hl2 t) fun s3 h3 => ?_
    refine (callBack_posted hcb t).imp fun k' e => ?_
    rw [← h1]
    rw [h3] at e
    exact e
  · refine Ensures.bind (removeTmrList_reqs hl t) fun s1 h1 => ?_
    refine (callBack_posted (k := stopTmr s1 t) hcb t).imp fun k' e => ?_
    rw [← h1]
    exact e

theorem tmrDispose_posted (hcb : Posting cfg) (n : Nat) : ∀ {k : Kernel}, 0 < k.OSSchedLock →
    Ensures (tmrDispose cfg n k) fun k' => k.reqs.Posted k'.reqs := by
  induction n with
  | zero =>
    intro k _
    unfold CoOS.tmrDispose
    split
    · exact .some (.refl _)
    · exact .ite (fun _ => .some (.refl _)) fun _ => .none
  | succ n ih =>
    intro k hl
    unfold CoOS.tmrDispose
    split
    · exact .some (.refl _)
    · refine .ite (fun _ => .some (.refl _)) fun _ => ?_
      refine Ensures.bind (fireTmr_posted hcb hl _) fun s1 h1 => ?_
      have hl2 : 0 < s1.OSSchedLock := Nat.lt_of_lt_of_eq hl h1.lock.symm
      exact (ih hl2).imp fun k' e => h1.trans e

end Timers

/-! ## Interrupts -/

/-- The next tick ends the delay of the task at the head of the delay list. -/
def Kernel.timeDue (k : Kernel) : Bool := k.DlyList.any fun h => decide (k.delayTick h ≤ 1)

/-- The next tick ends the count of the timer at the head of the timer list. -/
def Kernel.timerDue (k : Kernel) : Bool := k.tmr.TmrList.any fun h => decide (k.tmr.tmrCnt h ≤ 1)

section Interrupts

variable {cfg : Env} {k : Kernel}

theorem sysTickDelay_locked (hl : 1 < k.OSSchedLock) :
    Ensures (sysTickDelay cfg k) fun k' => k'.tmr = k.tmr ∧ k'.reqs = { k.reqs with
      IsrReq := k.IsrReq || k.timeDue, TimeReq := k.TimeReq || k.timeDue } := by
  unfold sysTickDelay Kernel.timeDue
  cases hd : k.DlyList with
  | none =>
    refine .some ⟨rfl, ?_⟩
    rw [Option.any_none, Bool.or_false, Bool.or_false]
    rfl
  | some h =>
    rw [Option.any_some]
    refine .ite (fun hlt => .some ⟨rfl, ?_⟩) fun hge => ?_
    · rw [decide_eq_false (Nat.not_le_of_lt hlt), Bool.or_false, Bool.or_false]
      rfl
    · rw [decide_eq_true (Nat.le_of_not_lt hge), Bool.or_true, Bool.or_true]
      exact .ite (fun _ => .some ⟨rfl, rfl⟩) fun hn => absurd hl hn

theorem sysTickTmr_locked (hl : 1 < k.OSSchedLock) :
    Ensures (sysTickTmr cfg k) fun k' => k'.reqs = { k.reqs with
      IsrReq := k.IsrReq || k.timerDue, TimerReq := k.TimerReq || k.timerDue } := by
  unfold sysTickTmr Kernel.timerDue
  cases hd : k.tmr.TmrList with
  | none =>
    refine .some ?_
    rw [Option.any_none, Bool.or_false, Bool.or_false]
    rfl
  | some h =>
    rw [Option.any_some]
    refine .ite (fun hlt => .some ?_) fun hge => ?_
    · rw [decide_eq_false (Nat.not_le_of_lt hlt), Bool.or_false, Bool.or_false]
      rfl
    · rw [decide_eq_true (Nat.le_of_not_lt hge), Bool.or_true, Bool.or_true]
      exact .ite (fun _ => .some rfl) fun hn => absurd hl hn

/-- `SysTick_Handler` while the scheduler is locked: what expires is deferred. -/
theorem tick_locked (hl : 0 < k.OSSchedLock) :
    Ensures (sysTick_Handler cfg k) fun k' => k'.reqs = { k.reqs with
      IsrReq := k.IsrReq || k.timeDue || k.timerDue
      TimeReq := k.TimeReq || k.timeDue
      TimerReq := k.TimerReq || k.timerDue } := by
  let k0 : Kernel := { osSchedLock k with OSTickCnt := k.OSTickCnt + 1 }
  have hl0 : 1 < k0.OSSchedLock := Nat.succ_lt_succ hl
  unfold sysTick_Handler
  refine Ensures.bind (sysTickDelay_locked (k := k0) hl0) fun k1 h1 => ?_
  have hl1 : 1 < k1.OSSchedLock := Nat.lt_of_lt_of_eq hl0 (congrArg Reqs.lock h1.2).symm
  refine Ensures.bind (sysTickTmr_locked hl1) fun k2 h2 => ?_
  have hdue : k1.timerDue = k.timerDue := by
    unfold Kernel.timerDue
    rw [h1.1]
    rfl
  let v : Reqs := { k.reqs with
    IsrReq := k.IsrReq || k.timeDue || k.timerDue
    TimeReq := k.TimeReq || k.timeDue
    TimerReq := k.TimerReq || k.timerDue }
  have hv : k2.reqs = { v with lock := k.OSSchedLock + 1 } := by
    rw [h2, hdue]
    exact congrArg (fun w : Reqs => { w with
      IsrReq := w.IsrReq || k.timerDue, TimerReq := w.TimerReq || k.timerDue }) h1.2
  have hlk : k2.OSSchedLock = k.OSSchedLock + 1 := congrArg Reqs.lock hv
  have hne : ({ k2 with TaskSchedReq := true } : Kernel).OSSchedLock ≠ 1 := by
    change k2.OSSchedLock ≠ 1
    omega
  rw [osSchedUnlock_nested cfg hne]
  refine .some ?_
  change { k2.reqs with lock := k2.OSSchedLock - 1 } = v
  rw [hv, hlk]
  rfl

/-- `SysTick_Handler` while the scheduler is not locked and nothing is deferred. -/
theorem tick_free (hcb : Posting cfg) (hl : k.OSSchedLock = 0) (hc : k.reqs.Clean) :
    Ensures (sysTick_Handler cfg.served k) fun k' =>
      k'.reqs = ⟨false, false, false, 0, 0, k.OSIntNesting⟩ := by
  let k0 : Kernel := { osSchedLock k with OSTickCnt := k.OSTickCnt + 1 }
  have hl0 : ¬ 1 < k0.OSSchedLock := by
    change ¬ 1 < k.OSSchedLock + 1
    omega
  have hdly : Ensures (sysTickDelay cfg.served k0) fun k1 => k1.reqs = k0.reqs := by
    unfold sysTickDelay
    split
    · exact .some rfl
    · refine .ite (fun _ => .some rfl) fun _ => .ite (fun hn => absurd hn hl0) fun _ => ?_
      exact timeDispose_reqs _ _
  have htmr : ∀ {k1 : Kernel}, k1.reqs = k0.reqs →
      Ensures (sysTickTmr cfg.served k1) fun k2 => k0.reqs.Posted k2.reqs := by
    intro k1 h1
    have hl1 : k1.OSSchedLock = k.OSSchedLock + 1 := congrArg Reqs.lock h1
    rw [← h1]
    unfold sysTickTmr
    split
    · exact .some (.refl _)
    · next h _ =>
      refine .ite (fun _ => .some (.refl _)) fun _ => .ite (fun hn => ?_) fun _ => ?_
      · change 1 < k1.OSSchedLock at hn
        omega
      · let k2 : Kernel := { k1 with tmr := { k1.tmr with tmrCnt := update k1.tmr.tmrCnt h 0 } }
        exact @tmrDispose_posted cfg.served hcb _ k2 (show 0 < k1.OSSchedLock by omega)
  unfold sysTick_Handler
  refine Ensures.bind hdly fun k1 h1 => Ensures.bind (htmr h1) fun k2 h2 => ?_
  let k3 : Kernel := { k2 with TaskSchedReq := true }
  have hn : k3.OSIntNesting = k.OSIntNesting := h2.nest
  rw [← hn]
  refine unlock_reqs (k := k3) ?_ (h2.time.trans hc.time) (h2.timer.trans hc.timer) fun hp => ?_
  · exact h2.lock.trans (congrArg Nat.succ hl)
  · refine h2.isr.resolve_right fun e => ?_
    have hcl : k3.reqs.Clean := ⟨e.1.trans hc.isr, h2.time.trans hc.time, h2.timer.trans hc.timer,
      e.2.trans hc.cnt⟩
    exact hcl.not_pending hp

/-- The end of an ISR. -/
theorem coExitISR_reqs (k : Kernel) : Ensures (coExitISR cfg k) fun k' =>
    k'.reqs = { k.reqs with nest := k.OSIntNesting - 1 } := by
  unfold coExitISR
  refine .ite (fun _ => ?_) fun _ => .some rfl
  refine Ensures.map ((schedule_reqs _).imp fun k1 e => ?_)
  have hlk : k1.OSSchedLock = k.OSSchedLock + 1 := congrArg Reqs.lock e
  change { k1.reqs with lock := k1.OSSchedLock - 1 } = _
  rw [e, hlk]
  rfl

/-- An ISR while the scheduler is locked: its post is deferred, or the queue is full. -/
theorem isr_locked (hl : 0 < k.OSSchedLock) (c : SQC) : Ensures (isrWith cfg k c) fun k' =>
    k'.reqs = k.reqs ∨ k'.reqs = { k.reqs with IsrReq := true, cnt := k.ServiceReq.cnt + 1 } := by
  have hone : ∀ ty id arg, Ensures (some (deferReq cfg (coEnterISR k) ty id arg)) fun x =>
      x.1.reqs = (coEnterISR k).reqs ∨
        x.1.reqs = { (coEnterISR k).reqs with IsrReq := true, cnt := k.ServiceReq.cnt + 1 } := by
    intro ty id arg
    refine .some ?_
    unfold deferReq insertInSRQ
    dsimp only
    split
    · next e =>
      split at e
      · exact nomatch congrArg Prod.snd e
      · rw [← congrArg Prod.fst e]
        exact Or.inr rfl
    · next e =>
      split at e
      · rw [← congrArg Prod.fst e]
        exact Or.inl rfl
      · exact nomatch congrArg Prod.snd e
  have hpost : Ensures (isrPost cfg (coEnterISR k) c) fun x => x.1.reqs = (coEnterISR k).reqs ∨
      x.1.reqs = { (coEnterISR k).reqs with IsrReq := true, cnt := k.ServiceReq.cnt + 1 } := by
    unfold isrPost
    split
    · exact .ite (fun _ => hone _ _ _) fun hn => absurd hl hn
    · exact .ite (fun _ => hone _ _ _) fun hn => absurd hl hn
    · exact .ite (fun _ => hone _ _ _) fun hn => absurd hl hn
    · exact .ite (fun _ => hone _ _ _) fun hn => absurd hl hn
  unfold isrWith
  refine Ensures.bind hpost fun x hx => (coExitISR_reqs x.1).imp fun k' e => ?_
  rcases hx with hx | hx
  · have hn : x.1.OSIntNesting = k.OSIntNesting + 1 := congrArg Reqs.nest hx
    refine Or.inl ?_
    rw [e, hx, hn]
    rfl
  · have hn : x.1.OSIntNesting = k.OSIntNesting + 1 := congrArg Reqs.nest hx
    refine Or.inr ?_
    rw [e, hx, hn]
    rfl

/-- The unlock of a post that an ISR makes while nothing is locked or deferred. -/
theorem unlock_free (hl : k.OSSchedLock = 0) (hc : k.reqs.Clean) {s : Kernel}
    (hs : s.reqs = (osSchedLock k).reqs) :
    Ensures (osSchedUnlock cfg.served s) fun k' => k'.reqs = k.reqs := by
  have hcl : s.reqs.Clean := by
    rw [hs]
    exact ⟨hc.isr, hc.time, hc.timer, hc.cnt⟩
  have hn : s.OSIntNesting = k.OSIntNesting := congrArg Reqs.nest hs
  have hk : k.reqs = ⟨false, false, false, 0, 0, s.OSIntNesting⟩ := by
    rw [hn]
    obtain ⟨h1, h2, h3, h4⟩ := hc
    change k.IsrReq = false at h1
    change k.TimeReq = false at h2
    change k.TimerReq = false at h3
    change k.ServiceReq.cnt = 0 at h4
    unfold Kernel.reqs
    rw [h1, h2, h3, h4, hl]
  rw [hk]
  refine unlock_reqs ?_ hcl.time hcl.timer fun hp => absurd hp hcl.not_pending
  exact (congrArg Reqs.lock hs).trans (congrArg Nat.succ hl)

theorem post_free (hl : k.OSSchedLock = 0) (hc : k.reqs.Clean) {s : Kernel}
    (hs : s.reqs = (osSchedLock k).reqs) (id mail : Nat) (st : StatusType) :
    Ensures (do
      let s ← postTo cfg.served s id mail
      let s ← osSchedUnlock cfg.served s
      some (s, st)) fun x : Kernel × StatusType => x.1.reqs = k.reqs := by
  have hp : Ensures (postTo cfg.served s id mail) fun s' => s'.reqs = (osSchedLock k).reqs :=
    (eventTaskToRdy_frame cfg.served id rfl).imp fun s1 e => (reqs_of_frame e).trans hs
  exact Ensures.bind hp fun s1 h1 => Ensures.bind (unlock_free hl hc h1) fun s2 h2 => .some h2

/-- The posts of an ISR that finds the scheduler free. -/
theorem isrPost_free (hl : k.OSSchedLock = 0) (hc : k.reqs.Clean) (c : SQC) :
    Ensures (isrPost cfg.served k c) fun x => x.1.reqs = k.reqs := by
  have hn : ¬ 0 < k.OSSchedLock := by omega
  unfold isrPost
  split
  · refine .ite (fun h => absurd h hn) fun _ => ?_
    unfold coPostSem
    refine .ite (fun _ => .some rfl) fun _ => .ite (fun _ => .some rfl) fun _ => ?_
    refine post_free hl hc ?_ _ _ _
    rfl
  · refine .ite (fun h => absurd h hn) fun _ => ?_
    unfold coPostMail
    refine .ite (fun _ => .some rfl) fun _ => .ite (fun _ => ?_) fun _ => .some rfl
    refine post_free hl hc ?_ _ _ _
    rfl
  · refine .ite (fun h => absurd h hn) fun _ => ?_
    unfold coSetFlag
    refine .ite (fun _ => .some rfl) fun _ => .ite (fun _ => .some rfl) fun _ => ?_
    let s : Kernel := osSchedLock { k with flagRdy := k.flagRdy ||| flagBit c.id }
    have hset : Ensures (setFlagLoop cfg.served c.id cfg.tasks s s.headNode) fun s' =>
        s'.reqs = (osSchedLock k).reqs :=
      (setFlagLoop_frame cfg.served c.id cfg.tasks _ rfl).imp fun s1 e => reqs_of_frame (k := s) e
    exact Ensures.bind hset fun s1 h1 => Ensures.bind (unlock_free hl hc h1) fun s2 h2 => .some h2
  · refine .ite (fun h => absurd h hn) fun _ => ?_
    unfold coPostQueueMail
    refine .ite (fun _ => .some rfl) fun _ => .ite (fun _ => .some rfl) fun _ => ?_
    refine post_free hl hc ?_ _ _ _
    rfl

theorem isr_free (hl : k.OSSchedLock = 0) (hc : k.reqs.Clean) (c : SQC) :
    Ensures (isrWith cfg.served k c) fun k' => k'.reqs = k.reqs := by
  have hc1 : (coEnterISR k).reqs.Clean := ⟨hc.isr, hc.time, hc.timer, hc.cnt⟩
  unfold isrWith
  refine Ensures.bind (isrPost_free (k := coEnterISR k) hl hc1 c) fun x hx =>
    (coExitISR_reqs x.1).imp fun k' e => ?_
  have hn : x.1.OSIntNesting = k.OSIntNesting + 1 := congrArg Reqs.nest hx
  rw [e, hx, hn]
  rfl

theorem takeSwitch_reqs (hl : k.OSSchedLock = 0) : (takeSwitch k).reqs = k.reqs := by
  rw [takeSwitch_eq hl]
  rfl

theorem switchIfFree_reqs (k : Kernel) : (switchIfFree k).reqs = k.reqs := by
  unfold switchIfFree
  split
  · next h => exact takeSwitch_reqs h
  · rfl

end Interrupts

/-! ## The invariant -/

/-- In the statements of `RespondSRQ` up to here, `IsrReq` is still set. -/
structure Reqs.Responding (v : Reqs) : Prop where
  lock : v.lock = 1
  isr : v.IsrReq = true

/-- What holds before each statement. -/
def Stmt.Ok (v : Reqs) : Stmt → Prop
  | .out => v.lock = 0 → v.Clean
  | .ifLock1 => 0 < v.lock
  | .decLock => 1 < v.lock
  | .ifIsrReq => v.lock = 1
  | .ifTimeReq | .timeDispose | .clearTimeReq => v.Responding
  | .ifTimerReq | .tmrDispose | .clearTimerReq => v.Responding ∧ v.TimeReq = false
  | .whileCnt | .pop | .switch _ => v.Responding ∧ v.TimeReq = false ∧ v.TimerReq = false
  | .clearIsrReq => v.Responding ∧ v.TimeReq = false ∧ v.TimerReq = false ∧ v.cnt = 0
  | .ifSchedReq | .schedule | .zeroLock => v.lock = 1 ∧ v.Clean

structure UnlockInv (m : Unlocking) : Prop where
  stmt : m.pc.Ok m.k.reqs
  told : m.k.reqs.Pending → m.k.IsrReq = true
  nest : m.k.OSIntNesting = 0

/-- A time request that is raised before this statement is seen. -/
def Stmt.seesTime : Stmt → Bool
  | .out | .ifLock1 | .decLock | .ifIsrReq | .ifTimeReq | .timeDispose | .clearTimeReq => true
  | _ => false

/-- A timer request that is raised before this statement is seen. -/
def Stmt.seesTimer : Stmt → Bool
  | .ifTimerReq | .tmrDispose | .clearTimerReq => true
  | p => p.seesTime

/-- A post that is deferred before this statement is served. -/
def Stmt.seesPost : Stmt → Bool
  | .whileCnt | .pop | .switch _ => true
  | p => p.seesTimer

/-- An interrupt defers nothing that this unlock has already looked for. -/
def Timely (m : Unlocking) : UnlockAct → Bool
  | .tick => (m.k.timeDue → m.pc.seesTime) ∧ (m.k.timerDue → m.pc.seesTimer)
  | .isr _ => m.pc.seesPost
  | _ => true

/-- The section of a call leaves the requests of the interrupts alone. -/
def UnlockAct.Quiet : UnlockAct → Prop
  | .write f => ∀ k k', f k = some k' → k'.reqs = k.reqs
  | _ => True

section Steps

variable {cfg : Env} {m : Unlocking} {k : Kernel}

/-- The statement changes, the requests do not. -/
theorem UnlockInv.same (h : UnlockInv m) {k' : Kernel} {p : Stmt} (e : k'.reqs = m.k.reqs)
    (hp : p.Ok m.k.reqs) : UnlockInv ⟨k', p⟩ := by
  refine ⟨?_, ?_, (congrArg Reqs.nest e).trans h.nest⟩
  · change p.Ok k'.reqs
    rw [e]
    exact hp
  · change k'.reqs.Pending → k'.IsrReq = true
    rw [e, show k'.IsrReq = m.k.IsrReq from congrArg Reqs.IsrReq e]
    exact h.told

/-- Inside `RespondSRQ` a request is told of by the `IsrReq` that is still set. -/
theorem unlockInv_responding {k : Kernel} {p : Stmt} (hp : p.Ok k.reqs) (hi : k.reqs.Responding)
    (hn : k.OSIntNesting = 0) : UnlockInv ⟨k, p⟩ := ⟨hp, fun _ => hi.isr, hn⟩

theorem unlockInv_clean {k : Kernel} {p : Stmt} (hp : p.Ok k.reqs) (hc : k.reqs.Clean)
    (hn : k.OSIntNesting = 0) : UnlockInv ⟨k, p⟩ := ⟨hp, fun e => absurd e hc.not_pending, hn⟩

/-- **One statement.** -/
theorem UnlockInv.next (h : UnlockInv m) (hcb : Posting cfg) :
    Ensures (m.pc.exec cfg m.k) fun x => UnlockInv ⟨x.1, x.2⟩ := by
  have hs := h.stmt
  have hn := h.nest
  cases hpc : m.pc with
  | out => exact .none
  | ifLock1 =>
    rw [hpc] at hs
    refine .some (h.same rfl ?_)
    have hl : 0 < m.k.OSSchedLock := hs
    split
    · next e => exact e
    · next e =>
      change 1 < m.k.OSSchedLock
      omega
  | decLock =>
    rw [hpc] at hs
    refine .some ⟨fun e => ?_, h.told, hn⟩
    have hl : 1 < m.k.OSSchedLock := hs
    change m.k.OSSchedLock - 1 = 0 at e
    omega
  | ifIsrReq =>
    rw [hpc] at hs
    refine .some (h.same rfl ?_)
    split
    · next e => exact ⟨hs, e⟩
    · next e =>
      have hno : ¬ m.k.reqs.Pending := fun hp => e (h.told hp)
      refine ⟨hs, (Bool.not_eq_true _).mp e, ?_, ?_, ?_⟩
      · exact (Bool.not_eq_true _).mp fun ht => hno (Or.inr (Or.inl ht))
      · exact (Bool.not_eq_true _).mp fun ht => hno (Or.inr (Or.inr ht))
      · exact not_not.mp fun hc => hno (Or.inl hc)
  | ifTimeReq =>
    rw [hpc] at hs
    refine .some (h.same rfl ?_)
    split
    · exact hs
    · next e => exact ⟨hs, (Bool.not_eq_true _).mp e⟩
  | timeDispose =>
    rw [hpc] at hs
    refine Ensures.map ((timeDispose_reqs _ _).imp fun k' e => h.same e hs)
  | clearTimeReq =>
    rw [hpc] at hs
    have hr : m.k.reqs.Responding := hs
    exact .some (unlockInv_responding ⟨⟨hr.lock, hr.isr⟩, rfl⟩ ⟨hr.lock, hr.isr⟩ hn)
  | ifTimerReq =>
    rw [hpc] at hs
    refine .some (h.same rfl ?_)
    split
    · exact hs
    · next e => exact ⟨hs.1, hs.2, (Bool.not_eq_true _).mp e⟩
  | tmrDispose =>
    rw [hpc] at hs
    obtain ⟨hr, ht⟩ := hs
    have hl : 0 < m.k.OSSchedLock := Nat.lt_of_lt_of_eq Nat.one_pos hr.lock.symm
    refine Ensures.map ((@tmrDispose_posted cfg.inner hcb _ m.k hl).imp fun k' e => ?_)
    have hr' : k'.reqs.Responding :=
      ⟨e.lock.trans hr.lock, e.isr.elim id fun e => e.1.trans hr.isr⟩
    exact unlockInv_responding ⟨hr', e.time.trans ht⟩ hr' (e.nest.trans hn)
  | clearTimerReq =>
    rw [hpc] at hs
    obtain ⟨hr, ht⟩ := hs
    exact .some (unlockInv_responding ⟨⟨hr.lock, hr.isr⟩, ht, rfl⟩ ⟨hr.lock, hr.isr⟩ hn)
  | whileCnt =>
    rw [hpc] at hs
    refine .some (h.same rfl ?_)
    split
    · next e => exact ⟨hs.1, hs.2.1, hs.2.2, e⟩
    · exact hs
  | pop =>
    rw [hpc] at hs
    obtain ⟨hr, ht⟩ := hs
    exact .some (unlockInv_responding ⟨⟨hr.lock, hr.isr⟩, ht⟩ ⟨hr.lock, hr.isr⟩ hn)
  | switch c =>
    rw [hpc] at hs
    have hl : 0 < m.k.OSSchedLock := Nat.lt_of_lt_of_eq Nat.one_pos hs.1.lock.symm
    exact Ensures.map ((serve_reqs hl c).imp fun x e => h.same e hs)
  | clearIsrReq =>
    rw [hpc] at hs
    obtain ⟨hr, ht, hm, hc⟩ := hs
    have he : endRespond m.k = { m.k with IsrReq := false } := if_pos hc
    refine .some ?_
    rw [he]
    have hcl : ({ m.k with IsrReq := false } : Kernel).reqs.Clean := ⟨rfl, ht, hm, hc⟩
    exact unlockInv_clean ⟨hr.lock, hcl⟩ hcl hn
  | ifSchedReq =>
    rw [hpc] at hs
    refine .some (h.same rfl ?_)
    split
    · exact hs
    · exact hs
  | schedule =>
    rw [hpc] at hs
    exact Ensures.map ((schedule_reqs _).imp fun k' e => h.same e hs)
  | zeroLock =>
    rw [hpc] at hs
    obtain ⟨-, hc⟩ := hs
    let k0 : Kernel := { m.k with OSSchedLock := 0 }
    have hcl : (takeSwitch k0).reqs.Clean := by
      rw [takeSwitch_reqs (k := k0) rfl]
      exact ⟨hc.isr, hc.time, hc.timer, hc.cnt⟩
    have hn' : (takeSwitch k0).OSIntNesting = 0 :=
      (congrArg Reqs.nest (takeSwitch_reqs (k := k0) rfl)).trans hn
    exact .some (unlockInv_clean (fun _ => hcl) hcl hn')

/-- Where an interrupt finds the scheduler unlocked, no unlock is under way. -/
theorem Stmt.Ok.out {v : Reqs} {p : Stmt} (h : p.Ok v) (hl : v.lock = 0) : p = .out := by
  cases p with
  | out => rfl
  | ifLock1 => exact absurd hl (Nat.ne_of_gt h)
  | decLock => exact absurd hl (Nat.ne_of_gt (Nat.lt_trans Nat.one_pos h))
  | ifIsrReq => exact absurd (h.symm.trans hl) Nat.one_ne_zero
  | ifTimeReq => exact absurd (h.lock.symm.trans hl) Nat.one_ne_zero
  | timeDispose => exact absurd (h.lock.symm.trans hl) Nat.one_ne_zero
  | clearTimeReq => exact absurd (h.lock.symm.trans hl) Nat.one_ne_zero
  | ifTimerReq => exact absurd (h.1.lock.symm.trans hl) Nat.one_ne_zero
  | tmrDispose => exact absurd (h.1.lock.symm.trans hl) Nat.one_ne_zero
  | clearTimerReq => exact absurd (h.1.lock.symm.trans hl) Nat.one_ne_zero
  | whileCnt => exact absurd (h.1.lock.symm.trans hl) Nat.one_ne_zero
  | pop => exact absurd (h.1.lock.symm.trans hl) Nat.one_ne_zero
  | switch c => exact absurd (h.1.lock.symm.trans hl) Nat.one_ne_zero
  | clearIsrReq => exact absurd (h.1.lock.symm.trans hl) Nat.one_ne_zero
  | ifSchedReq => exact absurd (h.1.symm.trans hl) Nat.one_ne_zero
  | schedule => exact absurd (h.1.symm.trans hl) Nat.one_ne_zero
  | zeroLock => exact absurd (h.1.symm.trans hl) Nat.one_ne_zero

/-- Requests are raised at a statement that will still see them. -/
theorem Stmt.Ok.raise {v : Reqs} {p : Stmt} (h : p.Ok v) (hl : 0 < v.lock) {a b : Bool}
    (ha : a = true → p.seesTime = true) (hb : b = true → p.seesTimer = true) :
    p.Ok { v with
      IsrReq := v.IsrReq || a || b, TimeReq := v.TimeReq || a, TimerReq := v.TimerReq || b } := by
  have hresp : ∀ {w : Reqs}, w.Responding → Reqs.Responding { w with
      IsrReq := w.IsrReq || a || b, TimeReq := w.TimeReq || a, TimerReq := w.TimerReq || b } := by
    intro w hw
    refine ⟨hw.lock, ?_⟩
    change (w.IsrReq || a || b) = true
    rw [hw.isr]
    rfl
  have hfa : p.seesTime = false → a = false := fun e => (Bool.not_eq_true _).mp fun h1 => by
    rw [ha h1] at e
    exact nomatch e
  have hfb : p.seesTimer = false → b = false := fun e => (Bool.not_eq_true _).mp fun h1 => by
    rw [hb h1] at e
    exact nomatch e
  cases p with
  | out => exact fun e => absurd (show v.lock = 0 from e) (Nat.ne_of_gt hl)
  | ifLock1 => exact h
  | decLock => exact h
  | ifIsrReq => exact h
  | ifTimeReq => exact hresp h
  | timeDispose => exact hresp h
  | clearTimeReq => exact hresp h
  | ifTimerReq =>
    obtain rfl := hfa rfl
    exact ⟨hresp h.1, (Bool.or_false _).trans h.2⟩
  | tmrDispose =>
    obtain rfl := hfa rfl
    exact ⟨hresp h.1, (Bool.or_false _).trans h.2⟩
  | clearTimerReq =>
    obtain rfl := hfa rfl
    exact ⟨hresp h.1, (Bool.or_false _).trans h.2⟩
  | _ =>
    -- nothing is raised
    obtain rfl := hfa rfl
    obtain rfl := hfb rfl
    simp only [Bool.or_false]
    exact h

theorem Stmt.Ok.post {v : Reqs} {p : Stmt} (h : p.Ok v) (hl : 0 < v.lock) (hp : p.seesPost = true) :
    p.Ok { v with IsrReq := true, cnt := v.cnt + 1 } := by
  cases p with
  | out => exact fun e => absurd (show v.lock = 0 from e) (Nat.ne_of_gt hl)
  | ifLock1 => exact h
  | decLock => exact h
  | ifIsrReq => exact h
  | ifTimeReq => exact ⟨h.lock, rfl⟩
  | timeDispose => exact ⟨h.lock, rfl⟩
  | clearTimeReq => exact ⟨h.lock, rfl⟩
  | ifTimerReq => exact ⟨⟨h.1.lock, rfl⟩, h.2⟩
  | tmrDispose => exact ⟨⟨h.1.lock, rfl⟩, h.2⟩
  | clearTimerReq => exact ⟨⟨h.1.lock, rfl⟩, h.2⟩
  | whileCnt => exact ⟨⟨h.1.lock, rfl⟩, h.2⟩
  | pop => exact ⟨⟨h.1.lock, rfl⟩, h.2⟩
  | switch c => exact ⟨⟨h.1.lock, rfl⟩, h.2⟩
  | _ => exact nomatch hp

theorem UnlockInv.tick (h : UnlockInv m) (hcb : Posting cfg) (ht : Timely m .tick = true) :
    Ensures (sysTick_Handler cfg.served m.k) fun k => UnlockInv ⟨switchIfFree k, m.pc⟩ := by
  by_cases hl : m.k.OSSchedLock = 0
  · have hout := h.stmt.out hl
    have hc : m.k.reqs.Clean := by
      have := h.stmt
      rw [hout] at this
      exact this hl
    refine (tick_free hcb hl hc).imp fun k e => ?_
    rw [h.nest] at e
    have hcl : (switchIfFree k).reqs.Clean := by
      rw [switchIfFree_reqs, e]
      exact ⟨rfl, rfl, rfl, rfl⟩
    have hn : (switchIfFree k).OSIntNesting = 0 :=
      (congrArg Reqs.nest (switchIfFree_reqs k)).trans (congrArg Reqs.nest e)
    rw [hout]
    exact unlockInv_clean (fun _ => hcl) hcl hn
  · have hpos := Nat.pos_of_ne_zero hl
    obtain ⟨ha, hb⟩ := of_decide_eq_true ht
    refine (tick_locked hpos).imp fun k e => ?_
    have e' := (switchIfFree_reqs k).trans e
    refine ⟨?_, fun hp => ?_, (congrArg Reqs.nest e').trans h.nest⟩
    · change m.pc.Ok (switchIfFree k).reqs
      rw [e']
      exact h.stmt.raise hpos ha hb
    · change (switchIfFree k).reqs.Pending at hp
      change (switchIfFree k).reqs.IsrReq = true
      rw [e'] at hp ⊢
      change (m.k.IsrReq || m.k.timeDue || m.k.timerDue) = true
      rcases hp with hp | hp | hp
      · rw [h.told (Or.inl hp)]
        rfl
      · rcases (Bool.or_eq_true _ _).mp hp with hp | hp
        · rw [h.told (Or.inr (Or.inl hp))]
          rfl
        · rw [hp, Bool.or_true]
          rfl
      · rcases (Bool.or_eq_true _ _).mp hp with hp | hp
        · rw [h.told (Or.inr (Or.inr hp))]
          rfl
        · rw [hp, Bool.or_true]

theorem UnlockInv.isr (h : UnlockInv m) (c : SQC) (ht : Timely m (.isr c) = true) :
    Ensures (isrWith cfg.served m.k c) fun k => UnlockInv ⟨switchIfFree k, m.pc⟩ := by
  by_cases hl : m.k.OSSchedLock = 0
  · have hc : m.k.reqs.Clean := by
      have := h.stmt
      rw [h.stmt.out hl] at this
      exact this hl
    exact (isr_free hl hc c).imp fun k e => h.same ((switchIfFree_reqs k).trans e) h.stmt
  · have hpos := Nat.pos_of_ne_zero hl
    refine (isr_locked hpos c).imp fun k e => ?_
    rcases e with e | e
    · exact h.same ((switchIfFree_reqs k).trans e) h.stmt
    · have e' := (switchIfFree_reqs k).trans e
      refine ⟨?_, fun _ => congrArg Reqs.IsrReq e', (congrArg Reqs.nest e').trans h.nest⟩
      change m.pc.Ok (switchIfFree k).reqs
      rw [e']
      exact h.stmt.post hpos ht

theorem UnlockInv.step (h : UnlockInv m) (hcb : Posting cfg) {a : UnlockAct} (hq : a.Quiet)
    (ht : Timely m a = true) : Ensures (m.step cfg a) UnlockInv := by
  cases a with
  | lock =>
    refine .ite (fun hpc => .some ⟨?_, h.told, h.nest⟩) fun _ => .none
    change m.pc.Ok _
    rw [hpc]
    exact fun e => nomatch (show m.k.OSSchedLock + 1 = 0 from e)
  | write f =>
    refine .ite (fun _ => ?_) fun _ => .none
    exact Ensures.map fun k e => h.same (hq _ _ e) h.stmt
  | unlock => exact .ite (fun hpc => .some (h.same rfl hpc.2)) fun _ => .none
  | next => exact Ensures.map (h.next hcb)
  | tick => exact Ensures.map (h.tick hcb ht)
  | isr c => exact Ensures.map (h.isr c ht)

end Steps

/-! ## Runs -/

section Runs

variable {cfg : Env} {i : Idle} {us : List Setup} {m0 : Sys} {m : Unlocking}

theorem UnlockReach.inv (hcb : Posting cfg) (hu : ∀ u ∈ us, u.Valid) (hb : boot cfg i us = some m0)
    (h : UnlockReach cfg (fun m a => a.Quiet ∧ Timely m a = true) ⟨m0.k, .out⟩ m) :
    UnlockInv m := by
  induction h with
  | start =>
    obtain ⟨g, r, hbt, -⟩ := booted hu hb
    have hi := hbt.inv
    have hc : m0.k.reqs.Clean := ⟨hi.req, hi.time, hi.timer, hi.cnt⟩
    exact unlockInv_clean (fun _ => hc) hc hi.stable.coh.nest
  | step _ hok hs ih => exact ih.step hcb hok.1 hok.2 _ hs

/-- **Nothing deferred is left behind** when no interrupt defers what the unlock under way has
    already looked for: with the scheduler unlocked nothing is deferred, and `IsrReq` tells of
    every request. -/
theorem nothing_left_behind (hcb : Posting cfg) (hu : ∀ u ∈ us, u.Valid)
    (hb : boot cfg i us = some m0)
    (h : UnlockReach cfg (fun m a => a.Quiet ∧ Timely m a = true) ⟨m0.k, .out⟩ m) :
    (m.k.OSSchedLock = 0 →
      m.k.ServiceReq.cnt = 0 ∧ m.k.TimeReq = false ∧ m.k.TimerReq = false) ∧
    (m.k.ServiceReq.cnt ≠ 0 ∨ m.k.TimeReq = true ∨ m.k.TimerReq = true → m.k.IsrReq = true) := by
  have hi := h.inv hcb hu hb
  refine ⟨fun hl => ?_, hi.told⟩
  have hc : m.k.reqs.Clean := by
    have := hi.stmt
    rw [hi.stmt.out hl] at this
    exact this hl
  exact ⟨hc.cnt, hc.time, hc.timer⟩

/-- The section of `CoTickDelay`. -/
def delaySection (n : Nat) (k : Kernel) : Option Kernel :=
  k.TCBRunning.bind fun r => insertDelayList shippedEnv k r n

theorem delaySection_quiet (n : Nat) : (UnlockAct.write (delaySection n)).Quiet := by
  intro k k' e
  obtain ⟨r, -, e⟩ := Option.bind_eq_some_iff.mp e
  exact reqs_of_frame (insertDelayList_frame shippedEnv r n rfl k' e)

/-- Task 1 delays itself for two ticks; after the first of them task 2 enters a section, in which
    a post is deferred, and `late` is the rest. -/
def unlockScript (late : List UnlockAct) : List UnlockAct :=
  [.lock, .write (delaySection 2), .unlock, .next, .next, .next, .next, .next, .tick, .lock,
    .isr ⟨.SEM_REQ, 0, 0⟩] ++ late

theorem unlockScript_quiet {late : List UnlockAct} (h : ∀ a ∈ late, a.Quiet) :
    ∀ a ∈ unlockScript late, a.Quiet := by
  intro a ha
  rcases List.mem_append.mp ha with ha | ha
  · simp only [List.mem_cons, List.not_mem_nil, or_false] at ha
    rcases ha with rfl | rfl | rfl | rfl | rfl | rfl | rfl | rfl | rfl | rfl | rfl
    · trivial
    · exact delaySection_quiet 2
    all_goals trivial
  · exact h a ha

/-- The statements of one unlock, `n` of them. -/
def statements (n : Nat) : List UnlockAct := List.replicate n .next

theorem statements_quiet (n : Nat) : ∀ a ∈ statements n, a.Quiet := by
  intro a ha
  rw [List.eq_of_mem_replicate ha]
  trivial

theorem posting_shipped : Posting shippedEnv := by
  intro f k k' e
  rw [← Option.some.inj e]
  exact ⟨[], rfl⟩

/-- A run from the start, from what can be computed of its last state. -/
theorem unlockRan {P : Unlocking → UnlockAct → Bool} {ok : Unlocking → UnlockAct → Prop}
    {l : List UnlockAct} (hok : ∀ a ∈ l, ∀ m, P m a = true → ok m a) {α : Type} {f : Unlocking → α}
    {v : α} (h : ((boot cfg i us).bind fun m =>
      (unlockRuns cfg P ⟨m.k, .out⟩ l).map f) = some v) :
    ∃ m0 m, boot cfg i us = some m0 ∧ UnlockReach cfg ok ⟨m0.k, .out⟩ m ∧ f m = v := by
  obtain ⟨m0, e0, h⟩ := Option.bind_eq_some_iff.mp h
  obtain ⟨m, e1, h⟩ := Option.map_eq_some_iff.mp h
  exact ⟨m0, m, e0, unlockRuns_reach l hok .start e1, h⟩

/-- A post and the end of a delay are deferred before the unlock, another post while it drains:
    the unlock serves them all. -/
theorem nothing_left_behind_shipped : ∃ m0 m, boot shippedEnv shippedIdle
      [.plainTask 5, .plainTask 10, .sem 0 2 sortFifo] = some m0 ∧
    UnlockReach shippedEnv (fun m a => a.Quiet ∧ Timely m a = true) ⟨m0.k, .out⟩ m ∧
    m.k.OSSchedLock = 0 ∧ m.k.eventCounter 0 = 2 ∧ m.k.state 1 = .RUNNING ∧
    m.k.ServiceReq.cnt = 0 ∧ m.k.TimeReq = false ∧ m.k.TimerReq = false := by
  have hq : ∀ a ∈ unlockScript ([.tick, .unlock] ++ statements 7 ++ [.isr ⟨.SEM_REQ, 0, 0⟩] ++
      statements 10), a.Quiet := by
    refine unlockScript_quiet fun a ha => ?_
    simp only [List.mem_append, List.mem_cons, List.not_mem_nil, or_false] at ha
    rcases ha with (((rfl | rfl) | ha) | rfl) | ha
    · trivial
    · trivial
    · exact statements_quiet _ a ha
    · trivial
    · exact statements_quiet _ a ha
  obtain ⟨m0, m, h1, h2, h3⟩ := @unlockRan shippedEnv shippedIdle
    [.plainTask 5, .plainTask 10, .sem 0 2 sortFifo] Timely (fun m a => a.Quiet ∧
      Timely m a = true) _
    (fun a ha m hm => ⟨hq a ha, hm⟩) _ (fun m => (m.k.OSSchedLock, m.k.eventCounter 0, m.k.state 1))
    (0, 2, .RUNNING) (by decide +kernel)
  have hl : m.k.OSSchedLock = 0 := congrArg (fun x => x.1) h3
  exact ⟨m0, m, h1, h2, hl, congrArg (fun x => x.2.1) h3, congrArg (fun x => x.2.2) h3,
    (nothing_left_behind posting_shipped (by decide) h1 h2).1 hl⟩

/-- The delay ends while the queue is drained: the time request is left behind, and `IsrReq` is
    cleared. -/
theorem time_request_left_behind : ∃ m0 m, boot shippedEnv shippedIdle
      [.plainTask 5, .plainTask 10, .sem 0 2 sortFifo] = some m0 ∧
    UnlockReach shippedEnv (fun _ a => a.Quiet) ⟨m0.k, .out⟩ m ∧ m.k.OSSchedLock = 0 ∧
    m.k.TimeReq = true ∧ m.k.IsrReq = false := by
  have hq : ∀ a ∈ unlockScript ([.unlock] ++ statements 7 ++ [.tick] ++ statements 5), a.Quiet := by
    refine unlockScript_quiet fun a ha => ?_
    simp only [List.mem_append, List.mem_cons, List.not_mem_nil, or_false] at ha
    rcases ha with ((rfl | ha) | rfl) | ha
    · trivial
    · exact statements_quiet _ a ha
    · trivial
    · exact statements_quiet _ a ha
  obtain ⟨m0, m, h1, h2, h3⟩ := @unlockRan shippedEnv shippedIdle
    [.plainTask 5, .plainTask 10, .sem 0 2 sortFifo] (fun _ _ => true) (fun _ a => a.Quiet) _
    (fun a ha m _ => hq a ha) _ (fun m => (m.k.OSSchedLock, m.k.TimeReq, m.k.IsrReq))
    (0, true, false) (by decide +kernel)
  exact ⟨m0, m, h1, h2, congrArg (fun x => x.1) h3, congrArg (fun x => x.2.1) h3,
    congrArg (fun x => x.2.2) h3⟩

end Runs

end CoOS
