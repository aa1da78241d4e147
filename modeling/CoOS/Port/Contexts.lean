/-
  Each step of the machine is a step of `Tasks` (`Machine.Step.refines`), whichever port the kernel
  is built for and whatever interrupts come between the instructions of the handler; and a task
  resumes with the context that it was suspended with, however long the others ran (`resumes`).
-/
import Mathlib.Logic.Relation
import CoOS.Port.Handover

namespace CoOS

open Function (update)
open Relation (ReflTransGen)
open Thumb Thumb.Reg

variable {n : Nat} {L : Layout n} {p : Port} {m m' : Machine n} {a : Tasks n} {r t : Fin n}

/-! ## Refinement -/

/-- **Each step of the machine is a step of the tasks.** -/
theorem Machine.Step.refines (h : m.Step L p m') (ho : m.Ok L) (ha : m.Shows L a) :
    m'.Ok L ∧ ∃ a', a.Step a' ∧ m'.Shows L a' := by
  obtain ⟨r, hr, hsome⟩ := ho.running
  obtain ⟨A, hA⟩ := Option.isSome_iff_exists.mp hsome
  have hrun : ∀ {r'}, a.running = some r' → r' = r :=
    fun e => L.tcb_inj ((ha.task _ e).2.symm.trans hr)
  cases h with
  | @works c h =>
    refine ⟨h.ok ho, ?_⟩
    cases hn : a.running with
    | none =>
      have hs := ha.main hn
      exact ⟨a, .main hn, fun t => (ha.ctx t).trans (h.ctx_eq (Or.inl hs)).symm,
        fun _ => h.spsel.trans hs,
        fun r' e => nomatch hn.symm.trans e⟩
    | some r' =>
      cases hrun hn
      have hs := (ha.task _ hn).1
      have hr' : c.mem (L.addr .TCBRunning) = L.tcb r := (h.syms _ (by simp) (by simp)).trans hr
      refine ⟨_, .works (ctxOf c) hn, fun t => ?_, fun e => (nomatch hn.symm.trans e),
        fun q e => ?_⟩
      · by_cases e : t = r
        · rw [e, Machine.ctx_running (m := ⟨c, m.stack⟩) hA (h.spsel.trans hs) hr']
          exact Function.update_self ..
        · rw [h.ctx_eq (Machine.suspended hr e), ← ha.ctx t]
          exact Function.update_of_ne e _ _
      · cases hrun e
        exact ⟨h.spsel.trans hs, hr'⟩
  | @create t B task param pstk ht hne hB hp hlo hhi =>
    refine ⟨Machine.create_ok ho ht hne hB hp hlo hhi, ?_⟩
    have hrt : r ≠ t := fun e => hne (e ▸ hr)
    have hrun' : (m.create L t B task param pstk).cpu.mem (L.addr .TCBRunning) = L.tcb r :=
      (Machine.create_sym hB hlo hhi _ (by simp)).trans hr
    have hnew : (savedCtx m.cpu.stkalign (m.create L t B task param pstk).cpu.mem (pstk - 60)).New
      task param pstk :=
      Machine.create_new (fun x hx (e : x = L.addr (.stkPtr t)) => hB.2.1 _ (e ▸ hx)) hlo hhi
    refine ⟨_, .create ((ha.ctx t).trans (Machine.ctx_none ht)) (fun e => hrt (hrun e).symm) hnew,
      fun s => ?_, ha.main,
      fun q e => ?_⟩
    · by_cases e : s = t
      · have hst : (m.create L t B task param pstk).stack t = some B := Function.update_self ..
        rw [e, Machine.ctx_suspended hst (Machine.suspended hrun' (Ne.symm hrt)),
          Machine.create_stkPtr]
        exact Function.update_self ..
      · rw [Machine.create_ctx ho hB hlo hhi e, ← ha.ctx s]
        exact Function.update_of_ne e _ _
    · cases hrun e
      exact ⟨(ha.task _ e).1, hrun'⟩
  | @delete t hne =>
    refine ⟨Machine.delete_ok ho hne, _, .delete (t := t) (fun e => hne ((hrun e) ▸ hr)),
      fun s => ?_, ha.main, ha.task⟩
    by_cases e : s = t
    · rw [e, Machine.ctx_none (m := ⟨m.cpu, update m.stack t none⟩) (Function.update_self ..)]
      exact Function.update_self ..
    · rw [Machine.delete_ctx e, ← ha.ctx s]
      exact Function.update_of_ne e _ _
  | @pendSV c hy h =>
    obtain ⟨c', t, e, hc⟩ := hy.switches ho hr h
    cases e
    refine ⟨hc.ok hy ho hr, ?_⟩
    have hout := hc.ctx_out hA
    have ht : (a.ctx t).isSome := by
      obtain ⟨B, hB⟩ := Option.isSome_iff_exists.mp hc.there
      rw [ha.ctx t]
      unfold Machine.ctx
      rw [hB]
      rfl
    cases hn : a.running with
    | none =>
      obtain ⟨x, hx, hg, hs⟩ := hy.saved_main ho hr hA (ha.main hn)
      refine ⟨_, .start hn ((ha.ctx r).trans hx) ht hg hs, fun s => ?_, fun e => (nomatch e),
        fun q e => ?_⟩
      · by_cases e : s = r
        · rw [e, hout]
          exact Function.update_self ..
        · rw [hc.ctx_eq hr e, ← ha.ctx s]
          exact Function.update_of_ne e _ _
      · cases e
        exact ⟨hc.spsel, hc.running⟩
    | some r' =>
      cases hrun hn
      have hs := (ha.task _ hn).1
      refine ⟨_, .switch hn ht, fun s => ?_, fun e => (nomatch e), fun q e => ?_⟩
      · by_cases e : s = r
        · rw [e, hout, hy.saved_task ho hr hA hs]
          exact (ha.ctx r).trans (Machine.ctx_running hA hs hr)
        · rw [hc.ctx_eq hr e]
          exact ha.ctx s
      · cases e
        exact ⟨hc.spsel, hc.running⟩

theorem Machine.Ok.shows (ho : m.Ok L) : ∃ a, m.Shows L a := by
  obtain ⟨r, hr, -⟩ := ho.running
  cases hs : m.cpu.spsel with
  | true =>
    exact ⟨⟨some r, m.ctx L⟩, fun _ => rfl, fun e => (nomatch e),
      fun q e => Option.some.inj e ▸ ⟨hs, hr⟩⟩
  | false => exact ⟨⟨none, m.ctx L⟩, fun _ => rfl, fun _ => hs, fun q e => (nomatch e)⟩

theorem Machine.Step.ok (h : m.Step L p m') (ho : m.Ok L) : m'.Ok L := by
  obtain ⟨a, ha⟩ := ho.shows
  exact (h.refines ho ha).1

/-! ## Two tasks -/

/-- A layout for two tasks. -/
def Layout.two : Layout 2 where
  addr
    | .TCBRunning => 0x20000000 | .TCBNext => 0x20000004 | .OSSchedLock =>
      0x20000008 | .INT_EXIT => 0x2000000C
    | .stkPtr t => 0x20000100 + 64 * BitVec.ofNat 32 t
  inj := by
    intro x y h
    cases x <;> cases y
      <;> first | rfl | exact congrArg Sym.stkPtr (Fin.ext (by bv_omega)) | (exfalso; bv_omega)
  aligned := by
    intro s
    cases s with
    | stkPtr t => unfold Aligned; bv_omega
    | _ => decide
  lockOff := 0
  lockOff_lt := by decide

/-- The first task runs, the second has been created and is next. -/
def Machine.two : Machine 2 where
  cpu :=
    { reg := fun _ => 7, psp := 0x20001080, msp := 0x20003000, pc := 0x08000100, xpsr := 0x01000000,
      handler := false, spsel := true, primask := false, stkalign := true
      mem := update
        (update (update (update (fun _ => 0) (Layout.two.addr .TCBRunning) (Layout.two.tcb 0))
          (Layout.two.addr .TCBNext) (Layout.two.tcb 1)) (Layout.two.addr .INT_EXIT) 0xFFFFFFFC)
        (Layout.two.tcb 1) 0x20002040 }
  stack t := if t = 0 then some ⟨0x20001000, 0x20001100⟩ else some ⟨0x20002000, 0x20002100⟩

theorem Machine.two_running {r : Fin 2}
    (h : Machine.two.cpu.mem (Layout.two.addr .TCBRunning) = Layout.two.tcb r) : r = 0 :=
  (Layout.two.tcb_inj ((by decide : Machine.two.cpu.mem (Layout.two.addr .TCBRunning) =
    Layout.two.tcb 0).symm.trans h)).symm

theorem Machine.two_stack {t : Fin 2} {A : Area} (h : Machine.two.stack t = some A) :
    (t = 0 ∧ A.lo = 0x20001000 ∧ A.hi = 0x20001100) ∨ (t = 1 ∧ A.lo = 0x20002000 ∧
      A.hi = 0x20002100) := by
  unfold Machine.two at h
  dsimp only at h
  split at h
  · cases h
    exact Or.inl ⟨by assumption, rfl, rfl⟩
  · cases h
    exact Or.inr ⟨by omega, rfl, rfl⟩

theorem Machine.two_free {t : Fin 2} {A : Area} (h : Machine.two.stack t = some A) :
    A.Free Layout.two (update Machine.two.stack t none) := by
  have hno : ∀ s, (Layout.two.addr s).toNat < 0x20001000 := by
    intro s
    cases s with
    | stkPtr t =>
      show (0x20000100 + 64 * BitVec.ofNat 32 t : Word).toNat < 0x20001000
      bv_omega
    | _ => decide
  have hA := Machine.two_stack h
  refine ⟨by omega, fun s hs => ?_, fun u B hB => ?_⟩
  · have := hno s
    unfold Area.Has at hs
    omega
  · by_cases e : u = t
    · rw [e, Function.update_self] at hB
      exact nomatch hB
    · rw [Function.update_of_ne e] at hB
      have := Machine.two_stack hB
      omega

theorem Machine.two_ok : Machine.two.Ok Layout.two where
  thread := rfl
  running := ⟨0, by decide, rfl⟩
  exit := by decide
  area _ _ := Machine.two_free
  frame := by
    intro t A hA hs
    obtain ⟨rfl, -⟩ | ⟨rfl, hlo, hhi⟩ := Machine.two_stack hA
    · exact absurd hs (by decide)
    · rw [show Machine.two.cpu.mem (Layout.two.tcb 1) = 0x20002040 by decide]
      exact ⟨by decide, by rw [hlo]; decide, by rw [hhi]; decide⟩
  main h := nomatch h

theorem Machine.two_ready : Machine.two.Ready Layout.two where
  primask := rfl
  next := ⟨1, by decide, rfl⟩
  task := by
    intro _ r A hr hA
    cases Machine.two_running hr
    obtain ⟨-, hlo, hhi⟩ | ⟨h, -⟩ := Machine.two_stack hA
    · exact ⟨by decide, by rw [hlo]; decide, by rw [hhi]; decide⟩
    · exact nomatch h
  main h := nomatch h

theorem Machine.quiet_refl {x : Mem} : m.Quiet L x x := ⟨fun _ _ => rfl, id, fun _ => rfl⟩

/-- A task may be made the next one. -/
theorem Machine.Ok.works_next (ho : m.Ok L) (v : Word) :
    m.Works L (m.cpu.withMem (update m.cpu.mem (L.addr .TCBNext) v)) where
  thread := ho.thread
  spsel := rfl
  stkalign := rfl
  psp _ := rfl
  syms _ h _ := Function.update_of_ne (L.inj.ne h) _ _
  frames t ht hs a ha := by
    obtain ⟨B, hB⟩ := Option.isSome_iff_exists.mp ht
    refine Function.update_of_ne ?_ _ _
    rintro rfl
    exact (ho.area t B hB).2.1 _ (ho.frame_in hB hs ha)

/-- The handler without interrupts, at Cortex-M3. -/
def Machine.afterPendSV (L : Layout n) (m : Machine n) : Option Cpu :=
  run 0 (Port.m3.PendSV_Handler L) m.cpu.take

theorem Machine.two_switches : (Machine.two.afterPendSV Layout.two).isSome := by decide +kernel

/-- The second task runs. -/
def Machine.twoNext : Cpu := (Machine.two.afterPendSV Layout.two).get Machine.two_switches

/-- It makes the first one the next. -/
def Machine.twoBack : Machine 2 :=
  ⟨Machine.twoNext.withMem (update Machine.twoNext.mem (Layout.two.addr .TCBNext)
    (Layout.two.tcb 0)), Machine.two.stack⟩

theorem Machine.twoBack_switches : (Machine.twoBack.afterPendSV Layout.two).isSome := by
  decide +kernel

theorem Machine.twoBack_ready : Machine.twoBack.Ready Layout.two where
  primask := by decide +kernel
  next := ⟨0, by decide +kernel, rfl⟩
  task := by
    intro _ r A hr hA
    have h1 : Machine.twoBack.cpu.mem (Layout.two.addr .TCBRunning) = Layout.two.tcb 1 := by
      decide +kernel
    cases Layout.two.tcb_inj (h1.symm.trans hr)
    have hA : Machine.two.stack 1 = some A := hA
    obtain ⟨h, -⟩ | ⟨-, hlo, hhi⟩ := Machine.two_stack hA
    · exact nomatch h
    · rw [show Machine.twoBack.cpu.psp = 0x20002080 by decide +kernel]
      exact ⟨by decide, by rw [hlo]; decide, by rw [hhi]; decide⟩
  main h := absurd h (by decide +kernel)

theorem Machine.two_runs :
    Runs (Machine.two.Quiet Layout.two) 0 (Port.m3.PendSV_Handler Layout.two) Machine.two.cpu.take
    (some Machine.twoNext) :=
  run_runs (fun _ => Machine.quiet_refl) (Option.some_get _).symm

theorem Machine.twoNext_works :
    Machine.Step Layout.two .m3 ⟨Machine.twoNext, Machine.two.stack⟩ Machine.twoBack :=
  .works (((Machine.Step.pendSV Machine.two_ready Machine.two_runs).ok Machine.two_ok).works_next _)

theorem Machine.two_shows : Machine.two.Shows Layout.two ⟨some 0, Machine.two.ctx Layout.two⟩ :=
  ⟨fun _ => rfl, fun e => (nomatch e), fun _ e => Option.some.inj e ▸ ⟨rfl, by decide⟩⟩

/-! ## Runs -/

/-- **The machine refines the tasks**: every run of it is a run of the tasks, and at no point of it
    can the handler fault. -/
theorem contexts_refined (h : ReflTransGen (Machine.Step L p) m m') (ho : m.Ok L)
    (ha : m.Shows L a) :
    (∃ a', ReflTransGen Tasks.Step a a' ∧ m'.Shows L a') ∧ m'.Ok L ∧
      (m'.Ready L → ∀ o, Runs (m'.Quiet L) 0 (p.PendSV_Handler L) m'.cpu.take o → o.isSome) := by
  have key : m'.Ok L ∧ ∃ a', ReflTransGen Tasks.Step a a' ∧ m'.Shows L a' := by
    induction h with
    | refl => exact ⟨ho, a, .refl, ha⟩
    | tail _ hs ih =>
      obtain ⟨ho1, a1, h1, ha1⟩ := ih
      obtain ⟨ho2, a2, h2, ha2⟩ := hs.refines ho1 ha1
      exact ⟨ho2, a2, h1.tail h2, ha2⟩
  obtain ⟨ho', a', h', ha'⟩ := key
  refine ⟨⟨a', h', ha'⟩, ho', fun hy o hr => ?_⟩
  obtain ⟨r, e, -⟩ := ho'.running
  obtain ⟨c, t, rfl, -⟩ := hy.switches ho' e hr
  rfl

/-- The run from the first task to the second. -/
theorem contexts_refined_two : ∃ a, ReflTransGen Tasks.Step ⟨some 0, Machine.two.ctx Layout.two⟩ a ∧
    Machine.twoBack.Shows Layout.two a := by
  have h : ReflTransGen (Machine.Step Layout.two .m3) Machine.two Machine.twoBack :=
    (ReflTransGen.single (.pendSV Machine.two_ready Machine.two_runs)).tail Machine.twoNext_works
  exact (contexts_refined h Machine.two_ok Machine.two_shows).1

/-- Between tasks the handler changes no context. -/
theorem Machine.Ready.ctx_eq {c : Cpu} (hy : m.Ready L) (ho : m.Ok L) (hs : m.cpu.spsel = true)
    (h : Runs (m.Quiet L) 0 (p.PendSV_Handler L) m.cpu.take (some c)) (t : Fin n) :
    c.spsel = true ∧ Machine.ctx L ⟨c, m.stack⟩ t = m.ctx L t := by
  obtain ⟨r, hr, hsome⟩ := ho.running
  obtain ⟨A, hA⟩ := Option.isSome_iff_exists.mp hsome
  obtain ⟨_, t', e, hc⟩ := hy.switches ho hr h
  cases e
  refine ⟨hc.spsel, ?_⟩
  by_cases e : t = r
  · rw [e, hc.ctx_out hA, hy.saved_task ho hr hA hs, Machine.ctx_running hA hs hr]
  · exact hc.ctx_eq hr e

/-- A step of the machine while task `t` does not run. -/
def Machine.Without (L : Layout n) (p : Port) (t : Fin n) (m m' : Machine n) : Prop :=
  m.Step L p m' ∧ m.cpu.mem (L.addr .TCBRunning) ≠ L.tcb t ∧ (m'.stack t).isSome

theorem Machine.Without.ctx_eq (h : m.Without L p t m') (ho : m.Ok L) (hs : m.cpu.spsel = true)
    (ht : (m.stack t).isSome) : m'.cpu.spsel = true ∧ m'.ctx L t = m.ctx L t := by
  obtain ⟨h, hne, ht'⟩ := h
  cases h with
  | works h => exact ⟨h.spsel.trans hs, h.ctx_eq (Or.inr hne)⟩
  | @create u B task param pstk hu hr hA hp hlo hhi =>
    have hut : t ≠ u := by
      rintro rfl
      rw [hu] at ht
      exact nomatch ht
    exact ⟨hs, Machine.create_ctx ho hA hlo hhi hut⟩
  | @delete u hr =>
    have hut : t ≠ u := by
      rintro rfl
      rw [show (⟨m.cpu, update m.stack t none⟩ : Machine n).stack t =
        none from Function.update_self ..] at ht'
      exact nomatch ht'
    exact ⟨hs, Machine.delete_ctx hut⟩
  | pendSV hy h => exact hy.ctx_eq ho hs h t

/-- **A task does not notice that it was away.** Task `t` runs and the handler is taken; whatever
    the machine does while `t` does not run, when the handler gives the processor back to `t`, the
    registers, the stack pointer, the program counter and the flags are what they were. -/
theorem resumes {c c' : Cpu} (ho : m.Ok L) (hs : m.cpu.spsel = true)
    (hr : m.cpu.mem (L.addr .TCBRunning) = L.tcb t)
    (hy : m.Ready L) (h : Runs (m.Quiet L) 0 (p.PendSV_Handler L) m.cpu.take (some c))
    (hw : ReflTransGen (Machine.Without L p t) ⟨c, m.stack⟩ m') (hy' : m'.Ready L)
    (h' : Runs (m'.Quiet L) 0 (p.PendSV_Handler L) m'.cpu.take (some c'))
    (hr' : c'.mem (L.addr .TCBRunning) = L.tcb t) :
    ctxOf c' = ctxOf m.cpu := by
  obtain ⟨r, e, hsome⟩ := ho.running
  cases L.tcb_inj (hr.symm.trans e)
  obtain ⟨A, hA⟩ := Option.isSome_iff_exists.mp hsome
  obtain ⟨_, u, e, hc⟩ := hy.switches ho hr h
  cases e
  have hout := (hy.ctx_eq ho hs h t).2
  have key : m'.Ok L ∧ m'.cpu.spsel = true ∧ (m'.stack t).isSome ∧ m'.ctx L t = Machine.ctx L ⟨c,
    m.stack⟩ t := by
    clear hy' h'
    induction hw with
    | refl => exact ⟨hc.ok hy ho hr, hc.spsel, hsome, rfl⟩
    | tail _ hw ih =>
      obtain ⟨ho1, hs1, ht1, e1⟩ := ih
      obtain ⟨hs2, e2⟩ := hw.ctx_eq ho1 hs1 ht1
      exact ⟨hw.1.ok ho1, hs2, hw.2.2, e2.trans e1⟩
  obtain ⟨ho1, hs1, ht1, e1⟩ := key
  obtain ⟨B, hB⟩ := Option.isSome_iff_exists.mp ht1
  obtain ⟨hs2, e2⟩ := hy'.ctx_eq ho1 hs1 h' t
  have e3 := Machine.ctx_running (m := ⟨c', m'.stack⟩) hB hs2 hr'
  rw [e2, e1, hout, Machine.ctx_running hA hs hr] at e3
  exact (Option.some.inj e3).symm

/-- The first task after the second has run. -/
theorem resumes_two :
    ctxOf ((Machine.twoBack.afterPendSV Layout.two).get Machine.twoBack_switches) =
    ctxOf Machine.two.cpu := by
  have h : Runs (Machine.twoBack.Quiet Layout.two) 0
    (Port.m3.PendSV_Handler Layout.two) Machine.twoBack.cpu.take
      (some ((Machine.twoBack.afterPendSV Layout.two).get Machine.twoBack_switches)) :=
    run_runs (fun _ => Machine.quiet_refl) (Option.some_get _).symm
  have hw : Machine.Without Layout.two .m3 0 ⟨Machine.twoNext, Machine.two.stack⟩ Machine.twoBack :=
    ⟨Machine.twoNext_works, by decide +kernel, rfl⟩
  exact resumes Machine.two_ok rfl (by decide) Machine.two_ready Machine.two_runs
    (.single hw) Machine.twoBack_ready h
    (by decide +kernel)

end CoOS
