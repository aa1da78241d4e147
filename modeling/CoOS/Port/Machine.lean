/-
  What the context switch is for: every task has the processor's registers to itself.

  `Tasks` is that machine, in which a switch only says who runs. `Machine` is the processor with the
  stacks of the tasks in its memory, and shows a `Tasks`: the context of the task that runs is in
  the registers, that of any other in the sixteen words above its stack pointer.

  The tasks keep to what the kernel relies on: nobody writes to the frame of a task that is
  suspended or to the pointers of the kernel; when the exception is taken `TCBNext` names a task
  that exists, and the running task has left room for the frame (`Ready`), which the kernel checks
  only after the fact.
-/
import CoOS.Port.Switch

namespace CoOS

open Function (update)
open Thumb Thumb.Reg

/-! ## Tasks with registers of their own -/

/-- `running` is `none` while `main` runs, before the first switch. -/
structure Tasks (n : Nat) where
  running : Option (Fin n)
  ctx : Fin n → Option Ctx

/-- The context of a task that has not run: at its entry with its parameter, on an empty stack. -/
structure Ctx.New (x : Ctx) (task param pstk : Word) : Prop where
  pc : x.pc = task
  param : x.reg R0 = param
  lr : x.reg LR = 0xFFFFFFFE
  sp : x.sp = pstk + 4
  xpsr : x.xpsr = 0x01000000

/-- A switch gives the processor to another task and changes no context; the first one leaves what
    `main` had in `R4` to `R11` in the frame of the task that `CoStartOS` calls the running one. -/
inductive Tasks.Step {n : Nat} (a : Tasks n) : Tasks n → Prop
  | works {r : Fin n} (x : Ctx) (h : a.running = some r) :
      Tasks.Step a { a with ctx := update a.ctx r (some x) }
  | main (h : a.running = none) : Tasks.Step a a
  | create {t : Fin n} {x : Ctx} {task param pstk : Word} (h : a.ctx t = none)
      (hr : a.running ≠ some t)
      (hx : x.New task param pstk) : Tasks.Step a { a with ctx := update a.ctx t (some x) }
  | delete {t : Fin n} (h : a.running ≠ some t) : Tasks.Step a { a with ctx := update a.ctx t none }
  | switch {r t : Fin n} (h : a.running = some r) (ht : (a.ctx t).isSome) :
      Tasks.Step a { a with running := some t }
  | start {i t : Fin n} {x y : Ctx} (h : a.running = none) (hx : a.ctx i = some x)
      (ht : (a.ctx t).isSome)
      (hy : ∀ q, q ∉ high → y.reg q = x.reg q) (hs : y.sp = x.sp ∧ y.pc = x.pc ∧ y.xpsr = x.xpsr) :
      Tasks.Step a ⟨some t, update a.ctx i (some y)⟩

/-! ## The processor -/

/-- The addresses of a stack. -/
structure Area where
  lo : Nat
  hi : Nat

def Area.Has (A : Area) (a : Word) : Prop := A.lo ≤ a.toNat ∧ a.toNat < A.hi

/-- The processor, and the stacks of the tasks that exist. -/
structure Machine (n : Nat) where
  cpu : Cpu
  stack : Fin n → Option Area

variable {n : Nat} {L : Layout n} {p : Port} {m m' : Machine n} {a : Tasks n} {r t : Fin n}

/-- The task is not the one that runs. -/
def Machine.Suspended (L : Layout n) (m : Machine n) (t : Fin n) : Prop :=
  m.cpu.spsel = false ∨ m.cpu.mem (L.addr .TCBRunning) ≠ L.tcb t

instance (L : Layout n) (m : Machine n) (t : Fin n) : Decidable (m.Suspended L t) :=
  inferInstanceAs (Decidable (_ ∨ _))

/-- The context of a task. -/
def Machine.ctx (L : Layout n) (m : Machine n) (t : Fin n) : Option Ctx :=
  (m.stack t).map fun _ =>
    if m.Suspended L t then savedCtx m.cpu.stkalign m.cpu.mem (m.cpu.mem (L.tcb t)) else ctxOf m.cpu

/-- Where a task can have a stack. -/
def Area.Free (A : Area) (L : Layout n) (stack : Fin n → Option Area) : Prop :=
  A.hi ≤ 2 ^ 32 ∧ (∀ s, ¬ A.Has (L.addr s)) ∧ ∀ u B, stack u = some B → A.hi ≤ B.lo ∨ B.hi ≤ A.lo

structure Machine.Ok (L : Layout n) (m : Machine n) : Prop where
  thread : m.cpu.handler = false
  running : ∃ r, m.cpu.mem (L.addr .TCBRunning) = L.tcb r ∧ (m.stack r).isSome
  exit : m.cpu.mem (L.addr .INT_EXIT) = 0xFFFFFFFC
  area : ∀ t A, m.stack t = some A → A.Free L (update m.stack t none)
  frame : ∀ t A, m.stack t = some A → m.Suspended L t → Aligned (m.cpu.mem (L.tcb t)) ∧
    A.lo ≤ (m.cpu.mem (L.tcb t)).toNat ∧ (m.cpu.mem (L.tcb t)).toNat + 64 ≤ A.hi
  main : m.cpu.spsel = false → ∀ r, m.cpu.mem (L.addr .TCBRunning) = L.tcb r →
    m.cpu.psp = m.cpu.mem (L.tcb r) + 32

/-- What runs in thread mode, with the interrupts that come: the running task, or `main`. -/
structure Machine.Works (L : Layout n) (m : Machine n) (c : Cpu) : Prop where
  thread : c.handler = false
  spsel : c.spsel = m.cpu.spsel
  stkalign : c.stkalign = m.cpu.stkalign
  psp : m.cpu.spsel = false → c.psp = m.cpu.psp
  syms : ∀ s, s ≠ .TCBNext → s ≠ .OSSchedLock → c.mem (L.addr s) = m.cpu.mem (L.addr s)
  frames : ∀ t, (m.stack t).isSome → m.Suspended L t →
    ∀ a ∈ Span (m.cpu.mem (L.tcb t)) 16, c.mem a = m.cpu.mem a

/-- The words that no interrupt writes while the handler runs. -/
def Machine.Kept (L : Layout n) (m : Machine n) : Set Word :=
  {a | (∃ s, s ≠ .TCBNext ∧ s ≠ .OSSchedLock ∧ a = L.addr s) ∨
    (∃ t, (m.stack t).isSome ∧ m.Suspended L t ∧ a ∈ Span (m.cpu.mem (L.tcb t)) 16) ∨
      a ∈ Span (m.cpu.take.psp - 32) 16}

/-- What interrupts do while the handler runs. `Schedule` returns while `TCBNext` is not the running
    task. -/
structure Machine.Quiet (L : Layout n) (m : Machine n) (x y : Mem) : Prop where
  kept : ∀ a ∈ m.Kept L, y a = x a
  next : (∃ t, x (L.addr .TCBNext) = L.tcb t ∧ (m.stack t).isSome) →
    ∃ t, y (L.addr .TCBNext) = L.tcb t ∧ (m.stack t).isSome
  guard : x (L.addr .TCBRunning) ≠ x (L.addr .TCBNext) → y (L.addr .TCBNext) = x (L.addr .TCBNext)

/-- The exception can be taken: there is room for the frame, and a task to switch to. -/
structure Machine.Ready (L : Layout n) (m : Machine n) : Prop where
  primask : m.cpu.primask = false
  next : ∃ t, m.cpu.mem (L.addr .TCBNext) = L.tcb t ∧ (m.stack t).isSome
  task : m.cpu.spsel = true → ∀ r A, m.cpu.mem (L.addr .TCBRunning) = L.tcb r → m.stack r = some A →
    Aligned m.cpu.psp ∧ A.lo + 68 ≤ m.cpu.psp.toNat ∧ m.cpu.psp.toNat ≤ A.hi
  main : m.cpu.spsel = false →
    ∀ a ∈ Span (frameBelow m.cpu.stkalign m.cpu.msp) 8, (∀ s, a ≠ L.addr s) ∧
    ∀ t A, m.stack t = some A → ¬ A.Has a

/-- `CreateTask` makes the context of task `t` on a stack of its own. -/
def Machine.create (L : Layout n) (m : Machine n) (t : Fin n) (A : Area) (task param pstk : Word) :
    Machine n :=
  let x := InitTaskContext m.cpu.mem task param pstk
  ⟨m.cpu.withMem (update x.1 (L.tcb t) x.2), update m.stack t (some A)⟩

inductive Machine.Step (L : Layout n) (p : Port) (m : Machine n) : Machine n → Prop
  | works {c : Cpu} (h : m.Works L c) : Machine.Step L p m ⟨c, m.stack⟩
  | create {t : Fin n} {A : Area} {task param pstk : Word} (ht : m.stack t = none)
      (hr : m.cpu.mem (L.addr .TCBRunning) ≠ L.tcb t) (hA : A.Free L m.stack) (hp : Aligned pstk)
      (hlo : A.lo + 60 ≤ pstk.toNat) (hhi : pstk.toNat + 4 ≤ A.hi) :
        Machine.Step L p m (m.create L t A task param pstk)
  | delete {t : Fin n} (hr : m.cpu.mem (L.addr .TCBRunning) ≠ L.tcb t) :
      Machine.Step L p m ⟨m.cpu, update m.stack t none⟩
  | pendSV {c : Cpu} (hr : m.Ready L)
      (h : Runs (m.Quiet L) 0 (p.PendSV_Handler L) m.cpu.take (some c)) :
        Machine.Step L p m ⟨c, m.stack⟩

/-- The tasks that the machine shows. -/
structure Machine.Shows (L : Layout n) (m : Machine n) (a : Tasks n) : Prop where
  ctx : ∀ t, a.ctx t = m.ctx L t
  main : a.running = none → m.cpu.spsel = false
  task : ∀ r, a.running = some r → m.cpu.spsel = true ∧ m.cpu.mem (L.addr .TCBRunning) = L.tcb r

/-! ## Frames -/

section Frames

variable {c : Cpu}

theorem take_high : high.map c.take.reg = high.map c.reg :=
  List.map_congr_left fun r hr => take_reg fun e => absurd (e ▸ hr) (by decide)

/-- The stack pointer above the frame is the one before. -/
theorem frameAbove_below {al : Bool} {m : Mem} {sp x : Word} (h : Aligned sp)
    (hm : m (frameBelow al sp + 28) = setPad x (al && sp.toNat % 8 == 4)) :
    frameAbove al m (frameBelow al sp) = sp := by
  unfold frameAbove
  rw [hm, setPad_bit]
  unfold frameBelow
  unfold Aligned at h
  cases hb : al && sp.toNat % 8 == 4 with
  | true =>
    obtain ⟨ha, h4⟩ := Bool.and_eq_true_iff.mp hb
    have h4 : sp.toNat % 8 = 4 := beq_iff_eq.mp h4
    have h8 : (sp - 36 + 32).toNat % 8 = 0 := by bv_omega
    rw [if_pos rfl, if_pos (by rw [ha, h8]; rfl)]
    bv_omega
  | false =>
    rw [if_neg Bool.false_ne_true, Bool.and_false, Bool.false_and, if_neg Bool.false_ne_true]
    bv_omega

/-- The processor and the handler save the context of what runs on the process stack. -/
theorem savedCtx_take (hh : c.handler = false) (hs : c.spsel = true) (hp : Aligned c.psp) :
    savedCtx c.stkalign (storeWords c.take.mem (c.take.psp - 32) (high.map c.take.reg))
    (c.take.psp - 32) = ctxOf c := by
  have hsp : c.sp = c.psp := by
    unfold Cpu.sp
    rw [hs, hh]
    rfl
  have hf : c.take.psp = frameBelow c.stkalign c.psp := by rw [take_psp hh, if_pos hs]
  obtain ⟨f, ef⟩ : ∃ f, frameBelow c.stkalign c.psp = f := ⟨_, rfl⟩
  rw [take_mem, take_high, hf, hsp, ef]
  obtain ⟨m, em⟩ : ∃ m, storeWords (storeWords c.mem f c.frame) (f - 32) (high.map c.reg) = m :=
    ⟨_, rfl⟩
  have hlo : ∀ {k : Nat} (hk : k < 8), m (f - 32 + 4 * BitVec.ofNat 32 k) = (high.map c.reg)[k] :=
    fun hk =>
    em ▸ storeWords_at hk (by rw [List.length_map]; decide)
  have hhi : ∀ {k : Nat} (hk : k < 8), m (f - 32 + 4 * BitVec.ofNat 32 (k + 8)) = c.frame[k] :=
    fun {k} hk => by
    have e : f - 32 + 4 * BitVec.ofNat 32 (k + 8) = f + 4 * BitVec.ofNat 32 k := by
      rw [BitVec.ofNat_add]
      bv_omega
    have hoff : f - 32 + 4 * BitVec.ofNat 32 (k + 8) ∉ Span (f - 32) (high.map c.reg).length :=
      fun ⟨j, hj, e⟩ => by
      have hj : j < 8 := hj
      bv_omega
    rw [← em, storeWords_off hoff, e]
    exact storeWords_at hk (by show 8 ≤ 2 ^ 30; decide)
  rw [em]
  have h0 : m (f - 32) = c.reg R4 := by
    have : m (f - 32 + 4 * BitVec.ofNat 32 0) = c.reg R4 := hlo (by decide)
    rwa [show f - 32 + 4 * BitVec.ofNat 32 0 = f - 32 by bv_omega] at this
  have hreg : ∀ r, (savedCtx c.stkalign m (f - 32)).reg r = c.reg r := by
    intro r
    cases r with
    | R4 => exact h0
    | R5 => exact hlo (k := 1) (by decide)
    | R6 => exact hlo (k := 2) (by decide)
    | R7 => exact hlo (k := 3) (by decide)
    | R8 => exact hlo (k := 4) (by decide)
    | R9 => exact hlo (k := 5) (by decide)
    | R10 => exact hlo (k := 6) (by decide)
    | R11 => exact hlo (k := 7) (by decide)
    | R0 => exact hhi (k := 0) (by decide)
    | R1 => exact hhi (k := 1) (by decide)
    | R2 => exact hhi (k := 2) (by decide)
    | R3 => exact hhi (k := 3) (by decide)
    | R12 => exact hhi (k := 4) (by decide)
    | LR => exact hhi (k := 5) (by decide)
  have hpc : m (f - 32 + 56) = c.pc := hhi (k := 6) (by decide)
  have hx : m (f - 32 + 60) = setPad c.xpsr (c.stkalign && c.sp.toNat % 8 == 4) :=
    hhi (k := 7) (by decide)
  have ha : frameAbove c.stkalign m (f - 32 + 32) = c.psp := by
    rw [show f - 32 + 32 = frameBelow c.stkalign c.psp by rw [ef]; bv_omega]
    refine @frameAbove_below c.stkalign m c.psp c.xpsr hp ?_
    rw [ef, ← hsp, ← hx]
    congr 1
    bv_omega
  show (⟨(savedCtx c.stkalign m (f - 32)).reg, frameAbove c.stkalign m (f - 32 + 32),
    m (f - 32 + 56),
    setPad (m (f - 32 + 60)) false⟩ : Ctx) = _
  rw [funext hreg, ha, hpc, hx, setPad_setPad]
  rfl

/-- What is stored below a frame changes eight registers of the context. -/
theorem savedCtx_over {al : Bool} {m m' : Mem} {p : Word}
    (hk : ∀ k < 16, 8 ≤ k → m' (p + 4 * BitVec.ofNat 32 k) = m (p + 4 * BitVec.ofNat 32 k)) :
    (∀ q, q ∉ high → (savedCtx al m' p).reg q = (savedCtx al m p).reg q) ∧
      (savedCtx al m' p).sp = (savedCtx al m p).sp ∧ (savedCtx al m' p).pc = (savedCtx al m p).pc ∧
      (savedCtx al m' p).xpsr = (savedCtx al m p).xpsr := by
  have h15 : m' (p + 32 + 28) = m (p + 32 + 28) := by
    rw [show p + 32 + 28 = p + 4 * BitVec.ofNat 32 15 by bv_omega]
    exact hk 15 (by decide) (by decide)
  have h60 : m' (p + 60) = m (p + 60) := hk 15 (by decide) (by decide)
  refine ⟨fun q hq => ?_, frameAbove_like h15, hk 14 (by decide) (by decide),
    congrArg (fun w => setPad w false) h60⟩
  cases q with
  | R0 => exact hk 8 (by decide) (by decide)
  | R1 => exact hk 9 (by decide) (by decide)
  | R2 => exact hk 10 (by decide) (by decide)
  | R3 => exact hk 11 (by decide) (by decide)
  | R12 => exact hk 12 (by decide) (by decide)
  | LR => exact hk 13 (by decide) (by decide)
  | R4 | R5 | R6 | R7 | R8 | R9 | R10 | R11 => exact absurd (by decide) hq

end Frames

end CoOS
