/-
  What `PendSV_Handler` does, at every port and with interrupts between its instructions.

  The handler saves the registers of the running task below the frame that the processor has pushed,
  and loads those of the next (`pendSV_switches`); the three ports differ only in registers that the
  return overwrites. Interrupts leave the frames and the kernel's pointers alone, and `TCBNext` as
  long as it is not the running task: `Schedule` returns then.
-/
import CoOS.Port.Handlers

namespace CoOS

open Function (update)
open Thumb Thumb.Reg Thumb.Instr

/-- The registers that the handler saves. -/
def high : List Reg := [R4, R5, R6, R7, R8, R9, R10, R11]

variable {I : Mem → Mem → Prop} {A : Set Word} {e c d : Cpu}

/-! ## The parts -/

theorem runs_of {o : Option Cpu} {P : Cpu → Prop} (ho : o.isSome) (h : ∀ c, o = some c → P c) :
    ∃ c, o = some c ∧ P c := by
  obtain ⟨c, e⟩ := Option.isSome_iff_exists.mp ho
  exact ⟨c, e, h c e⟩

/-- What the handler leaves alone between the parts. -/
structure Spared (e c : Cpu) : Prop where
  cpu : c = { e with reg := c.reg, xpsr := c.xpsr, psp := c.psp, mem := c.mem }
  lr : c.reg LR = e.reg LR

/-- The registers are saved, and so is where. -/
structure Saved (e c : Cpu) : Prop extends Spared e c where
  mem : c.mem = update (storeWords e.mem (e.psp - 32) (high.map e.reg)) (e.reg R1) (e.psp - 32)
  r2 : c.reg R2 = e.reg R2
  r3 : c.reg R3 = e.reg R3

/-- The registers are loaded from the words that `R0` names. -/
structure Loaded (e c : Cpu) : Prop extends Spared e c where
  mem : c.mem = e.mem
  psp : c.psp = e.reg R0 + 32
  high : high.map c.reg = [0, 4, 8, 12, 16, 20, 24, 28].map fun k => e.mem (e.reg R0 + k)

theorem m3_save (hp : Aligned e.psp) (h1 : Aligned (e.reg R1)) (hI : ∀ m, Safe I A m) :
    Does I A (Port.save .m3) e (Saved e) := by
  refine ⟨by simp [Port.save, Calm, Instr.reads, Instr.exec, Instr.effect, hI],
    runs_of ?_ fun c h => ?_⟩
  · simp [Port.save, run, Instr.exec, Instr.effect, Cpu.set, hp, h1]
  · simp [Port.save, run, Instr.exec, Instr.effect, Cpu.set, hp, h1] at h
    subst h
    exact ⟨⟨rfl, rfl⟩, rfl, rfl, rfl⟩

theorem gccM0_save (hp : Aligned e.psp) (h1 : Aligned (e.reg R1)) (hI : ∀ m, Safe I A m)
    (hs : e.reg R1 ∉ Span (e.psp - 32) 8) :
    Does I A (Port.save .gccM0) e (Saved e) := by
  have h8 : Aligned (e.psp - 32#32) := aligned_sub hp 8
  have h4 : Aligned (e.psp - 32#32 + 16#32) := aligned_add h8 4
  have hst := storeWords_append [e.reg R4, e.reg R5, e.reg R6, e.reg R7] [e.reg R8, e.reg R9,
    e.reg R10, e.reg R11]
    (update e.mem (e.reg R1) (e.psp - 32)) (e.psp - 32)
  have hu : storeWords (update e.mem (e.reg R1) (e.psp - 32)) (e.psp - 32) (high.map e.reg) =
      update (storeWords e.mem (e.psp - 32) (high.map e.reg)) (e.reg R1) (e.psp - 32) :=
        storeWords_update hs
  refine ⟨by simp [Port.save, Calm, Instr.reads, Instr.exec, Instr.effect, Cpu.flagsSub, hI],
    runs_of ?_ fun c h => ?_⟩
  · simp [Port.save, run, Instr.exec, Instr.effect, Cpu.set, Cpu.flagsSub, h1, h8, h4]
  · simp [Port.save, run, Instr.exec, Instr.effect, Cpu.set, Cpu.flagsSub, h1, h8, h4] at h
    subst h
    exact ⟨⟨rfl, rfl⟩, hst.symm.trans hu, rfl, rfl⟩

theorem m3_load (h0 : Aligned (e.reg R0)) (hI : ∀ m, Safe I A m)
    (hA : ∀ a ∈ Span (e.reg R0) 8, a ∈ A) :
    Does I A (Port.load .m3) e (Loaded e) := by
  have h8 : wordOf (e.reg R0 + 32#32) = e.reg R0 + 32#32 := wordOf_aligned (aligned_add h0 8)
  refine ⟨by simp [Port.load, Calm, Instr.reads, Instr.exec, Instr.effect, hI]; exact hA,
    runs_of ?_ fun c h => ?_⟩
  · simp [Port.load, run, Instr.exec, Instr.effect, Cpu.set, Cpu.loadRegs, h0]
  · simp [Port.load, run, Instr.exec, Instr.effect, Cpu.set, Cpu.loadRegs, h0, h8] at h
    subst h
    refine ⟨⟨rfl, rfl⟩, rfl, rfl, ?_⟩
    simp [CoOS.high, BitVec.add_assoc]

theorem gccM0_load (h0 : Aligned (e.reg R0)) (hI : ∀ m, Safe I A m)
    (hA : ∀ a ∈ Span (e.reg R0) 8, a ∈ A) :
    Does I A (Port.load .gccM0) e (Loaded e) := by
  have h4 : Aligned (e.reg R0 + 16#32) := aligned_add h0 4
  have hz : e.reg R0 + 16#32 + 16#32 - 32#32 = e.reg R0 := by bv_omega
  have h8 : wordOf (e.reg R0 + 16#32 + 16#32) = e.reg R0 + 32#32 := by
    rw [show e.reg R0 + 16#32 + 16#32 = e.reg R0 + 32 by bv_omega]
    exact wordOf_aligned (aligned_add h0 8)
  have hA0 : ∀ a ∈ Span (e.reg R0) 4, a ∈ A := fun a ⟨k, hk, e⟩ => hA a ⟨k, by omega, e⟩
  have hA4 : ∀ a ∈ Span (e.reg R0 + 16#32) 4, a ∈ A := fun a ⟨k, hk, e⟩ =>
    hA a ⟨k + 4, by omega, by rw [e, BitVec.ofNat_add]; bv_omega⟩
  refine ⟨?_, runs_of ?_ fun c h => ?_⟩
  · simp [Port.load, Calm, Instr.reads, Instr.exec, Instr.effect, Cpu.flagsSub, Cpu.flagsAdd,
      Cpu.set, Cpu.loadRegs, hI, hz]
    exact ⟨hA4, fun _ => hA0⟩
  · simp [Port.load, run, Instr.exec, Instr.effect, Cpu.set, Cpu.flagsSub, Cpu.flagsAdd,
      Cpu.loadRegs, h0, h4, hz]
  · simp [Port.load, run, Instr.exec, Instr.effect, Cpu.set, Cpu.flagsSub, Cpu.flagsAdd,
      Cpu.loadRegs, h0, h4, hz, h8] at h
    subst h
    refine ⟨⟨rfl, rfl⟩, rfl, rfl, ?_⟩
    simp [CoOS.high, BitVec.add_assoc]

/-- What an exit does: the frame above the process stack pointer is popped. -/
structure Left (e c : Cpu) : Prop where
  cpu : ∃ g x, c = { e with reg := g, xpsr := x }.unstack true e.psp ∧ high.map g = high.map e.reg

theorem branch_fd {v : Word} (hh : e.handler = true) (hp : Aligned e.psp)
    (hv : 0xF0000000 ≤ v.toNat)
    (h2 : v.getLsbD 2 = true) : e.branch v = some (e.unstack true e.psp) := by
  unfold Cpu.branch
  rw [if_pos (by rw [hh, Bool.true_and, decide_eq_true hv]), h2]
  simp only [if_true, if_pos hp]

/-- The last instruction. -/
theorem bx_left {r : Reg} {c : Cpu} (hc : c = { e with reg := c.reg, xpsr := c.xpsr })
    (hg : high.map c.reg = high.map e.reg)
    (hh : e.handler = true) (hp : Aligned e.psp) (hI : ∀ m,
      Safe I A m) (hA : ∀ a ∈ Span e.psp 8, a ∈ A)
    (hv : 0xF0000000 ≤ (c.reg r).toNat) (h2 : (c.reg r).getLsbD 2 = true) :
    Does I A [.bx r] c (Left e) := by
  have hpsp : c.psp = e.psp := by rw [hc]
  have hb : c.branch (c.reg r) = some (c.unstack true e.psp) := by
    rw [branch_fd (by rw [hc]; exact hh) (hpsp ▸ hp) hv h2, hpsp]
  have hx : (Instr.bx r).exec c = some (0, c.unstack true e.psp) := by
    rw [@Instr.exec_eq c (.bx r) fun n h => nomatch h]
    show (c.branch (c.reg r)).map _ = _
    rw [hb]
    rfl
  refine ⟨⟨fun _ => hI _, ?_, fun x h => ?_⟩, c.unstack true e.psp, ?_, ⟨c.reg, c.xpsr, ?_, hg⟩⟩
  · intro a ha
    rw [Instr.reads, h2, if_pos rfl, hpsp] at ha
    exact hA a ha
  · cases hx.symm.trans h
    exact trivial
  · rw [run, hx]
    rfl
  · rw [← hc]

theorem m3_exit {n : Nat} (L : Layout n) (hh : e.handler = true) (hp : Aligned e.psp)
    (hI : ∀ m, Safe I A m)
    (hA : ∀ a ∈ Span e.psp 8, a ∈ A) (hl : e.reg LR = 0xFFFFFFFD ∨ e.reg LR = 0xFFFFFFF9) :
    Does I A (Port.exit L .m3) e (Left e) := by
  have hv : (e.set LR (e.reg LR ||| 4)).reg LR = 0xFFFFFFFD := by
    show e.reg LR ||| 4 = 0xFFFFFFFD
    rcases hl with h | h <;> rw [h] <;> decide
  obtain ⟨h1, h2⟩ := @bx_left I A e LR (e.set LR (e.reg LR ||| 4)) rfl rfl hh hp hI hA
    (by rw [hv]; decide) (by rw [hv]; decide)
  exact ⟨⟨fun _ => hI _, fun a ha => ha.elim, fun x hx => Option.some.inj hx ▸ h1⟩, h2⟩

theorem gccM0_exit {n : Nat} (L : Layout n) (hh : e.handler = true) (hp : Aligned e.psp)
    (hI : ∀ m, Safe I A m)
    (hA : ∀ a ∈ Span e.psp 8, a ∈ A) (hi : L.addr .INT_EXIT ∈ A)
    (hm : e.mem (L.addr .INT_EXIT) = 0xFFFFFFFC) :
    Does I A (Port.exit L .gccM0) e (Left e) := by
  obtain ⟨h1, h2⟩ :=
    @bx_left I A e R0 ((e.set R3 (L.addr .INT_EXIT)).set R0 (e.mem (L.addr .INT_EXIT))) rfl
      rfl hh hp hI hA
    (by show _ ≤ (e.mem _).toNat; rw [hm]; decide)
    (by show (e.mem _).getLsbD 2 = _; rw [hm]; decide)
  have hx : (Instr.ldr R0 R3).exec (e.set R3 (L.addr .INT_EXIT)) =
      some (0, (e.set R3 (L.addr .INT_EXIT)).set R0 (e.mem (L.addr .INT_EXIT))) := by
    simp [Instr.exec, Instr.effect, Cpu.set, L.aligned]
  refine ⟨⟨fun _ => hI _, fun a ha => ha.elim, fun x h => Option.some.inj h ▸ ⟨fun _ => hI _, ?_,
    fun y h => ?_⟩⟩, ?_⟩
  · rintro a rfl
    exact hi
  · exact Option.some.inj (hx.symm.trans h) ▸ h1
  · show ∃ c, ((Instr.ldr R0 R3).exec (e.set R3 (L.addr .INT_EXIT))).bind _ = some c ∧ _
    rw [hx]
    exact h2

theorem keilM0_exit {n : Nat} (L : Layout n) (hh : e.handler = true) (hp : Aligned e.psp)
    (hI : ∀ m, Safe I A m)
    (hA : ∀ a ∈ Span e.psp 8, a ∈ A) :
    Does I A (Port.exit L .keilM0) e (Left e) := by
  obtain ⟨x, hx⟩ : ∃ x, (((e.set R0 4).flagsNZ 4).set R0 (0 - 4)).flagsSub 0 4 =
      { e with reg := update (update e.reg R0 4) R0 (0 - 4), xpsr := x } := ⟨_, rfl⟩
  obtain ⟨h1, h2⟩ :=
    @bx_left I A e R0
      { e with reg := update (update e.reg R0 4) R0 (0 - 4), xpsr := x } rfl rfl hh hp hI hA
    (by show _ ≤ (0 - 4 : Word).toNat; decide) (by show (0 - 4 : Word).getLsbD 2 = _; decide)
  rw [← hx] at h1 h2
  exact ⟨⟨fun _ => hI _, fun a ha => ha.elim, fun x h => Option.some.inj h ▸ ⟨fun _ => hI _,
    fun a ha => ha.elim,
    fun y h => Option.some.inj h ▸ h1⟩⟩, h2⟩

theorem Port.save_spec (p : Port) (hp : Aligned e.psp) (h1 : Aligned (e.reg R1))
    (hI : ∀ m, Safe I A m)
    (hs : e.reg R1 ∉ Span (e.psp - 32) 8) : Does I A p.save e (Saved e) := by
  cases p with
  | m3 => exact m3_save hp h1 hI
  | gccM0 | keilM0 => exact gccM0_save hp h1 hI hs

theorem Port.load_spec (p : Port) (h0 : Aligned (e.reg R0)) (hI : ∀ m, Safe I A m)
    (hA : ∀ a ∈ Span (e.reg R0) 8, a ∈ A) :
    Does I A p.load e (Loaded e) := by
  cases p with
  | m3 => exact m3_load h0 hI hA
  | gccM0 | keilM0 => exact gccM0_load h0 hI hA

theorem Port.exit_spec {n : Nat} (p : Port) (L : Layout n) (hh : e.handler = true)
    (hp : Aligned e.psp)
    (hI : ∀ m, Safe I A m) (hA : ∀ a ∈ Span e.psp 8, a ∈ A)
    (hl : e.reg LR = 0xFFFFFFFD ∨ e.reg LR = 0xFFFFFFF9)
    (hi : L.addr .INT_EXIT ∈ A) (hm : e.mem (L.addr .INT_EXIT) = 0xFFFFFFFC) :
    Does I A (p.exit L) e (Left e) := by
  cases p with
  | m3 => exact m3_exit L hh hp hI hA hl
  | gccM0 => exact gccM0_exit L hh hp hI hA hi hm
  | keilM0 => exact keilM0_exit L hh hp hI hA

theorem Port.straight_save (p : Port) : Straight p.save := by
  intro i hi n h
  subst h
  cases p <;> simp [Port.save] at hi

theorem Port.straight_load (p : Port) : Straight p.load := by
  intro i hi n h
  subst h
  cases p <;> simp [Port.load] at hi

section Handler

variable {n : Nat} {L : Layout n}

theorem straight_clearLock : Straight (clearLock L) := by
  intro i hi n h
  subst h
  simp [clearLock] at hi

/-- The part of `readTasks` before `TCBNext` is read. -/
theorem readRunning_spec (hI : ∀ m, Safe I A m) (hr : L.addr .TCBRunning ∈ A) :
    Does I A [.ldrLit R3 (L.addr .TCBRunning), .ldr R1 R3, .ldrLit R2 (L.addr .TCBNext)] e fun c =>
      c = { e with reg := c.reg } ∧ c.reg R1 = e.mem (L.addr .TCBRunning) ∧
      c.reg R2 = L.addr .TCBNext ∧
      c.reg R3 = L.addr .TCBRunning ∧ c.reg LR = e.reg LR ∧ high.map c.reg = high.map e.reg := by
  refine ⟨?_, runs_of ?_ fun c h => ?_⟩
  · simpa [Calm, Instr.reads, Instr.exec, Instr.effect, Cpu.set, L.aligned, hI] using hr
  · simp [run, Instr.exec, Instr.effect, Cpu.set, L.aligned]
  · simp [run, Instr.exec, Instr.effect, Cpu.set, L.aligned] at h
    subst h
    exact ⟨rfl, rfl, rfl, rfl, rfl, rfl⟩

theorem cmp_spec (hI : ∀ m, Safe I A m) :
    Does I A [.cmp R1 R2] e fun c => ∃ x, c = { e with xpsr := x } ∧
    c.zero = (e.reg R1 == e.reg R2) :=
  ⟨⟨fun _ => hI _, fun _ ha => ha.elim, fun _ h => Option.some.inj h ▸ trivial⟩, _, rfl, _, rfl,
    zero_flagsSub⟩

theorem clearLock_spec (hI : ∀ m, Safe I A m) : Does I A (clearLock L) e fun c =>
    c = { e with reg := c.reg, xpsr := c.xpsr, mem := storeByte e.mem L.schedLock 0 } ∧
    c.reg LR = e.reg LR ∧ high.map c.reg = high.map e.reg := by
  refine ⟨by simp [clearLock, Calm, Instr.reads, Instr.exec, Instr.effect, hI], _, rfl,
    rfl, rfl, rfl⟩

/-- `TCBRunning = TCBNext`, and the stack pointer of the next task. -/
theorem store_next (h3 : e.reg R3 = L.addr .TCBRunning) {t : Fin n} (h2 : e.reg R2 = L.tcb t)
    (hI : ∀ m, Safe I A m)
    (hA : L.tcb t ∈ A) : Does I A [.str R2 R3, .ldr R0 R2] e fun c =>
      c = { e with reg := c.reg, mem := update e.mem (L.addr .TCBRunning) (L.tcb t) } ∧
      c.reg R0 = e.mem (L.tcb t) ∧ c.reg LR = e.reg LR := by
  have hne : L.tcb t ≠ L.addr .TCBRunning := fun e => nomatch L.inj e
  have hal : Aligned (L.tcb t) := L.aligned _
  refine ⟨?_, runs_of ?_ fun c h => ?_⟩
  · simpa [Calm, Instr.reads, Instr.exec, Instr.effect, h2, h3, hI, L.aligned] using hA
  · simp [run, Instr.exec, Instr.effect, h2, h3, L.aligned, hal]
  · simp [run, Instr.exec, Instr.effect, h2, h3, L.aligned, hal, Cpu.set, hne] at h
    subst h
    exact ⟨rfl, rfl, rfl⟩

theorem mem_span {p : Word} {k N : Nat} (hk : k < N) : p + 4 * BitVec.ofNat 32 k ∈ Span p N :=
  ⟨k, hk, rfl⟩

/-- The offsets of the registers that the handler saves. -/
theorem off_span {p k : Word} (hk : k ∈ [0, 4, 8, 12, 16, 20, 24, 28]) : p + k ∈ Span p 8 := by
  simp only [List.mem_cons, List.not_mem_nil, or_false] at hk
  rcases hk with rfl | rfl | rfl | rfl | rfl | rfl | rfl | rfl
  · exact ⟨0, by decide, rfl⟩
  · exact mem_span (by decide : 1 < 8)
  · exact mem_span (by decide : 2 < 8)
  · exact mem_span (by decide : 3 < 8)
  · exact mem_span (by decide : 4 < 8)
  · exact mem_span (by decide : 5 < 8)
  · exact mem_span (by decide : 6 < 8)
  · exact mem_span (by decide : 7 < 8)

/-- What is popped is the context that the frame holds. -/
theorem ctxOf_unstack {p : Word}
    (hg : high.map e.reg = [0, 4, 8, 12, 16, 20, 24, 28].map fun k => e.mem (p + k)) :
    ctxOf (e.unstack true (p + 32)) = savedCtx e.stkalign e.mem p := by
  simp [high] at hg
  obtain ⟨h4, h5, h6, h7, h8, h9, h10, h11⟩ := hg
  unfold ctxOf savedCtx Cpu.unstack
  simp [Cpu.setSp, Cpu.loadRegs, framed, BitVec.add_assoc]
  funext r
  cases r <;> simp [Cpu.set, h4, h5, h6, h7, h8, h9, h10, h11]

/-- So it is when the registers are still in place. -/
theorem ctxOf_unstack_of {p : Word} {m : Mem}
    (hg : high.map e.reg = [0, 4, 8, 12, 16, 20, 24, 28].map fun k => m (p + k))
    (hm : ∀ a ∈ Span (p + 32) 8, e.mem a = m a) :
    ctxOf (e.unstack true (p + 32)) = savedCtx e.stkalign m p := by
  have h : Like (Span (p + 32) 8) (e.withMem m) e := ⟨rfl, hm⟩
  have hu := @Like.unstack _ _ _ true (p + 32) h fun _ ha => ha
  rw [hu.cpu]
  exact @ctxOf_unstack (e.withMem m) p hg

theorem savedCtx_like {al : Bool} {m m' : Mem} {p : Word} (h : ∀ a ∈ Span p 16, m' a = m a) :
    savedCtx al m' p = savedCtx al m p := by
  have hk : ∀ k < 16, m' (p + 4 * BitVec.ofNat 32 k) = m (p + 4 * BitVec.ofNat 32 k) :=
    fun k hk => h _ (mem_span hk)
  have h0 : m' p = m p := by
    have := hk 0 (by decide)
    rwa [show p + 4 * BitVec.ofNat 32 0 = p by bv_omega] at this
  have h28 : m' (p + 32 + 28) = m (p + 32 + 28) := by
    rw [show p + 32 + 28 = p + 4 * BitVec.ofNat 32 15 by bv_omega]
    exact hk 15 (by decide)
  unfold savedCtx
  rw [frameAbove_like h28, show m' (p + 56) = m (p + 56) from hk 14 (by decide),
    show m' (p + 60) = m (p + 60) from hk 15 (by decide)]
  congr 1
  funext r
  cases r with
  | R4 => exact h0
  | R5 => exact hk 1 (by decide)
  | R6 => exact hk 2 (by decide)
  | R7 => exact hk 3 (by decide)
  | R8 => exact hk 4 (by decide)
  | R9 => exact hk 5 (by decide)
  | R10 => exact hk 6 (by decide)
  | R11 => exact hk 7 (by decide)
  | R0 => exact hk 8 (by decide)
  | R1 => exact hk 9 (by decide)
  | R2 => exact hk 10 (by decide)
  | R3 => exact hk 11 (by decide)
  | R12 => exact hk 12 (by decide)
  | LR => exact hk 13 (by decide)

theorem Layout.tcb_inj (L : Layout n) {r t : Fin n} (h : L.tcb r = L.tcb t) : r = t :=
  Sym.stkPtr.inj (L.inj h)

theorem Layout.wordOf_schedLock (L : Layout n) : wordOf L.schedLock = L.addr .OSSchedLock := by
  have h1 := L.aligned .OSSchedLock
  have h2 := L.lockOff_lt
  have h4 : (4 : BitVec 32).toNat = 4 := rfl
  unfold Aligned at h1
  have h0 : (L.addr .OSSchedLock + L.lockOff) % 4 = L.lockOff := by
    refine BitVec.eq_of_toNat_eq ?_
    rw [BitVec.toNat_umod, BitVec.toNat_add, h4]
    omega
  unfold wordOf Layout.schedLock
  rw [h0]
  bv_omega

/-- The memory after a switch from `r` to `t`, when nothing interrupts it. -/
def Layout.switched (L : Layout n) (e : Cpu) (r t : Fin n) : Mem :=
  storeByte (update (update (storeWords e.mem (e.psp - 32) (high.map e.reg)) (L.tcb r) (e.psp - 32))
    (L.addr .TCBRunning) (L.tcb t)) L.schedLock 0

/-- The memory after the switch but for the lock. -/
theorem Layout.switched_of (L : Layout n) {r t : Fin n} {a : Word} (h : a ≠ L.addr .OSSchedLock) :
    L.switched e r t a =
    update (update (storeWords e.mem (e.psp - 32) (high.map e.reg)) (L.tcb r) (e.psp - 32))
      (L.addr .TCBRunning) (L.tcb t) a := by
  unfold Layout.switched storeByte
  rw [L.wordOf_schedLock, Function.update_of_ne h]

/-- The other symbols are as before. -/
theorem Layout.switched_sym (L : Layout n) {r t : Fin n} {s : Sym n}
    (hq : L.addr s ∉ Span (e.psp - 32) 8)
    (h1 : s ≠ .OSSchedLock) (h2 : s ≠ .TCBRunning) (h3 : s ≠ .stkPtr r) :
    L.switched e r t (L.addr s) = e.mem (L.addr s) := by
  have hr : L.addr s ≠ L.tcb r := L.inj.ne h3
  have hq' : L.addr s ∉ Span (e.psp - 32) (high.map e.reg).length := hq
  rw [L.switched_of (L.inj.ne h1), Function.update_of_ne (L.inj.ne h2), Function.update_of_ne hr,
    storeWords_off hq']

/-- The switch itself. -/
theorem Port.switch_run (p : Port) {r t : Fin n} (hI : ∀ m, Safe I A m) (hh : e.handler = true)
    (hl : e.reg LR = 0xFFFFFFFD ∨ e.reg LR = 0xFFFFFFF9) (h1 : e.reg R1 = L.tcb r)
    (h2 : e.reg R2 = L.tcb t)
    (h3 : e.reg R3 = L.addr .TCBRunning) (hz : e.zero = false) (hrt : r ≠ t) (hp : Aligned e.psp)
    (hq : ∀ s, L.addr s ∉ Span (e.psp - 32) 8) (ht : Aligned (e.mem (L.tcb t)))
    (hi : e.mem (L.addr .INT_EXIT) = 0xFFFFFFFC)
    (hlock : L.addr .OSSchedLock ∉ Span (e.mem (L.tcb t)) 8)
    (hA : L.tcb t ∈ A) (hAi : L.addr .INT_EXIT ∈ A) (hAt : ∀ a ∈ Span (e.mem (L.tcb t)) 16, a ∈ A) :
    Does I A (.beq p.switch.length :: (p.switch ++ (clearLock L ++ p.exit L))) e fun c => c.mem =
    L.switched e r t ∧
      ctxOf c = savedCtx e.stkalign (L.switched e r t) (e.mem (L.tcb t)) ∧
      c.handler = false ∧ c.spsel = true ∧ c.primask = e.primask ∧ c.stkalign = e.stkalign := by
  refine Does.missed hz (hI _) ?_
  rw [Port.switch, List.append_assoc, List.append_assoc]
  refine (p.save_spec hp (h1 ▸ L.aligned _) hI (h1 ▸ hq _)).seq p.straight_save fun c1 s1 => ?_
  have htq : L.tcb t ∉ Span (e.psp - 32) (high.map e.reg).length := hq (.stkPtr t)
  have hne : L.tcb t ≠ L.tcb r := fun e => hrt (L.tcb_inj e).symm
  have hm1 : c1.mem (L.tcb t) = e.mem (L.tcb t) := by
    rw [s1.mem, h1, Function.update_of_ne hne, storeWords_off htq]
  refine (store_next (s1.r3.trans h3) (s1.r2.trans h2) hI hA).seq (by simp [Straight])
    fun c2 ⟨e2, r2, l2⟩ => ?_
  rw [hm1] at r2
  refine (p.load_spec (r2 ▸ ht) hI (r2 ▸ fun a ⟨k, hk, e⟩ => hAt a ⟨k, by omega, e⟩)).seq
    p.straight_load fun c3 s3 => ?_
  refine (clearLock_spec hI).seq straight_clearLock fun c4 ⟨e4, l4, g4⟩ => ?_
  have hp3 : c3.psp = e.mem (L.tcb t) + 32 := by rw [s3.psp, r2]
  have hp4 : c4.psp = e.mem (L.tcb t) + 32 := by rw [e4, hp3]
  have hm4 : c4.mem = L.switched e r t := by
    rw [e4, s3.mem, e2, s1.mem, h1]
    rfl
  have hi4 : c4.mem (L.addr .INT_EXIT) = 0xFFFFFFFC := by
    rw [hm4, L.switched_sym (hq _) (by simp) (by simp) (by simp), hi]
  have hh4 : c4.handler = true := by
    rw [e4, s3.cpu, e2, s1.cpu]
    exact hh
  have hl4 : c4.reg LR = e.reg LR := by rw [l4, s3.lr, l2, s1.lr]
  have hg : high.map c4.reg = [0, 4, 8, 12, 16, 20, 24, 28].map fun k =>
    c4.mem (e.mem (L.tcb t) + k) := by
    rw [g4, s3.high, r2]
    refine List.map_congr_left fun k hk => ?_
    have hne : e.mem (L.tcb t) + k ≠ L.addr .OSSchedLock := fun h => hlock (h ▸ off_span hk)
    rw [e4]
    show c2.mem _ = storeByte c3.mem L.schedLock 0 _
    unfold storeByte
    rw [L.wordOf_schedLock, Function.update_of_ne hne, s3.mem]
  have hA8 : ∀ a ∈ Span c4.psp 8, a ∈ A := fun a ⟨k, hk, e⟩ =>
    hAt a ⟨k + 8, by omega, by rw [e, hp4, BitVec.ofNat_add]; bv_omega⟩
  have hx := p.exit_spec L hh4 (hp4 ▸ aligned_add ht 8) hI hA8 (hl4 ▸ hl) hAi hi4
  obtain ⟨c5, e5, ⟨g, x, rfl, hgx⟩⟩ := hx.ends
  refine ⟨hx.calm, _, e5, ?_⟩
  have hal : c4.stkalign = e.stkalign := by rw [e4, s3.cpu, e2, s1.cpu]
  have hpm : c4.primask = e.primask := by rw [e4, s3.cpu, e2, s1.cpu]
  refine ⟨hm4, ?_, rfl, rfl, hpm, hal⟩
  rw [hp4, ctxOf_unstack (hgx.trans hg)]
  show savedCtx c4.stkalign c4.mem _ = _
  rw [hal, hm4]

/-- Registers that are stored are found there. -/
theorem stored_high (m : Mem) (q : Word) (v : Reg → Word) :
    high.map v = [0, 4, 8, 12, 16, 20, 24, 28].map fun k =>
    storeWords m q (high.map v) (q + k) := by
  have h : ∀ {k : Nat} (hk : k < 8), storeWords m q (high.map v) (q + 4 * BitVec.ofNat 32 k) =
    (high.map v)[k] :=
    fun hk => storeWords_at hk (by rw [List.length_map]; decide)
  have h0 : storeWords m q (high.map v) (q + 0) = v R4 := h (by decide : 0 < 8)
  have h1 : storeWords m q (high.map v) (q + 4) = v R5 := h (by decide : 1 < 8)
  have h2 : storeWords m q (high.map v) (q + 8) = v R6 := h (by decide : 2 < 8)
  have h3 : storeWords m q (high.map v) (q + 12) = v R7 := h (by decide : 3 < 8)
  have h4 : storeWords m q (high.map v) (q + 16) = v R8 := h (by decide : 4 < 8)
  have h5 : storeWords m q (high.map v) (q + 20) = v R9 := h (by decide : 5 < 8)
  have h6 : storeWords m q (high.map v) (q + 24) = v R10 := h (by decide : 6 < 8)
  have h7 : storeWords m q (high.map v) (q + 28) = v R11 := h (by decide : 7 < 8)
  simp only [List.map_cons, List.map_nil, h0, h1, h2, h3, h4, h5, h6, h7]
  rfl

/-- The words above those that the handler saves. -/
theorem span_above {q a : Word} (h : a ∈ Span (q + 32) 8) : a ∉ Span q 8 := by
  obtain ⟨i, hi, rfl⟩ := h
  rintro ⟨j, hj, e⟩
  bv_omega

theorem span_upper {q a : Word} (h : a ∈ Span q 16) (hn : a ∉ Span q 8) : a ∈ Span (q + 32) 8 := by
  obtain ⟨i, hi, rfl⟩ := h
  have h8 : 8 ≤ i := Nat.le_of_not_lt fun h => hn (mem_span h)
  exact ⟨i - 8, by omega, by bv_omega⟩

/-- Without a switch the frame of the running task is popped again. -/
theorem Port.same_run (p : Port) (hI : ∀ m, Safe I A m) (hh : e.handler = true)
    (hl : e.reg LR = 0xFFFFFFFD ∨ e.reg LR = 0xFFFFFFF9) (hz : e.zero = true) (hp : Aligned e.psp)
    (hi : e.mem (L.addr .INT_EXIT) = 0xFFFFFFFC) (hAi : L.addr .INT_EXIT ∈ A)
    (hA : ∀ a ∈ Span e.psp 8, a ∈ A)
    (hlock : L.addr .OSSchedLock ∉ Span e.psp 8) :
    Does I A (.beq p.switch.length :: (p.switch ++ (clearLock L ++ p.exit L))) e fun c =>
      c.mem = storeByte e.mem L.schedLock 0 ∧
      ctxOf c = savedCtx e.stkalign (storeWords e.mem (e.psp - 32) (high.map e.reg)) (e.psp - 32) ∧
      c.handler = false ∧ c.spsel = true ∧ c.primask = e.primask ∧ c.stkalign = e.stkalign := by
  refine Does.taken hz (hI _) ((clearLock_spec hI).seq straight_clearLock fun c1 ⟨e1, l1, g1⟩ => ?_)
  have hp1 : c1.psp = e.psp := by rw [e1]
  have hh1 : c1.handler = true := by
    rw [e1]
    exact hh
  have hi1 : c1.mem (L.addr .INT_EXIT) = 0xFFFFFFFC := by
    have hne : L.addr .INT_EXIT ≠ L.addr .OSSchedLock := L.inj.ne (by simp)
    rw [e1]
    show storeByte e.mem L.schedLock 0 _ = _
    unfold storeByte
    rw [L.wordOf_schedLock, Function.update_of_ne hne, hi]
  have hx := p.exit_spec L hh1 (hp1 ▸ hp) hI (hp1 ▸ hA) (l1 ▸ hl) hAi hi1
  obtain ⟨c2, e2, ⟨g, x, rfl, hgx⟩⟩ := hx.ends
  refine ⟨hx.calm, _, e2, ?_⟩
  have hal : c1.stkalign = e.stkalign := by rw [e1]
  have hpm : c1.primask = e.primask := by rw [e1]
  refine ⟨by rw [unstack_mem, e1], ?_, rfl, rfl, hpm, hal⟩
  have hpq : c1.psp = e.psp - 32 + 32 := by
    rw [hp1]
    bv_omega
  have hg := (hgx.trans g1).trans (stored_high e.mem (e.psp - 32) e.reg)
  refine (congrArg (fun w => ctxOf (({ c1 with reg := g, xpsr := x } : Cpu).unstack true w))
    hpq).trans ?_
  refine (@ctxOf_unstack_of { c1 with reg := g, xpsr := x } (e.psp - 32) _ hg fun a ha => ?_).trans
    (congrArg (fun b => savedCtx b _ _) hal)
  have hne : a ≠ L.addr .OSSchedLock := by
    rintro rfl
    rw [← hpq, hp1] at ha
    exact hlock ha
  have haq : a ∉ Span (e.psp - 32) (high.map e.reg).length := span_above ha
  rw [storeWords_off haq, e1]
  show storeByte e.mem L.schedLock 0 a = _
  unfold storeByte
  rw [L.wordOf_schedLock, Function.update_of_ne hne]

/-- The handler after `TCBNext` has been read, as task `t`. -/
theorem Port.rest_switches (p : Port) {r t : Fin n} {o : Option Cpu} (hI : ∀ m, Safe I A m)
    (hh : d.handler = true)
    (hl : d.reg LR = 0xFFFFFFFD ∨ d.reg LR = 0xFFFFFFF9) (h1 : d.reg R1 = L.tcb r)
    (h2 : d.reg R2 = L.tcb t)
    (h3 : d.reg R3 = L.addr .TCBRunning) (hp : Aligned d.psp)
    (hq : ∀ s, L.addr s ∉ Span (d.psp - 32) 8)
    (hi : d.mem (L.addr .INT_EXIT) = 0xFFFFFFFC) (hAi : L.addr .INT_EXIT ∈ A)
    (hAp : ∀ a ∈ Span d.psp 8, a ∈ A)
    (hlp : L.addr .OSSchedLock ∉ Span d.psp 8)
    (ht : t ≠ r → Aligned (d.mem (L.tcb t)) ∧ L.addr .OSSchedLock ∉ Span (d.mem (L.tcb t)) 8 ∧
      L.tcb t ∈ A ∧
      ∀ a ∈ Span (d.mem (L.tcb t)) 16, a ∈ A)
    (h : Runs I 0 (.cmp R1 R2 :: .beq p.switch.length :: (p.switch ++ (clearLock L ++ p.exit L))) d
      o) :
    ∃ c, o = some c ∧ c.handler = false ∧ c.spsel = true ∧ c.primask = d.primask ∧
    c.stkalign = d.stkalign ∧
      (t = r → (∀ a ∈ A, a ≠ L.addr .OSSchedLock → c.mem a = d.mem a) ∧
        ctxOf c =
        savedCtx d.stkalign (storeWords d.mem (d.psp - 32) (high.map d.reg)) (d.psp - 32)) ∧
      (t ≠ r → (∀ a ∈ A, c.mem a = L.switched d r t a) ∧
        ctxOf c = savedCtx d.stkalign (L.switched d r t) (d.mem (L.tcb t))) := by
  have hc : Straight [Instr.cmp R1 R2] := by simp [Straight]
  by_cases e : t = r
  · have hs : Does I A
      ([.cmp R1 R2] ++ .beq p.switch.length :: (p.switch ++ (clearLock L ++ p.exit L))) d fun c =>
        c.mem = storeByte d.mem L.schedLock 0 ∧
        ctxOf c = savedCtx d.stkalign (storeWords d.mem (d.psp - 32) (high.map d.reg))
          (d.psp - 32) ∧
        c.handler = false ∧ c.spsel = true ∧ c.primask = d.primask ∧ c.stkalign = d.stkalign := by
      refine (cmp_spec hI).seq hc ?_
      rintro c ⟨x, rfl, hz⟩
      exact p.same_run hI hh hl (hz.trans (by rw [h1, h2, e, beq_self_eq_true])) hp hi hAi hAp hlp
    obtain ⟨c1, d1, ⟨hm, hx, f1, f2, f3, f4⟩, rfl, hlike⟩ := hs.runs Like.refl h
    rw [hlike.cpu]
    refine ⟨_, rfl, f1, f2, f3, f4, fun _ => ⟨fun a ha hne => ?_, hx⟩, fun h => absurd e h⟩
    show d1.mem a = _
    rw [hlike.mem a ha, hm]
    unfold storeByte
    rw [L.wordOf_schedLock, Function.update_of_ne hne]
  · obtain ⟨ht1, ht2, ht3, ht4⟩ := ht e
    have hne : L.tcb r ≠ L.tcb t := fun h => e (L.tcb_inj h).symm
    have hs : Does I A
      ([.cmp R1 R2] ++ .beq p.switch.length :: (p.switch ++ (clearLock L ++ p.exit L))) d fun c =>
        c.mem = L.switched d r t ∧
          ctxOf c = savedCtx d.stkalign (L.switched d r t) (d.mem (L.tcb t)) ∧
        c.handler = false ∧ c.spsel = true ∧ c.primask = d.primask ∧ c.stkalign = d.stkalign := by
      refine (cmp_spec hI).seq hc ?_
      rintro c ⟨x, rfl, hz⟩
      exact p.switch_run hI hh hl h1 h2 h3
        (hz.trans (by rw [h1, h2, beq_eq_false_iff_ne]; exact hne)) (Ne.symm e) hp hq
        ht1 hi ht2 ht3 hAi ht4
    obtain ⟨c1, d1, ⟨hm, hx, f1, f2, f3, f4⟩, rfl, hlike⟩ := hs.runs Like.refl h
    rw [hlike.cpu]
    refine ⟨_, rfl, f1, f2, f3, f4, fun h => absurd h e, fun _ => ⟨fun a ha => ?_, hx⟩⟩
    show d1.mem a = _
    rw [hlike.mem a ha, hm]

/-- What the handler leaves depends only on the registers, and on the memory where it is looked
    at. -/
theorem switched_like {r t : Fin n} (hp : d.psp = e.psp) (hg : high.map d.reg = high.map e.reg)
    (hm : ∀ a ∈ A, d.mem a = e.mem a) : ∀ a ∈ A, L.switched d r t a = L.switched e r t a := by
  unfold Layout.switched
  rw [hp, hg]
  exact storeByte_like (update_like (update_like (storeWords_like _ _ hm)))

/-- **The handler with interrupts.** Between its instructions they may change all but the words of
    `A`; `TCBNext` may change too, as long as the memory keeps `G`, under which it names a task of
    `P`. The handler does not fault and switches to such a task. -/
theorem Port.handler_switches (p : Port) {r : Fin n} {G : Mem → Prop} {P : Fin n → Prop}
    {o : Option Cpu}
    (hI : ∀ m, Safe I A m) (hG : ∀ m m', G m → I m m' → G m') (hGe : G e.mem)
    (hP : ∀ m, G m → ∃ t, P t ∧ m (L.addr .TCBNext) = L.tcb t) (hh : e.handler = true)
    (hl : e.reg LR = 0xFFFFFFFD ∨ e.reg LR = 0xFFFFFFF9) (hr : e.mem (L.addr .TCBRunning) = L.tcb r)
    (hp : Aligned e.psp) (hq : ∀ s, L.addr s ∉ Span (e.psp - 32) 8)
    (hi : e.mem (L.addr .INT_EXIT) = 0xFFFFFFFC)
    (hAr : L.addr .TCBRunning ∈ A) (hAi : L.addr .INT_EXIT ∈ A) (hAp : ∀ a ∈ Span e.psp 8, a ∈ A)
    (hlp : L.addr .OSSchedLock ∉ Span e.psp 8)
    (hAt : ∀ t, P t → t ≠ r → Aligned (e.mem (L.tcb t)) ∧
      L.addr .OSSchedLock ∉ Span (e.mem (L.tcb t)) 8 ∧ L.tcb t ∈ A ∧
      ∀ a ∈ Span (e.mem (L.tcb t)) 16, a ∈ A)
    (h : Runs I 0 (p.PendSV_Handler L) e o) :
    ∃ c t, o = some c ∧ P t ∧ c.handler = false ∧ c.spsel = true ∧ c.primask = e.primask ∧
    c.stkalign = e.stkalign ∧
      (t = r → (∀ a ∈ A, a ≠ L.addr .OSSchedLock → c.mem a = e.mem a) ∧
        ctxOf c =
        savedCtx e.stkalign (storeWords e.mem (e.psp - 32) (high.map e.reg)) (e.psp - 32)) ∧
      (t ≠ r → (∀ a ∈ A, c.mem a = L.switched e r t a) ∧
        ctxOf c = savedCtx e.stkalign (L.switched e r t) (e.mem (L.tcb t))) := by
  have h0 := @readRunning_spec I A e n L hI hAr
  have h : Runs I 0 ([.ldrLit R3 (L.addr .TCBRunning), .ldr R1 R3, .ldrLit R2 (L.addr .TCBNext)] ++
    .ldr R2 R2 ::
      .cmp R1 R2 :: .beq p.switch.length :: (p.switch ++ (clearLock L ++ p.exit L))) e o := h
  obtain ⟨-, h1⟩ | ⟨d1, h1, h2⟩ := Runs.append (by simp [Straight]) h
  · obtain ⟨_, _, -, e1, -⟩ := h0.runs Like.refl h1
    cases e1
  obtain ⟨c1, d1', ⟨ec, g1, g2, g3, g4, g5⟩, e1, hlike⟩ := h0.runs Like.refl h1
  cases e1
  have hG1 : G d1.mem := h1.keep hG (by simp [Instr.writes]) hGe _ rfl
  have hreg : d1.reg = c1.reg := by rw [hlike.cpu]
  have hx : ∀ m, (Instr.ldr R2 R2).exec (d1.withMem m) =
      some (0, (d1.withMem m).set R2 (m (L.addr .TCBNext))) := by
    intro m
    simp [Instr.exec, Instr.effect, hreg, g2, L.aligned]
  cases h2 with
  | fault hm he => cases (hx _).symm.trans he
  | @exec _ _ _ c2 m k _ hm he h3 =>
    cases (hx m).symm.trans he
    obtain ⟨t, hPt, ht⟩ := hP m (hm.keep hG hG1)
    have hlm := hlike.between (fun _ => hI _) hm
    have hmA : ∀ a ∈ A, m a = e.mem a := fun a ha => by
      have := hlm.mem a ha
      rwa [ec] at this
    have hpsp : d1.psp = e.psp := by rw [hlike.cpu, ec]
    have hal : d1.stkalign = e.stkalign := by rw [hlike.cpu, ec]
    have hpm : d1.primask = e.primask := by rw [hlike.cpu, ec]
    have hhd : d1.handler = true := by
      rw [hlike.cpu, ec]
      exact hh
    have hmp : ∀ t, P t → t ≠ r → m (L.tcb t) = e.mem (L.tcb t) :=
      fun t hP hne => hmA _ (hAt t hP hne).2.2.1
    have hg : high.map ((d1.withMem m).set R2 (m (L.addr .TCBNext))).reg = high.map e.reg := by
      rw [← g5, ← hreg]
      rfl
    have hld : d1.reg LR = 0xFFFFFFFD ∨ d1.reg LR = 0xFFFFFFF9 := by
      rw [hreg, g4]
      exact hl
    have hat : t ≠ r → Aligned (m (L.tcb t)) ∧ L.addr .OSSchedLock ∉ Span (m (L.tcb t)) 8 ∧
      L.tcb t ∈ A ∧
        ∀ a ∈ Span (m (L.tcb t)) 16, a ∈ A := fun h => by
      rw [hmp t hPt h]
      exact hAt t hPt h
    obtain ⟨c, rfl, f1, f2, f3, f4, hs, hsw⟩ :=
      @Port.rest_switches I A ((d1.withMem m).set R2 (m (L.addr .TCBNext))) n L
      p r t o hI hhd hld ((congrFun hreg R1).trans (g1.trans hr)) ht ((congrFun hreg R3).trans g3)
        (hpsp ▸ hp) (hpsp ▸ hq)
      ((hmA _ hAi).trans hi) hAi (hpsp ▸ hAp) (hpsp ▸ hlp) hat h3
    refine ⟨c, t, rfl, hPt, f1, f2, f3.trans hpm, f4.trans hal, fun h => ?_, fun h => ?_⟩
    · obtain ⟨hm1, hc1⟩ := hs h
      refine ⟨fun a ha hne => (hm1 a ha hne).trans (hmA a ha), hc1.trans ?_⟩
      show savedCtx d1.stkalign (storeWords m (d1.psp - 32) (high.map _)) (d1.psp - 32) = _
      rw [hg, hpsp, hal]
      refine savedCtx_like fun a ha => storeWords_over _ _ fun hn => hmA a (hAp a ?_)
      have := span_upper ha hn
      rwa [show e.psp - 32 + 32 = e.psp by bv_omega] at this
    · obtain ⟨hm2, hc2⟩ := hsw h
      have hlike2 :=
        @switched_like A e ((d1.withMem m).set R2 (m (L.addr .TCBNext))) n L r t hpsp hg hmA
      refine ⟨fun a ha => (hm2 a ha).trans (hlike2 a ha), hc2.trans ?_⟩
      show savedCtx d1.stkalign _ (m (L.tcb t)) = _
      rw [hmp t hPt h, hal]
      exact savedCtx_like fun a ha => hlike2 a ((hAt t hPt h).2.2.2 a ha)

end Handler

end CoOS
