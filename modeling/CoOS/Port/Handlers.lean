/-
  The ports: `PendSV_Handler` of the compilers and chips that the kernel is built for, `Inc8` and
  `Dec8`, `SetEnvironment`, and the context of a new task that `InitTaskContext` makes.

  GCC, Keil and IAR write the same handler for Cortex-M3 (and M4); on Cortex-M0, where only `R4` to
  `R7` are stored at once, GCC returns with the value of the variable `INT_EXIT`, Keil and IAR with
  a constant. The three differ in how they save, load and return.
-/
import CoOS.Lib.Thumb

namespace CoOS

open Function (update)
open Thumb Thumb.Reg Thumb.Instr

/-- The words that the ports read and write by name, in a kernel of `n` tasks. The stack pointer is
    the first field of `TCBTbl[t]`, so that `&TCBTbl[t]` is the address of `stkPtr t`. -/
inductive Sym (n : Nat) where
  | TCBRunning | TCBNext | OSSchedLock | INT_EXIT
  | stkPtr (t : Fin n)
  deriving DecidableEq

/-- Where the linker puts them. `OSSchedLock` is a byte, at `lockOff` in its word. -/
structure Layout (n : Nat) where
  addr : Sym n → Word
  inj : Function.Injective addr
  aligned : ∀ s, Aligned (addr s)
  lockOff : Word
  lockOff_lt : lockOff.toNat < 4

/-- `&TCBTbl[t]`. -/
def Layout.tcb {n : Nat} (L : Layout n) (t : Fin n) : Word := L.addr (.stkPtr t)

/-- `&OSSchedLock`. -/
def Layout.schedLock {n : Nat} (L : Layout n) : Word := L.addr .OSSchedLock + L.lockOff

/-- `CFG_CHIP_TYPE` 1, and `CFG_CHIP_TYPE` 2 as GCC has it, and as Keil and IAR have it. -/
inductive Port where
  | m3 | gccM0 | keilM0
  deriving DecidableEq

/-- `R4` to `R11` are saved below the frame of the running task, whose `TCB` is in `R1`. -/
def Port.save : Port → List Instr
  | m3 => [.mrs R0, .stmdb R0 [R4, R5, R6, R7, R8, R9, R10, R11], .str R0 R1]
  | gccM0 | keilM0 =>
    [.mrs R0, .subs R0 32, .str R0 R1, .stmia R0 [R4, R5, R6, R7], .mov R4 R8, .mov R5 R9,
      .mov R6 R10, .mov R7 R11,
      .stmia R0 [R4, R5, R6, R7]]

/-- They are loaded from the words that `R0` names. -/
def Port.load : Port → List Instr
  | m3 => [.ldmia R0 [R4, R5, R6, R7, R8, R9, R10, R11], .msr R0]
  | gccM0 | keilM0 =>
    [.adds R0 16, .ldmia R0 [R4, R5, R6, R7], .mov R8 R4, .mov R9 R5, .mov R10 R6, .mov R11 R7,
      .subs R0 32,
      .ldmia R0 [R4, R5, R6, R7], .adds R0 16, .msr R0]

/-- The return from the exception. -/
def Port.exit {n : Nat} (L : Layout n) : Port → List Instr
  | m3 => [.orr LR 4, .bx LR]
  | gccM0 => [.ldrLit R3 (L.addr .INT_EXIT), .ldr R0 R3, .bx R0]
  | keilM0 => [.movs R0 4, .rsbs R0, .bx R0]

/-- The body of `PendSV_Handler`, which `BEQ exitPendSV` skips. -/
def Port.switch (p : Port) : List Instr := p.save ++ [.str R2 R3, .ldr R0 R2] ++ p.load

/-- The running task in `R1` and the next in `R2`. -/
def readTasks {n : Nat} (L : Layout n) : List Instr :=
  [.ldrLit R3 (L.addr .TCBRunning), .ldr R1 R3, .ldrLit R2 (L.addr .TCBNext),
    .ldr R2 R2, .cmp R1 R2]

/-- `OSSchedLock = 0`. -/
def clearLock {n : Nat} (L : Layout n) :
    List Instr := [.ldrLit R3 L.schedLock, .movs R0 0, .strb R0 R3]

/-- `PendSV_Handler`. -/
def Port.PendSV_Handler {n : Nat} (p : Port) (L : Layout n) : List Instr :=
  readTasks L ++ .beq p.switch.length :: (p.switch ++ (clearLock L ++ p.exit L))

/-- `Inc8`, of a byte at the address in `R0`. -/
def Inc8 : List Instr :=
  [.push R1, .cpsid, .ldrb R1 R0, .adds R1 1, .strb R1 R0, .cpsie, .subs R1 1, .movsReg R0 R1,
    .pop R1, .bx LR]

/-- `Dec8`. -/
def Dec8 : List Instr :=
  [.push R1, .cpsid, .ldrb R1 R0, .subs R1 1, .strb R1 R0, .cpsie, .movsReg R0 R1, .pop R1, .bx LR]

/-- `SetEnvironment`. -/
def SetEnvironment : List Instr := [.subs R0 28, .msr R0, .bx LR]

/-- `InitTaskContext`: the memory, and the location of the new stack top. -/
def InitTaskContext (m : Mem) (task param pstk : Word) : Mem × Word :=
  let context := pstk
  let m := update m context 0x01000000
  let context := context - 4
  let m := update m context task
  let context := context - 4
  let m := update m context 0xFFFFFFFE
  let context := context - 20
  let m := update m context param
  let context := context - 32
  (m, context)

/-! ## Contexts -/

/-- What a task finds in the registers. -/
structure Ctx where
  reg : Reg → Word
  sp : Word
  pc : Word
  xpsr : Word

/-- The context of what runs on the process stack. -/
def ctxOf (c : Cpu) : Ctx := ⟨c.reg, c.psp, c.pc, setPad c.xpsr false⟩

/-- The context that the sixteen words at `p` hold: eight that the handler saves, eight that the
    processor pushes. -/
def savedCtx (al : Bool) (m : Mem) (p : Word) : Ctx where
  reg
    | R4 => m p | R5 => m (p + 4) | R6 => m (p + 8) | R7 => m (p + 12)
    | R8 => m (p + 16) | R9 => m (p + 20) | R10 => m (p + 24) | R11 => m (p + 28)
    | R0 => m (p + 32) | R1 => m (p + 36) | R2 => m (p + 40) | R3 => m (p + 44)
    | R12 => m (p + 48) | LR => m (p + 52)
  sp := frameAbove al m (p + 32)
  pc := m (p + 56)
  xpsr := setPad (m (p + 60)) false

end CoOS
