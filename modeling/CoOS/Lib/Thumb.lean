/-
  The part of the ARMv6-M and ARMv7-M architectures in which the ports of a small kernel are
  written: the registers, a memory of words, some thirty instructions, and what the processor does
  itself when an exception is taken and when a handler returns. Nothing here is about a kernel.

  `Runs I l c c'` runs the instructions `l` while interrupts come in: before every instruction,
  unless `PRIMASK` is set, `I` says what they may make of the memory. The registers are the same
  afterwards, since the processor and the procedure call standard save them. `run` is the run
  without interrupts.

  A word is read and written at an aligned address; an unaligned access is a fault (`none`). Left
  out are the exception number in `xPSR` and floating point registers.
-/
import Mathlib.Algebra.Ring.Nat
import Mathlib.Logic.Function.Basic
import Mathlib.Data.Set.Insert

namespace Thumb

open Function (update)

abbrev Word := BitVec 32

/-- The memory, by the addresses of its words. -/
abbrev Mem := Word → Word

/-- `R0` to `R12` and the link register. The stack pointer is banked. -/
inductive Reg where
  | R0 | R1 | R2 | R3 | R4 | R5 | R6 | R7 | R8 | R9 | R10 | R11 | R12 | LR
  deriving DecidableEq, Repr

/-- `spsel` is `CONTROL.SPSEL`: thread mode runs on the process stack. `stkalign` is `CCR.STKALIGN`:
    a frame is pushed at a multiple of eight. -/
structure Cpu where
  reg : Reg → Word
  psp : Word
  msp : Word
  pc : Word
  xpsr : Word
  handler : Bool
  spsel : Bool
  primask : Bool
  stkalign : Bool
  mem : Mem

/-! ## Words and bytes -/

def Aligned (a : Word) : Prop := a.toNat % 4 = 0

instance (a : Word) : Decidable (Aligned a) := inferInstanceAs (Decidable (_ = _))

/-- The address of the word that the byte at `a` is in. -/
def wordOf (a : Word) : Word := a - a % 4

/-- The byte at `a`, little-endian. -/
def loadByte (m : Mem) (a : Word) : BitVec 8 := (m (wordOf a)).extractLsb' (8 * (a.toNat % 4)) 8

/-- The word `w` with the byte `k` of it replaced. -/
def setByte (w : Word) (k : Nat) (b : BitVec 8) : Word :=
  (w &&& ~~~((0xFF : Word) <<< (8 * k))) ||| b.setWidth 32 <<< (8 * k)

def storeByte (m : Mem) (a : Word) (b : BitVec 8) : Mem :=
  update m (wordOf a) (setByte (m (wordOf a)) (a.toNat % 4) b)

/-- Stores the words `ws` from `a` upwards. -/
def storeWords (m : Mem) (a : Word) : List Word → Mem
  | [] => m
  | w :: ws => storeWords (update m a w) (a + 4) ws

/-- The addresses of the `n` words from `a` upwards. -/
def Span (a : Word) (n : Nat) : Set Word := {x | ∃ k < n, x = a + 4 * BitVec.ofNat 32 k}

/-! ## Instructions -/

def Cpu.set (c : Cpu) (r : Reg) (v : Word) : Cpu := { c with reg := update c.reg r v }

abbrev Cpu.withMem (c : Cpu) (m : Mem) : Cpu := { c with mem := m }

/-- The stack pointer in use. -/
def Cpu.sp (c : Cpu) : Word := if c.spsel && !c.handler then c.psp else c.msp

def Cpu.setSp (c : Cpu) (v : Word) : Cpu :=
  if c.spsel && !c.handler then { c with psp := v } else { c with msp := v }

/-- `xPSR` with the condition flags. -/
def flags (x : Word) (n z c v : Bool) : Word :=
  (BitVec.ofBool n ++ BitVec.ofBool z ++ BitVec.ofBool c ++ BitVec.ofBool v : BitVec 4) ++
    x.setWidth 28

def Cpu.zero (c : Cpu) : Bool := c.xpsr.getLsbD 30

/-- The flags after a move. -/
def Cpu.flagsNZ (c : Cpu) (r : Word) : Cpu :=
  { c with xpsr := flags c.xpsr r.msb (r == 0) (c.xpsr.getLsbD 29) (c.xpsr.getLsbD 28) }

/-- The flags after `a - b`. -/
def Cpu.flagsSub (c : Cpu) (a b : Word) : Cpu :=
  { c with
    xpsr := flags c.xpsr (a - b).msb (a == b) (decide (b.toNat ≤ a.toNat))
      (a.msb != b.msb && (a - b).msb != a.msb) }

/-- The flags after `a + b`. -/
def Cpu.flagsAdd (c : Cpu) (a b : Word) : Cpu :=
  { c with
    xpsr := flags c.xpsr (a + b).msb (a + b == 0) (decide (2 ^ 32 ≤ a.toNat + b.toNat))
      (a.msb == b.msb && (a + b).msb != a.msb) }

/-- `rs` get the words from `a` upwards. -/
def Cpu.loadRegs (c : Cpu) (a : Word) : List Reg → Cpu
  | [] => c
  | r :: rs => (c.set r (c.mem a)).loadRegs (a + 4) rs

inductive Instr where
  /-- `LDR Rt,=v`. -/
  | ldrLit (rt : Reg) (v : Word)
  | ldr (rt rn : Reg)
  | str (rt rn : Reg)
  | ldrb (rt rn : Reg)
  | strb (rt rn : Reg)
  | mov (rd rm : Reg)
  | movs (rd : Reg) (v : Word)
  /-- `MOVS Rd,Rm`. -/
  | movsReg (rd rm : Reg)
  | adds (rd : Reg) (v : Word)
  | subs (rd : Reg) (v : Word)
  /-- `RSBS Rd,Rd,#0`. -/
  | rsbs (rd : Reg)
  | orr (rd : Reg) (v : Word)
  | cmp (rn rm : Reg)
  /-- `MRS Rd,PSP` and `MSR PSP,Rn`. -/
  | mrs (rd : Reg)
  | msr (rn : Reg)
  | stmia (rn : Reg) (rs : List Reg)
  | stmdb (rn : Reg) (rs : List Reg)
  | ldmia (rn : Reg) (rs : List Reg)
  | push (r : Reg)
  | pop (r : Reg)
  | cpsid
  | cpsie
  /-- `BEQ` over the next `n` instructions. -/
  | beq (n : Nat)
  | bx (rm : Reg)

/-! ## Exceptions -/

/-- `xPSR` with bit 9, which marks a frame that was moved down for alignment; in the register it is
    0. -/
def setPad (x : Word) (b : Bool) : Word := (x &&& ~~~(0x200 : Word)) ||| if b then 0x200 else 0

/-- The stack pointer below the frame that the processor pushes. -/
def frameBelow (al : Bool) (sp : Word) : Word :=
  if al && sp.toNat % 8 == 4 then sp - 36 else sp - 32

/-- The stack pointer above the frame at `f`. -/
def frameAbove (al : Bool) (m : Mem) (f : Word) : Word :=
  if al && (m (f + 28)).getLsbD 9 && (f + 32).toNat % 8 == 0 then f + 36 else f + 32

/-- The registers in the order of the frame. -/
def framed : List Reg := [.R0, .R1, .R2, .R3, .R12, .LR]

/-- The words of the frame. -/
def Cpu.frame (c : Cpu) : List Word :=
  [c.reg .R0, c.reg .R1, c.reg .R2, c.reg .R3, c.reg .R12, c.reg .LR, c.pc,
    setPad c.xpsr (c.stkalign && c.sp.toNat % 8 == 4)]

/-- An exception is taken from thread mode. -/
def Cpu.take (c : Cpu) : Cpu :=
  let f := frameBelow c.stkalign c.sp
  { (((c.withMem (storeWords c.mem f c.frame)).setSp f).set .LR
      (if c.spsel then 0xFFFFFFFD else 0xFFFFFFF9)) with
    handler := true }

/-- The frame at `f` is popped, on the process stack or on the main stack. -/
def Cpu.unstack (c : Cpu) (onPsp : Bool) (f : Word) : Cpu :=
  { ({ c.loadRegs f framed with
        pc := c.mem (f + 24), xpsr := setPad (c.mem (f + 28)) false, handler := false,
        spsel := onPsp }).setSp (frameAbove c.stkalign c.mem f) with handler := false }

/-- Branches to `v`. In a handler an address from `0xF0000000` on returns from the exception, and
    bit 2 of it selects the stack. -/
def Cpu.branch (c : Cpu) (v : Word) : Option Cpu :=
  if c.handler && decide (0xF0000000 ≤ v.toNat) then
    let f := if v.getLsbD 2 then c.psp else c.msp
    if Aligned f then some (c.unstack (v.getLsbD 2) f) else none
  else some { c with pc := v - v % 2 }

/-! ## Execution -/

/-- What an instruction does that is not a branch over instructions. -/
def Instr.effect (c : Cpu) : Instr → Option Cpu
  | ldrLit t v => some (c.set t v)
  | ldr t n => if Aligned (c.reg n) then some (c.set t (c.mem (c.reg n))) else none
  | str t n =>
    if Aligned (c.reg n) then some (c.withMem (update c.mem (c.reg n) (c.reg t))) else none
  | ldrb t n => some (c.set t ((loadByte c.mem (c.reg n)).setWidth 32))
  | strb t n => some (c.withMem (storeByte c.mem (c.reg n) ((c.reg t).setWidth 8)))
  | mov d m => some (c.set d (c.reg m))
  | movs d v => some ((c.set d v).flagsNZ v)
  | movsReg d m => some ((c.set d (c.reg m)).flagsNZ (c.reg m))
  | adds d v => some ((c.set d (c.reg d + v)).flagsAdd (c.reg d) v)
  | subs d v => some ((c.set d (c.reg d - v)).flagsSub (c.reg d) v)
  | rsbs d => some ((c.set d (0 - c.reg d)).flagsSub 0 (c.reg d))
  | orr d v => some (c.set d (c.reg d ||| v))
  | cmp n m => some (c.flagsSub (c.reg n) (c.reg m))
  | mrs d => some (c.set d c.psp)
  | msr n => some { c with psp := wordOf (c.reg n) }
  | stmia n rs =>
    if Aligned (c.reg n) then
      some ((c.withMem (storeWords c.mem (c.reg n) (rs.map c.reg))).set n
        (c.reg n + 4 * BitVec.ofNat 32 rs.length))
    else none
  | stmdb n rs =>
    if Aligned (c.reg n) then
      some ((c.withMem (storeWords c.mem (c.reg n - 4 * BitVec.ofNat 32 rs.length)
        (rs.map c.reg))).set n (c.reg n - 4 * BitVec.ofNat 32 rs.length))
    else none
  | ldmia n rs =>
    if Aligned (c.reg n) then
      some ((c.loadRegs (c.reg n) rs).set n (c.reg n + 4 * BitVec.ofNat 32 rs.length))
    else none
  | push r =>
    if Aligned c.sp then
      some ((c.withMem (update c.mem (c.sp - 4) (c.reg r))).setSp (c.sp - 4))
    else none
  | pop r => if Aligned c.sp then some ((c.set r (c.mem c.sp)).setSp (c.sp + 4)) else none
  | cpsid => some { c with primask := true }
  | cpsie => some { c with primask := false }
  | beq _ => some c
  | bx m => c.branch (c.reg m)

/-- How many of the next instructions are skipped, and the state. -/
def Instr.exec (c : Cpu) : Instr → Option (Nat × Cpu)
  | beq n => some (if c.zero then n else 0, c)
  | i => (i.effect c).map fun c => (0, c)

/-- Skips `k` instructions and runs the others, without interrupts. -/
def run : Nat → List Instr → Cpu → Option Cpu
  | _, [], c => some c
  | k + 1, _ :: l, c => run k l c
  | 0, i :: l, c => (i.exec c).bind fun x => run x.1 l x.2

/-- The run in which an interrupt with the effect `f` comes between any two instructions, unless
    interrupts are masked. -/
def runWith (f : Mem → Mem) : Nat → List Instr → Cpu → Option Cpu
  | _, [], c => some c
  | k + 1, _ :: l, c => runWith f k l c
  | 0, i :: l, c =>
    (i.exec (c.withMem (if c.primask then c.mem else f c.mem))).bind fun x => runWith f x.1 l x.2

/-- What interrupts may make of the memory between two instructions. -/
def Cpu.Between (I : Mem → Mem → Prop) (c : Cpu) (m : Mem) : Prop :=
  if c.primask then m = c.mem else I c.mem m

/-- A run with interrupts between the instructions; `none` is a fault. -/
inductive Runs (I : Mem → Mem → Prop) : Nat → List Instr → Cpu → Option Cpu → Prop
  | nil {k : Nat} {c : Cpu} : Runs I k [] c (some c)
  | skip {k : Nat} {i : Instr} {l : List Instr} {c : Cpu} {o : Option Cpu} (h : Runs I k l c o) :
      Runs I (k + 1) (i :: l) c o
  | exec {i : Instr} {l : List Instr} {c c1 : Cpu} {m : Mem} {k : Nat} {o : Option Cpu}
      (hm : c.Between I m)
      (he : i.exec (c.withMem m) = some (k, c1)) (h : Runs I k l c1 o) : Runs I 0 (i :: l) c o
  | fault {i : Instr} {l : List Instr} {c : Cpu} {m : Mem} (hm : c.Between I m)
      (he : i.exec (c.withMem m) = none) : Runs I 0 (i :: l) c none

/-! ## Runs that interrupts do not disturb -/

/-- The addresses of the words that an instruction reads. -/
def Instr.reads (c : Cpu) : Instr → Set Word
  | ldr _ n => {c.reg n}
  | ldrb _ n => {wordOf (c.reg n)}
  | ldmia n rs => Span (c.reg n) rs.length
  | pop _ => {c.sp}
  | bx m => Span (if (c.reg m).getLsbD 2 then c.psp else c.msp) 8
  | _ => ∅

/-- `d` is `c` but for the words outside of `A`. -/
structure Like (A : Set Word) (c d : Cpu) : Prop where
  cpu : d = c.withMem d.mem
  mem : ∀ a ∈ A, d.mem a = c.mem a

/-- Interrupts leave the words of `A` as they are in `m`. -/
def Safe (I : Mem → Mem → Prop) (A : Set Word) (m : Mem) : Prop :=
  ∀ m1 m2, (∀ a ∈ A, m1 a = m a) → I m1 m2 → ∀ a ∈ A, m2 a = m a

/-- The run without interrupts reads only words of `A`, and interrupts leave them alone. -/
def Calm (I : Mem → Mem → Prop) (A : Set Word) : Nat → List Instr → Cpu → Prop
  | _, [], _ => True
  | k + 1, _ :: l, c => Calm I A k l c
  | 0, i :: l, c => (c.primask = false → Safe I A c.mem) ∧ (∀ a ∈ i.reads c, a ∈ A) ∧
      ∀ x, i.exec c = some x → Calm I A x.1 l x.2

section Words

variable {m m' : Mem} {a x : Word} {ws : List Word} {A : Set Word}

theorem span_succ {n : Nat} : x ∈ Span a (n + 1) ↔ x = a ∨ x ∈ Span (a + 4) n := by
  constructor
  · rintro ⟨k, hk, rfl⟩
    cases k with
    | zero => exact Or.inl (by bv_omega)
    | succ k => exact Or.inr ⟨k, by omega, by rw [BitVec.ofNat_add]; bv_omega⟩
  · rintro (rfl | ⟨k, hk, rfl⟩)
    · exact ⟨0, by omega, by bv_omega⟩
    · exact ⟨k + 1, by omega, by rw [BitVec.ofNat_add]; bv_omega⟩

/-- A store leaves the other words. -/
theorem storeWords_off : ∀ {ws : List Word} {m : Mem} {a : Word}, x ∉ Span a ws.length →
    storeWords m a ws x = m x
  | [], _, _, _ => rfl
  | w :: ws, m, a, h => by
    have h1 : x ≠ a := fun e => h (span_succ.mpr (Or.inl e))
    have h2 : x ∉ Span (a + 4) ws.length := fun e => h (span_succ.mpr (Or.inr e))
    rw [storeWords, storeWords_off h2, Function.update_of_ne h1]

theorem storeWords_append : ∀ (ws vs : List Word) (m : Mem) (a : Word),
    storeWords m a (ws ++ vs) =
    storeWords (storeWords m a ws) (a + 4 * BitVec.ofNat 32 ws.length) vs
  | [], vs, m, a => by
    rw [List.nil_append, storeWords, List.length_nil,
      show a + 4 * BitVec.ofNat 32 0 = a by bv_omega]
  | w :: ws, vs, m, a => by
    rw [List.cons_append, storeWords, storeWords, storeWords_append, List.length_cons,
      BitVec.ofNat_add]
    congr 1
    bv_omega

/-- A store of words and a store to another word commute. -/
theorem storeWords_update {x v : Word} :
    ∀ {ws : List Word} {m : Mem} {a : Word}, x ∉ Span a ws.length →
    storeWords (update m x v) a ws = update (storeWords m a ws) x v
  | [], _, _, _ => rfl
  | w :: ws, m, a, h => by
    have h1 : a ≠ x := fun e => h (span_succ.mpr (Or.inl e.symm))
    have h2 : x ∉ Span (a + 4) ws.length := fun e => h (span_succ.mpr (Or.inr e))
    rw [storeWords, storeWords, Function.update_comm h1.symm, storeWords_update h2]

/-- A store is read back. -/
theorem storeWords_at :
    ∀ {ws : List Word} {m : Mem} {a : Word} {k : Nat} (hk : k < ws.length), ws.length ≤ 2 ^ 30 →
    storeWords m a ws (a + 4 * BitVec.ofNat 32 k) = ws[k]
  | [], _, _, _, hk, _ => absurd hk (Nat.not_lt_zero _)
  | w :: ws, m, a, 0, _, hl => by
    have ha : a ∉ Span (a + 4) ws.length := fun ⟨j, hj, e⟩ => by
      rw [List.length_cons] at hl
      bv_omega
    rw [show a + 4 * BitVec.ofNat 32 0 = a by bv_omega, storeWords, storeWords_off ha,
      Function.update_self]
    rfl
  | w :: ws, m, a, k + 1, hk, hl => by
    rw [List.length_cons] at hl
    rw [show a + 4 * BitVec.ofNat 32 (k + 1) = a + 4 + 4 *
      BitVec.ofNat 32 k by rw [BitVec.ofNat_add]; bv_omega,
      storeWords, storeWords_at (Nat.lt_of_succ_lt_succ hk) (by omega)]
    rfl

theorem aligned_add (h : Aligned a) (k : Nat) : Aligned (a + 4 * BitVec.ofNat 32 k) := by
  unfold Aligned at *
  rw [BitVec.toNat_add, BitVec.toNat_mul, BitVec.toNat_ofNat,
    show (4 : BitVec 32).toNat = 4 from rfl]
  omega

theorem aligned_sub (h : Aligned a) (k : Nat) : Aligned (a - 4 * BitVec.ofNat 32 k) := by
  unfold Aligned at *
  rw [BitVec.toNat_sub, BitVec.toNat_mul, BitVec.toNat_ofNat,
    show (4 : BitVec 32).toNat = 4 from rfl]
  omega

theorem wordOf_aligned (h : Aligned a) : wordOf a = a := by
  have h4 : (4 : BitVec 32).toNat = 4 := rfl
  unfold Aligned at h
  unfold wordOf
  refine BitVec.eq_of_toNat_eq ?_
  rw [BitVec.toNat_sub, BitVec.toNat_umod, h4, h, Nat.sub_zero, Nat.add_comm, Nat.add_mod_right,
    Nat.mod_eq_of_lt a.isLt]

theorem update_like {v : Word} (h : ∀ x ∈ A, m' x = m x) :
    ∀ x ∈ A, update m' a v x = update m a v x := by
  intro x hx
  by_cases e : x = a
  · rw [e, Function.update_self, Function.update_self]
  · rw [Function.update_of_ne e, Function.update_of_ne e, h x hx]

theorem storeWords_like : ∀ (ws : List Word) {m m' : Mem} (a : Word),
    (∀ x ∈ A, m' x = m x) → ∀ x ∈ A, storeWords m' a ws x = storeWords m a ws x
  | [], _, _, _, h => h
  | _ :: ws, _, _, a, h => storeWords_like ws (a + 4) (update_like h)

/-- What is overwritten need not agree. -/
theorem storeWords_over :
    ∀ (ws : List Word) {m m' : Mem} (a : Word), (x ∉ Span a ws.length → m' x = m x) →
    storeWords m' a ws x = storeWords m a ws x
  | [], _, _, _, h => h fun ⟨_, hk, _⟩ => Nat.not_lt_zero _ hk
  | w :: ws, m, m', a, h => by
    refine storeWords_over ws (a + 4) fun hx => ?_
    by_cases e : x = a
    · rw [e, Function.update_self, Function.update_self]
    · rw [Function.update_of_ne e, Function.update_of_ne e]
      exact h fun hm => (span_succ.mp hm).elim e hx

theorem storeByte_like {b : BitVec 8} (h : ∀ x ∈ A, m' x = m x) :
    ∀ x ∈ A, storeByte m' a b x = storeByte m a b x := by
  intro x hx
  unfold storeByte
  by_cases e : x = wordOf a
  · rw [e, Function.update_self, Function.update_self, h _ (e ▸ hx)]
  · rw [Function.update_of_ne e, Function.update_of_ne e, h x hx]

end Words

@[simp] theorem setPad_setPad (x : Word) (b b' : Bool) : setPad (setPad x b) b' = setPad x b' := by
  cases b with
  | false => simp [setPad, BitVec.and_assoc]
  | true => simp [setPad, BitVec.and_or_distrib_right, BitVec.and_assoc]

theorem setPad_bit (x : Word) (b : Bool) : (setPad x b).getLsbD 9 = b := by
  unfold setPad
  rw [BitVec.getLsbD_or, BitVec.getLsbD_and, show (~~~(0x200 : Word)).getLsbD 9 = false by decide,
    Bool.and_false, Bool.false_or]
  cases b <;> decide

section Fields

variable {c : Cpu} {v : Word}

@[simp] theorem setSp_mem : (c.setSp v).mem = c.mem := by
  unfold Cpu.setSp
  split <;> rfl

@[simp] theorem setSp_reg : (c.setSp v).reg = c.reg := by
  unfold Cpu.setSp
  split <;> rfl

@[simp] theorem setSp_stkalign : (c.setSp v).stkalign = c.stkalign := by
  unfold Cpu.setSp
  split <;> rfl

@[simp] theorem setSp_primask : (c.setSp v).primask = c.primask := by
  unfold Cpu.setSp
  split <;> rfl

theorem setSp_psp : (c.setSp v).psp = if c.spsel && !c.handler then v else c.psp := by
  unfold Cpu.setSp
  split <;> rfl

theorem setSp_sp : (c.setSp v).sp = v := by
  unfold Cpu.setSp Cpu.sp
  cases h : c.spsel && !c.handler with
  | true => simp [h]
  | false => simp [h]

/-! What is as before in the handler. -/

theorem take_mem : c.take.mem = storeWords c.mem (frameBelow c.stkalign c.sp) c.frame :=
  @setSp_mem (c.withMem _) _

theorem take_psp (hh : c.handler = false) :
    c.take.psp = if c.spsel then frameBelow c.stkalign c.psp else c.psp := by
  show ((c.withMem _).setSp _).psp = _
  rw [setSp_psp]
  unfold Cpu.sp
  rw [hh]
  cases hs : c.spsel with
  | true => rfl
  | false => rfl

theorem take_reg {r : Reg} (hr : r ≠ .LR) : c.take.reg r = c.reg r := by
  show update ((c.withMem _).setSp _).reg .LR _ r = _
  rw [Function.update_of_ne hr, setSp_reg]

theorem take_lr : c.take.reg .LR = 0xFFFFFFFD ∨ c.take.reg .LR = 0xFFFFFFF9 := by
  have h : c.take.reg .LR = if c.spsel then 0xFFFFFFFD else 0xFFFFFFF9 := rfl
  rw [h]
  split
  · exact Or.inl rfl
  · exact Or.inr rfl

theorem take_stkalign : c.take.stkalign = c.stkalign := @setSp_stkalign (c.withMem _) _

end Fields

@[simp] theorem zero_flagsSub {c : Cpu} {a b : Word} : (c.flagsSub a b).zero = (a == b) := by
  have key : ∀ n z c v : Bool, (BitVec.ofBool n ++ BitVec.ofBool z ++ BitVec.ofBool c ++
    BitVec.ofBool v : BitVec 4).getLsbD 2 = z := by
    decide
  unfold Cpu.zero Cpu.flagsSub flags
  rw [BitVec.getLsbD_append]
  exact key _ _ _ _

section Likeness

variable {I : Mem → Mem → Prop} {A : Set Word} {c d c1 : Cpu} {m : Mem} {a : Word}

theorem Like.refl : Like A c c := ⟨rfl, fun _ _ => rfl⟩

theorem Like.mono {B : Set Word} (h : Like A c d) (hB : ∀ a ∈ B, a ∈ A) : Like B c d :=
  ⟨h.cpu, fun a ha => h.mem a (hB a ha)⟩

/-- What is between the instructions changes nothing of `A`. -/
theorem Like.between (h : Like A c d) (hs : c.primask = false → Safe I A c.mem)
    (hm : d.Between I m) :
    Like A c (d.withMem m) := by
  refine ⟨by rw [h.cpu], fun a ha => ?_⟩
  have hp : d.primask = c.primask := by rw [h.cpu]
  unfold Cpu.Between at hm
  cases hc : c.primask with
  | true =>
    rw [hp, hc, if_pos rfl] at hm
    rw [hm]
    exact h.mem a ha
  | false =>
    rw [hp, hc, if_neg Bool.false_ne_true] at hm
    exact hs hc d.mem m h.mem hm a ha

theorem Cpu.Between.keep {G : Mem → Prop} (hI : ∀ m m', G m → I m m' → G m') (h : c.Between I m)
    (hG : G c.mem) : G m := by
  unfold Cpu.Between at h
  split at h
  · exact h ▸ hG
  · exact hI _ _ hG h

theorem Cpu.Between.unmasked (h : c.Between I m) (hp : c.primask = false) : I c.mem m := by
  rwa [Cpu.Between, if_neg (by rw [hp]; exact Bool.false_ne_true)] at h

theorem Cpu.Between.masked (h : c.Between I m) (hp : c.primask = true) : m = c.mem := by
  rwa [Cpu.Between, if_pos hp] at h

theorem Cpu.loadRegs_eq : ∀ (rs : List Reg) (c : Cpu) (a : Word),
    c.loadRegs a rs = { c with reg := (c.loadRegs a rs).reg }
  | [], _, _ => rfl
  | r :: rs, c, a => by
    rw [Cpu.loadRegs, Cpu.loadRegs_eq rs]
    rfl

/-- Registers are loaded alike from words that agree. -/
theorem Cpu.loadRegs_like : ∀ {rs : List Reg} {c d : Cpu} {a : Word}, d.reg = c.reg →
    (∀ x ∈ Span a rs.length, d.mem x = c.mem x) → (d.loadRegs a rs).reg = (c.loadRegs a rs).reg
  | [], _, _, _, hr, _ => hr
  | r :: rs, c, d, a, hr, hm => by
    rw [Cpu.loadRegs, Cpu.loadRegs]
    refine Cpu.loadRegs_like ?_ fun x hx => hm x (span_succ.mpr (Or.inr hx))
    show update d.reg r _ = update c.reg r _
    rw [hr, hm a (span_succ.mpr (Or.inl rfl))]

theorem Like.loadRegs {rs : List Reg} (h : Like A c d) (hr : ∀ x ∈ Span a rs.length, x ∈ A) :
    Like A (c.loadRegs a rs) (d.loadRegs a rs) := by
  have hreg : (d.loadRegs a rs).reg = (c.loadRegs a rs).reg :=
    Cpu.loadRegs_like (by rw [h.cpu]) fun x hx => h.mem x (hr x hx)
  refine ⟨?_, ?_⟩
  · rw [Cpu.loadRegs_eq rs d, Cpu.loadRegs_eq rs c, hreg, h.cpu]
  · rw [Cpu.loadRegs_eq rs d, Cpu.loadRegs_eq rs c]
    exact h.mem

theorem Like.set {r : Reg} {v : Word} (h : Like A c d) : Like A (c.set r v) (d.set r v) :=
  ⟨by rw [Cpu.set, Cpu.set, h.cpu], h.mem⟩

theorem Like.sp (h : Like A c d) : d.sp = c.sp := by rw [h.cpu]; rfl

theorem Like.setSp {v : Word} (h : Like A c d) : Like A (c.setSp v) (d.setSp v) := by
  have hs : (d.spsel && !d.handler) = (c.spsel && !c.handler) := by rw [h.cpu]
  unfold Cpu.setSp
  rw [hs]
  split
  · exact ⟨by rw [h.cpu], h.mem⟩
  · exact ⟨by rw [h.cpu], h.mem⟩

theorem frameAbove_like {al : Bool} {m m' : Mem} {f : Word} (h : m' (f + 28) = m (f + 28)) :
    frameAbove al m' f = frameAbove al m f := by
  unfold frameAbove
  rw [h]

theorem Like.unstack {b : Bool} {f : Word} (h : Like A c d) (hr : ∀ x ∈ Span f 8, x ∈ A) :
    Like A (c.unstack b f) (d.unstack b f) := by
  have h6 : ∀ x ∈ Span f framed.length, x ∈ A :=
    fun x ⟨k, hk, e⟩ => hr x ⟨k, Nat.lt_trans hk (by decide), e⟩
  have hpc : d.mem (f + 24) = c.mem (f + 24) := h.mem _ (hr _ ⟨6, by decide, by bv_omega⟩)
  have hps : d.mem (f + 28) = c.mem (f + 28) := h.mem _ (hr _ ⟨7, by decide, by bv_omega⟩)
  have hl := h.loadRegs h6
  have hal : d.stkalign = c.stkalign := by rw [h.cpu]
  have hx : Like A
    { c.loadRegs f framed with
      pc := c.mem (f + 24), xpsr := setPad (c.mem (f + 28)) false, handler := false, spsel := b }
      { d.loadRegs f framed with
        pc := d.mem (f + 24), xpsr := setPad (d.mem (f + 28)) false, handler :=
          false, spsel := b } := by
    refine ⟨?_, hl.mem⟩
    rw [hl.cpu, hpc, hps]
  have hy := hx.setSp (v := frameAbove c.stkalign c.mem f)
  unfold Cpu.unstack
  rw [hal, frameAbove_like hps]
  exact ⟨by rw [hy.cpu], hy.mem⟩

theorem Like.branch {v : Word} (h : Like A c d)
    (hr : ∀ x ∈ Span (if v.getLsbD 2 then c.psp else c.msp) 8, x ∈ A)
    (he : c.branch v = some c1) : ∃ d1, d.branch v = some d1 ∧ Like A c1 d1 := by
  have hh : d.handler = c.handler := by rw [h.cpu]
  have hp : d.psp = c.psp := by rw [h.cpu]
  have hm : d.msp = c.msp := by rw [h.cpu]
  unfold Cpu.branch at he ⊢
  rw [hh, hp, hm]
  by_cases hc : (c.handler && decide (0xF0000000 ≤ v.toNat)) = true
  · rw [if_pos hc] at he ⊢
    by_cases ha : Aligned (if v.getLsbD 2 then c.psp else c.msp)
    · rw [if_pos ha] at he ⊢
      exact ⟨_, rfl, Option.some.inj he ▸ h.unstack hr⟩
    · rw [if_neg ha] at he
      exact nomatch he
  · rw [if_neg hc] at he ⊢
    exact ⟨_, rfl, Option.some.inj he ▸ ⟨by rw [h.cpu], h.mem⟩⟩

theorem Like.flagsSub {a b : Word} (h : Like A c d) : Like A (c.flagsSub a b) (d.flagsSub a b) :=
  ⟨by rw [Cpu.flagsSub, Cpu.flagsSub, h.cpu], h.mem⟩

theorem Like.store {m m' : Mem} (h : Like A c d) (hm : ∀ x ∈ A, m' x = m x) :
    Like A (c.withMem m) (d.withMem m') := ⟨by rw [h.cpu], hm⟩

/-- The alignment check of an access comes out alike. -/
theorem Like.guard {p : Prop} [Decidable p] (h : Like A c d)
    (he : (if p then some c else none) = some c1) :
    ∃ d1, (if p then some d else none) = some d1 ∧ Like A c1 d1 := by
  by_cases hp : p
  · rw [if_pos hp] at he ⊢
    exact ⟨_, rfl, Option.some.inj he ▸ h⟩
  · rw [if_neg hp] at he
    exact nomatch he

/-- An instruction does the same to states that agree on what it reads. -/
theorem Like.effect {i : Instr} (h : Like A c d) (hr : ∀ a ∈ i.reads c, a ∈ A)
    (he : i.effect c = some c1) :
    ∃ d1, i.effect d = some d1 ∧ Like A c1 d1 := by
  have hreg : d.reg = c.reg := by rw [h.cpu]
  cases i with
  | ldr t n =>
    simp only [Instr.effect, hreg, h.mem _ (hr _ rfl)] at he ⊢
    exact h.set.guard he
  | str t n =>
    simp only [Instr.effect, hreg] at he ⊢
    exact (h.store (update_like h.mem)).guard he
  | ldrb t n =>
    simp only [Instr.effect, loadByte, hreg, h.mem _ (hr _ rfl)] at he ⊢
    exact ⟨_, rfl, Option.some.inj he ▸ h.set⟩
  | strb t n =>
    simp only [Instr.effect, hreg] at he ⊢
    exact ⟨_, rfl, Option.some.inj he ▸ h.store (storeByte_like h.mem)⟩
  | stmia n rs =>
    simp only [Instr.effect, hreg] at he ⊢
    exact ((h.store (storeWords_like _ _ h.mem)).set).guard he
  | stmdb n rs =>
    simp only [Instr.effect, hreg] at he ⊢
    exact ((h.store (storeWords_like _ _ h.mem)).set).guard he
  | ldmia n rs =>
    simp only [Instr.effect, hreg] at he ⊢
    exact ((h.loadRegs hr).set).guard he
  | push r =>
    simp only [Instr.effect, hreg, h.sp] at he ⊢
    exact ((h.store (update_like h.mem)).setSp).guard he
  | pop r =>
    simp only [Instr.effect, h.sp, h.mem _ (hr _ rfl)] at he ⊢
    exact (h.set.setSp).guard he
  | bx r =>
    simp only [Instr.effect, hreg] at he ⊢
    exact h.branch hr he
  | msr r | cpsid | cpsie | beq n =>
    simp only [Instr.effect, hreg] at he ⊢
    refine ⟨_, rfl, Option.some.inj he ▸ ⟨?_, h.mem⟩⟩
    rw [h.cpu]
  | movs r v | movsReg r r' | adds r v | subs r v | rsbs r | cmp r r' | mov r r' | mrs r
  | ldrLit r v | orr r v =>
    simp only [Instr.effect, hreg] at he ⊢
    refine ⟨_, rfl, Option.some.inj he ▸ ⟨?_, h.mem⟩⟩
    rw [h.cpu]
    rfl

theorem Instr.exec_eq {i : Instr} (hi : ∀ n, i ≠ .beq n) :
    i.exec c = (i.effect c).map fun c => (0, c) := by
  cases i with
  | beq n => exact absurd rfl (hi n)
  | _ => rfl

theorem Like.exec {i : Instr} {k : Nat} (h : Like A c d) (hr : ∀ a ∈ i.reads c, a ∈ A)
    (he : i.exec c = some (k, c1)) :
    ∃ d1, i.exec d = some (k, d1) ∧ Like A c1 d1 := by
  by_cases hb : ∃ n, i = .beq n
  · obtain ⟨n, rfl⟩ := hb
    have hz : d.zero = c.zero := by
      rw [h.cpu]
      rfl
    cases he
    exact ⟨d, by rw [Instr.exec, hz], h⟩
  · have hi : ∀ n, i ≠ .beq n := fun n e => hb ⟨n, e⟩
    rw [Instr.exec_eq hi] at he ⊢
    obtain ⟨c2, e, e'⟩ := Option.map_eq_some_iff.mp he
    cases e'
    obtain ⟨d1, e1, h1⟩ := h.effect hr e
    exact ⟨d1, by rw [e1]; rfl, h1⟩

/-- **An undisturbed run**, with interrupts, does not fault, and ends as the run without. -/
theorem Runs.like {I : Mem → Mem → Prop} {k : Nat} {l : List Instr} {d : Cpu} {o : Option Cpu}
    (hd : Runs I k l d o) :
    ∀ {c c' : Cpu}, Like A c d → Calm I A k l c → run k l c = some c' →
    ∃ d', o = some d' ∧ Like A c' d' := by
  induction hd with
  | nil =>
    intro c c' h _ hr
    rw [run] at hr
    exact ⟨_, rfl, Option.some.inj hr ▸ h⟩
  | skip _ ih =>
    intro c c' h hc hr
    exact ih h hc hr
  | exec hm he _ ih =>
    intro c c' h ⟨hs, ha, hc⟩ hr
    obtain ⟨⟨k, c1⟩, e, hr⟩ := Option.bind_eq_some_iff.mp hr
    obtain ⟨d1, e1, h1⟩ := (h.between hs hm).exec ha e
    cases he.symm.trans e1
    exact ih h1 (hc _ e) hr
  | fault hm he =>
    intro c c' h ⟨hs, ha, hc⟩ hr
    obtain ⟨⟨k, c1⟩, e, hr⟩ := Option.bind_eq_some_iff.mp hr
    obtain ⟨d1, e1, h1⟩ := (h.between hs hm).exec ha e
    exact nomatch he.symm.trans e1

/-- The instructions that write memory. -/
def Instr.writes : Instr → Bool
  | str .. | strb .. | stmia .. | stmdb .. | push .. => true
  | _ => false

theorem unstack_mem {b : Bool} {f : Word} : (c.unstack b f).mem = c.mem := by
  unfold Cpu.unstack
  rw [Cpu.loadRegs_eq]
  unfold Cpu.setSp
  split <;> rfl

theorem Instr.effect_mem {i : Instr} (hi : i.writes = false) (he : i.effect c = some c1) :
    c1.mem = c.mem := by
  cases i with
  | str t n | strb t n | stmia n rs | stmdb n rs | push r => exact nomatch hi
  | ldr t n =>
    obtain ⟨-, e⟩ := Option.ite_none_right_eq_some.mp he
    exact (Option.some.inj e) ▸ rfl
  | ldmia n rs =>
    obtain ⟨-, e⟩ := Option.ite_none_right_eq_some.mp he
    rw [← Option.some.inj e, Cpu.loadRegs_eq]
    rfl
  | pop r =>
    obtain ⟨-, e⟩ := Option.ite_none_right_eq_some.mp he
    rw [← Option.some.inj e]
    unfold Cpu.setSp
    split <;> rfl
  | bx r =>
    have he : c.branch (c.reg r) = some c1 := he
    unfold Cpu.branch at he
    split at he
    · obtain ⟨-, e⟩ := Option.ite_none_right_eq_some.mp he
      rw [← Option.some.inj e, unstack_mem]
    · exact Option.some.inj he ▸ rfl
  | _ => exact Option.some.inj he ▸ rfl

/-- Code that writes nothing keeps what interrupts keep of the memory. -/
theorem Runs.keep {I : Mem → Mem → Prop} {G : Mem → Prop} (hI : ∀ m m', G m → I m m' → G m')
    {k : Nat} {l : List Instr}
    {o : Option Cpu} (h : Runs I k l c o) (hl : ∀ i ∈ l, i.writes = false) (hG : G c.mem) :
    ∀ c1, o = some c1 → G c1.mem := by
  induction h with
  | nil => exact fun c1 e => Option.some.inj e ▸ hG
  | skip _ ih => exact ih (fun i hi => hl i (List.mem_cons_of_mem _ hi)) hG
  | fault hm he => exact fun c1 e => nomatch e
  | @exec i l c c2 m k o hm he _ ih =>
    have hGm : G m := hm.keep hI hG
    refine ih (fun i hi => hl i (List.mem_cons_of_mem _ hi)) ?_
    by_cases hb : ∃ n, i = .beq n
    · obtain ⟨n, rfl⟩ := hb
      cases he
      exact hGm
    · rw [Instr.exec_eq fun n e => hb ⟨n, e⟩] at he
      obtain ⟨c3, e3, e4⟩ := Option.map_eq_some_iff.mp he
      cases e4
      rw [Instr.effect_mem (hl i List.mem_cons_self) e3]
      exact hGm

/-- No branches over instructions. -/
def Straight (l : List Instr) : Prop := ∀ i ∈ l, ∀ n, i ≠ .beq n

theorem run_append {l2 : List Instr} : ∀ {l1 : List Instr}, Straight l1 → ∀ {c : Cpu},
    run 0 (l1 ++ l2) c = (run 0 l1 c).bind (run 0 l2)
  | [], _, _ => rfl
  | i :: l1, hl, c => by
    have hi := Instr.exec_eq (c := c) (hl i List.mem_cons_self)
    rw [List.cons_append, run, run, hi]
    cases i.effect c with
    | none => rfl
    | some c1 => exact run_append fun j hj => hl j (List.mem_cons_of_mem i hj)

theorem run_skip {l2 : List Instr} : ∀ l1 : List Instr, run l1.length (l1 ++ l2) c = run 0 l2 c
  | [] => rfl
  | _ :: l1 => run_skip l1

theorem calm_append {I : Mem → Mem → Prop} {l2 : List Instr} :
    ∀ {l1 : List Instr}, Straight l1 → ∀ {c : Cpu},
    Calm I A 0 l1 c → (∀ c1, run 0 l1 c = some c1 → Calm I A 0 l2 c1) → Calm I A 0 (l1 ++ l2) c
  | [], _, _, _, h => h _ rfl
  | i :: l1, hl, c, ⟨h1, h2, h3⟩, h => by
    refine ⟨h1, h2, fun x hx => ?_⟩
    have hi := Instr.exec_eq (c := c) (hl i List.mem_cons_self)
    obtain ⟨c1, e, e'⟩ := Option.map_eq_some_iff.mp (hi.symm.trans hx)
    cases e'
    refine calm_append (fun j hj => hl j (List.mem_cons_of_mem i hj)) (h3 _ hx) fun c2 h2 => h c2 ?_
    rw [run, hx]
    exact h2

theorem calm_skip {I : Mem → Mem → Prop} {l2 : List Instr} : ∀ l1 : List Instr,
    Calm I A l1.length (l1 ++ l2) c ↔ Calm I A 0 l2 c
  | [] => Iff.rfl
  | _ :: l1 => calm_skip l1

/-- A run of two parts. -/
theorem Runs.append {I : Mem → Mem → Prop} {l2 : List Instr} {o : Option Cpu} :
    ∀ {l1 : List Instr}, Straight l1 →
    ∀ {c : Cpu}, Runs I 0 (l1 ++ l2) c o →
    (o = none ∧ Runs I 0 l1 c none) ∨ ∃ c1, Runs I 0 l1 c (some c1) ∧ Runs I 0 l2 c1 o
  | [], _, c, h => Or.inr ⟨c, .nil, h⟩
  | i :: l1, hl, c, .fault hm he => Or.inl ⟨rfl, .fault hm he⟩
  | i :: l1, hl, c, .exec hm he h => by
    obtain ⟨c2, -, e'⟩ :=
      Option.map_eq_some_iff.mp ((Instr.exec_eq (hl i List.mem_cons_self)).symm.trans he)
    cases e'
    obtain ⟨h1, h2⟩ | ⟨c3, h1, h2⟩ := Runs.append (fun j hj => hl j (List.mem_cons_of_mem i hj)) h
    · exact Or.inl ⟨h1, .exec hm he h2⟩
    · exact Or.inr ⟨c3, .exec hm he h1, h2⟩

/-- An instruction that cannot fault, after the interrupts before it. -/
theorem Runs.step {I : Mem → Mem → Prop} {i : Instr} {l : List Instr} {o : Option Cpu}
    {f : Mem → Cpu}
    (hf : ∀ m, i.exec (c.withMem m) = some (0, f m)) (h : Runs I 0 (i :: l) c o) :
    ∃ m, c.Between I m ∧ Runs I 0 l (f m) o := by
  cases h with
  | @exec _ _ _ _ m _ _ hm he h =>
    cases (hf m).symm.trans he
    exact ⟨m, hm, h⟩
  | @fault _ _ _ m hm he => cases (hf m).symm.trans he

/-- No interrupts come in while they are masked. -/
theorem Runs.masked {I : Mem → Mem → Prop} {i : Instr} {l : List Instr} {o : Option Cpu}
    (hp : c.primask = true)
    (hf : i.exec c = some (0, d)) (h : Runs I 0 (i :: l) c o) : Runs I 0 l d o := by
  cases h with
  | exec hm he h =>
    cases hm.masked hp
    cases hf.symm.trans he
    exact h
  | fault hm he =>
    cases hm.masked hp
    cases hf.symm.trans he

/-- The run without interrupts ends in a state of `P`, and interrupts do not disturb it. -/
structure Does (I : Mem → Mem → Prop) (A : Set Word) (l : List Instr) (c : Cpu) (P : Cpu → Prop) :
    Prop where
  calm : Calm I A 0 l c
  ends : ∃ c1, run 0 l c = some c1 ∧ P c1

/-- The rule of composition. -/
theorem Does.seq {I : Mem → Mem → Prop} {l1 l2 : List Instr} {P Q : Cpu → Prop} (hl : Straight l1)
    (h1 : Does I A l1 c P) (h2 : ∀ c, P c → Does I A l2 c Q) : Does I A (l1 ++ l2) c Q := by
  obtain ⟨c1, e1, hP⟩ := h1.ends
  refine ⟨calm_append hl h1.calm fun c2 e2 => ?_, ?_⟩
  · cases e1.symm.trans e2
    exact (h2 c1 hP).calm
  · rw [run_append hl, e1]
    exact (h2 c1 hP).ends

/-- The branch is not taken. -/
theorem Does.missed {I : Mem → Mem → Prop} {l : List Instr} {n : Nat} {P : Cpu → Prop}
    (hz : c.zero = false)
    (hs : Safe I A c.mem) (h : Does I A l c P) : Does I A (.beq n :: l) c P := by
  have he : (Instr.beq n).exec c = some (0, c) := by
    rw [Instr.exec, hz]
    rfl
  refine ⟨⟨fun _ => hs, fun a ha => ha.elim, fun x hx => ?_⟩, ?_⟩
  · cases he.symm.trans hx
    exact h.calm
  · rw [run, he]
    exact h.ends

/-- The branch is taken. -/
theorem Does.taken {I : Mem → Mem → Prop} {l1 l2 : List Instr} {P : Cpu → Prop} (hz : c.zero = true)
    (hs : Safe I A c.mem) (h : Does I A l2 c P) : Does I A (.beq l1.length :: (l1 ++ l2)) c P := by
  have he : (Instr.beq l1.length).exec c = some (l1.length, c) := by
    rw [Instr.exec, hz]
    rfl
  refine ⟨⟨fun _ => hs, fun a ha => ha.elim, fun x hx => ?_⟩, ?_⟩
  · cases he.symm.trans hx
    exact (calm_skip l1).mpr h.calm
  · rw [run, he]
    show ∃ c1, run l1.length (l1 ++ l2) c = some c1 ∧ P c1
    rw [run_skip]
    exact h.ends

/-- What code does is what every run of it with interrupts does. -/
theorem Does.runs {I : Mem → Mem → Prop} {l : List Instr} {P : Cpu → Prop} {o : Option Cpu}
    (h : Does I A l c P)
    (hd : Like A c d) (hr : Runs I 0 l d o) : ∃ c1 d1, P c1 ∧ o = some d1 ∧ Like A c1 d1 := by
  obtain ⟨c1, e, hP⟩ := h.ends
  obtain ⟨d1, rfl, h1⟩ := hr.like hd h.calm e
  exact ⟨c1, d1, hP, rfl, h1⟩

theorem runWith_runs {I : Mem → Mem → Prop} {f : Mem → Mem} (hI : ∀ m, I m (f m)) :
    ∀ {l : List Instr} {k : Nat} {c c' : Cpu}, runWith f k l c = some c' → Runs I k l c (some c')
  | [], _, _, _, h => by
    rw [runWith] at h
    exact Option.some.inj h ▸ .nil
  | _ :: l, k + 1, c, c', h => .skip (runWith_runs hI h)
  | i :: l, 0, c, c', h => by
    obtain ⟨⟨k, c1⟩, e, h⟩ := Option.bind_eq_some_iff.mp h
    refine Runs.exec ?_ e (runWith_runs hI h)
    unfold Cpu.Between
    split
    · rfl
    · exact hI _

theorem runWith_id : ∀ {l : List Instr} {k : Nat} {c : Cpu}, runWith id k l c = run k l c
  | [], _, _ => by rw [runWith, run]
  | _ :: l, k + 1, c => runWith_id (l := l)
  | i :: l, 0, c => by
    rw [runWith, run, id, ite_self]
    exact congrArg (Option.bind (i.exec c)) (funext fun x => runWith_id (l := l))

/-- Without interrupts that change anything, the only run is `run`. -/
theorem run_runs {I : Mem → Mem → Prop} (hI : ∀ m, I m m) {l : List Instr} {k : Nat} {c c' : Cpu}
    (h : run k l c = some c') : Runs I k l c (some c') := runWith_runs hI (runWith_id.trans h)

end Likeness

end Thumb
