/-
  `Inc8` and `Dec8`: interrupts come before the byte is read or after it is written, so that neither
  loses what an interrupt does to the byte.
-/
import Mathlib.Logic.Relation
import CoOS.Port.Handlers

namespace CoOS

open Function (update)
open Relation (ReflTransGen)
open Thumb Thumb.Reg Thumb.Instr

variable {I : Mem → Mem → Prop} {c : Cpu} {l : List Instr} {o : Option Cpu}

/-- The end of both: `R1` is restored. -/
theorem bytes_return (hp : c.primask = false) (hs : Aligned c.sp)
    (hl : (c.reg LR).toNat < 0xF0000000)
    (h : Runs I 0 [.movsReg R0 R1, .pop R1, .bx LR] c o) :
    ∃ c', o = some c' ∧ ReflTransGen I c.mem c'.mem ∧ c'.reg R0 = c.reg R1 := by
  obtain ⟨m1, h1, h⟩ := h.step (fun _ => rfl)
  have hx : ∀ m,
    (Instr.pop R1).exec ((((c.withMem m1).set R0 (c.reg R1)).flagsNZ (c.reg R1)).withMem m) =
      some (0, ((((c.withMem m).set R0 (c.reg R1)).flagsNZ (c.reg R1)).set R1 (m c.sp)).setSp
        (c.sp + 4)) := fun m => by
    show Option.map _ (if Aligned c.sp then _ else _) = _
    rw [if_pos hs]
    rfl
  obtain ⟨m2, h2, h⟩ := h.step hx
  obtain ⟨d, e⟩ : ∃ d,
    ((((c.withMem m2).set R0 (c.reg R1)).flagsNZ (c.reg R1)).set R1 (m2 c.sp)).setSp
      (c.sp + 4) = d := ⟨_, rfl⟩
  rw [e] at h
  have hreg : d.reg = update (update c.reg R0 (c.reg R1)) R1 (m2 c.sp) := by
    rw [← e, setSp_reg]
    rfl
  have hm : d.mem = m2 := by rw [← e, setSp_mem]; rfl
  have hpd : d.primask = false := by rw [← e, setSp_primask]; exact hp
  have hbx : ∀ m, (Instr.bx LR).exec (d.withMem m) =
      some (0, { d.withMem m with pc := d.reg LR - d.reg LR % 2 }) := fun m => by
    have hr : d.reg LR = c.reg LR := by rw [hreg]; rfl
    have hd : decide (0xF0000000 ≤ (d.reg LR).toNat) = false := by
      rw [hr]
      exact decide_eq_false (by omega)
    show Option.map _ ((d.withMem m).branch (d.reg LR)) = _
    unfold Cpu.branch
    rw [hd, Bool.and_false, if_neg Bool.false_ne_true]
    rfl
  obtain ⟨m3, h3, h⟩ := h.step hbx
  cases h
  refine ⟨_, rfl, ?_, ?_⟩
  · have i2 : I m1 m2 :=
      Cpu.Between.unmasked (c := ((c.withMem m1).set R0 (c.reg R1)).flagsNZ (c.reg R1)) h2 hp
    have i3 : I m2 m3 := hm ▸ h3.unmasked hpd
    exact ((ReflTransGen.single (h1.unmasked hp)).tail i2).tail i3
  · show d.reg R0 = _
    rw [hreg]
    rfl

/-- The part in which interrupts are masked: `x` is added to the byte at `R0`. -/
theorem bytes_write {x : Word} {j : Instr}
    (hj : ∀ d : Cpu, ∃ y, j.exec d = some (0, { d.set R1 (d.reg R1 + x) with xpsr := y }))
    (hp : c.primask = false) (hs : Aligned c.sp)
    (h : Runs I 0 ([.push R1, .cpsid, .ldrb R1 R0, j, .strb R1 R0, .cpsie] ++ l) c o) :
    ∃ m0 m1 d, I c.mem m0 ∧ I (update m0 (c.sp - 4) (c.reg R1)) m1 ∧ Runs I 0 l d o ∧
      d.mem = storeByte m1 (c.reg R0) (((loadByte m1 (c.reg R0)).setWidth 32 + x).setWidth 8) ∧
      d.reg R1 = (loadByte m1 (c.reg R0)).setWidth 32 + x ∧ d.reg LR = c.reg LR ∧ d.sp = c.sp - 4 ∧
        d.primask = false := by
  have hx : ∀ m, (Instr.push R1).exec (c.withMem m) =
      some (0, (c.withMem (update m (c.sp - 4) (c.reg R1))).setSp (c.sp - 4)) := fun m => by
    show Option.map _ (if Aligned c.sp then _ else _) = _
    rw [if_pos hs]
    rfl
  obtain ⟨m0, h0, h⟩ := h.step hx
  obtain ⟨d, e⟩ : ∃ d, (c.withMem (update m0 (c.sp - 4) (c.reg R1))).setSp (c.sp - 4) = d :=
    ⟨_, rfl⟩
  rw [e] at h
  have hreg : d.reg = c.reg := by rw [← e, setSp_reg]
  have hm : d.mem = update m0 (c.sp - 4) (c.reg R1) := by rw [← e, setSp_mem]
  have hpd : d.primask = false := by rw [← e, setSp_primask]; exact hp
  have hsd : d.sp = c.sp - 4 := by rw [← e, setSp_sp]
  obtain ⟨m1, h1, h⟩ := h.step (fun _ => rfl)
  have h := h.masked rfl rfl
  obtain ⟨y, ey⟩ := hj _
  have h := h.masked rfl ey
  have h := h.masked rfl rfl
  have h := h.masked rfl rfl
  refine ⟨m0, m1, _, h0.unmasked hp, hm ▸ h1.unmasked hpd, h, ?_, ?_, ?_, hsd, rfl⟩
  · show storeByte m1 (d.reg R0) (((loadByte m1 (d.reg R0)).setWidth 32 + x).setWidth 8) = _
    rw [hreg]
  · show (loadByte m1 (d.reg R0)).setWidth 32 + x = _
    rw [hreg]
  · show d.reg LR = _
    rw [hreg]

/-- **`Inc8` with interrupts**: they come in before the byte is read and after it is written, so
    that the write adds one to what they have left there; the value before it is returned. -/
theorem inc8_atomic (hp : c.primask = false) (hs : Aligned c.sp)
    (hl : (c.reg LR).toNat < 0xF0000000)
    (h : Runs I 0 Inc8 c o) :
    ∃ m0 m1 c', o = some c' ∧ I c.mem m0 ∧ I (update m0 (c.sp - 4) (c.reg R1)) m1 ∧
      ReflTransGen I (storeByte m1 (c.reg R0) (loadByte m1 (c.reg R0) + 1)) c'.mem ∧
      c'.reg R0 = (loadByte m1 (c.reg R0)).setWidth 32 := by
  obtain ⟨m0, m1, d, h0, h1, h, hm, hr, hlr, hsp, hpd⟩ :=
    bytes_write (x := 1) (j := .adds R1 1) (fun _ => ⟨_, rfl⟩) hp hs h
  obtain ⟨m2, h2, h⟩ := h.step (fun _ => rfl)
  have hs' : Aligned d.sp := hsp ▸ aligned_sub hs 1
  have hl' : (d.reg LR).toNat < 0xF0000000 := hlr ▸ hl
  obtain ⟨c', rfl, h3, h4⟩ :=
    bytes_return (c := ((d.withMem m2).set R1 (d.reg R1 - 1)).flagsSub (d.reg R1) 1) hpd hs' hl' h
  have hb : ((loadByte m1 (c.reg R0)).setWidth 32 + 1 : Word).setWidth 8 = loadByte m1 (c.reg R0) +
    1 := by bv_omega
  refine ⟨m0, m1, c', rfl, h0, h1, ?_, ?_⟩
  · rw [← hb, ← hm]
    exact ReflTransGen.head (h2.unmasked hpd) h3
  · refine h4.trans ?_
    show d.reg R1 - 1 = _
    rw [hr]
    bv_omega

/-- A processor at the entry of `Inc8`. -/
def atInc8 : Cpu where
  reg r := if r = R0 then 0x20000009 else 0x08000001
  psp := 0x20001080
  msp := 0x20003000
  pc := 0x08000100
  xpsr := 0x01000000
  handler := false
  spsel := true
  primask := false
  stkalign := true
  mem _ := 0x01020304

/-- An interrupt that adds one to the byte, with `Inc8` itself. -/
def bump (m : Mem) : Mem := storeByte m 0x20000009 (loadByte m 0x20000009 + 1)

/-- Such an interrupt comes between any two instructions: the byte, which was 3, is 5 when it is
    read, and 10 in the end. -/
theorem inc8_atomic_interrupted :
    ∃ c m, runWith bump 0 Inc8 atInc8 = some c ∧ loadByte m 0x20000009 = 5 ∧
    ReflTransGen (fun m m' => m' = bump m) (storeByte m 0x20000009 6) c.mem ∧
    loadByte c.mem 0x20000009 = 10 ∧ c.reg R0 = 5 := by
  have e : (runWith bump 0 Inc8 atInc8).map (fun c => loadByte c.mem 0x20000009) = some 10 := by
    decide +kernel
  obtain ⟨c, hc, hb⟩ := Option.map_eq_some_iff.mp e
  have h : Runs (fun m m' => m' = bump m) 0 Inc8 atInc8 (some c) :=
    @runWith_runs (fun m m' => m' = bump m) bump (fun _ => rfl) _ _ _ _ hc
  obtain ⟨m0, m, _, ec, e0, e1, hm, hr⟩ := inc8_atomic rfl (by decide) (by decide) h
  obtain rfl := Option.some.inj ec
  have h5 : loadByte m 0x20000009 = 5 := by
    rw [e1, e0]
    decide +kernel
  have hm' : ReflTransGen _ (storeByte m 0x20000009 (loadByte m 0x20000009 + 1)) c.mem := hm
  have hr' : c.reg R0 = (loadByte m 0x20000009).setWidth 32 := hr
  rw [h5] at hm' hr'
  exact ⟨c, m, hc, h5, hm', hb, hr'⟩

/-- **`Dec8` with interrupts**, likewise; the value after it is returned. -/
theorem dec8_atomic (hp : c.primask = false) (hs : Aligned c.sp)
    (hl : (c.reg LR).toNat < 0xF0000000)
    (h : Runs I 0 Dec8 c o) :
    ∃ m0 m1 c', o = some c' ∧ I c.mem m0 ∧ I (update m0 (c.sp - 4) (c.reg R1)) m1 ∧
      ReflTransGen I (storeByte m1 (c.reg R0) (loadByte m1 (c.reg R0) - 1)) c'.mem ∧
      c'.reg R0 = (loadByte m1 (c.reg R0)).setWidth 32 - 1 := by
  have hj : ∀ d : Cpu, ∃ y,
    (Instr.subs R1 1).exec d = some (0, { d.set R1 (d.reg R1 + -1) with xpsr := y }) := fun d => by
    rw [show d.reg R1 + -1 = d.reg R1 - 1 by bv_omega]
    exact ⟨_, rfl⟩
  obtain ⟨m0, m1, d, h0, h1, h, hm, hr, hlr, hsp, hpd⟩ :=
    bytes_write (x := -1) (j := .subs R1 1) hj hp hs h
  have hs' : Aligned d.sp := hsp ▸ aligned_sub hs 1
  obtain ⟨c', rfl, h3, h4⟩ := bytes_return hpd hs' (hlr ▸ hl) h
  have hb : ((loadByte m1 (c.reg R0)).setWidth 32 + -1 : Word).setWidth 8 =
    loadByte m1 (c.reg R0) - 1 := by bv_omega
  refine ⟨m0, m1, c', rfl, h0, h1, ?_, ?_⟩
  · rw [← hb, ← hm]
    exact h3
  · rw [h4, hr]
    bv_omega

end CoOS
