/-
  Memory partitions (`mm.c`): buffers of blocks of one size, whose free blocks form a chain
  through their own first words.

  Memory is a function from addresses to 32-bit words, and a pointer is an address with `Co_NULL`
  as `0`. The chain runs through addresses of one partition, which are congruent modulo 4, so no
  two of its words overlap. `MemoryIDVessel` is held bit by bit. The calls of `OsSchedLock` and
  `OsSchedUnlock` around the bodies are left out: they do not read or write the partitions.

  A loop that does not end is `none`. `CoCreateMemPartition` counts blocks in a `U8`, which has
  256 values; `CoGetFreeBlockNum` walks over 32-bit addresses, of which there are `2 ^ 32`.
-/
import CoOS.Lib.Word
import CoOS.Kernel.State

namespace CoOS

open Function (update)
open Word32

/-- `CFG_MAX_MM`, at most 32 (`OsError.h`). -/
structure MmCfg where
  CFG_MAX_MM : Nat
  max_le : CFG_MAX_MM ≤ 32

/-- `MM`, the control block of a partition. -/
structure MM where
  memAddr : Nat
  freeBlock : Nat
  blockSize : Nat
  blockNum : Nat

/-- Memory, `MemoryTbl` and `MemoryIDVessel`. -/
structure Partitions where
  mem : Nat → Nat
  MemoryTbl : Nat → MM
  MemoryIDVessel : Nat → Bool

/-- The parameter checks of `CoCreateMemPartition`. -/
def badPartition (memBuf blockSize blockNum : Nat) : Prop :=
  memBuf = 0 ∨ blockSize = 0 ∨ blockSize &&& 3 ≠ 0 ∨ blockNum ≤ 1

instance (memBuf blockSize blockNum : Nat) : Decidable (badPartition memBuf blockSize blockNum) :=
  inferInstanceAs (Decidable (_ ∨ _))

/-- The first free memory ID from `i` on. -/
def freeMmId (s : Partitions) : Nat → Nat → Option Nat
  | 0, _ => none
  | n + 1, i => if s.MemoryIDVessel i then freeMmId s n (i + 1) else some i

/-- The loop that builds the chain, `for(j=0;j<blockNum-1;j++)`, and the end of the chain. -/
def buildChain (blockSize blockNum : Nat) : Nat → Nat → Nat → Nat → (Nat → Nat) → Option (Nat → Nat)
  | 0, _, _, _, _ => none
  | fuel + 1, j, memory, memBlk, mem =>
    if j < blockNum - 1 then
      let memory := add32 memory blockSize
      let mem := update mem memBlk memory
      buildChain blockSize blockNum fuel ((j + 1) % 256) memory (mem memBlk) mem
    else some (update mem memBlk 0)

/-- `CoCreateMemPartition`: the memory ID, or `E_CREATE_FAIL`. -/
def coCreateMemPartition (cfg : MmCfg) (s : Partitions) (memBuf blockSize blockNum : Nat) :
    Option (Partitions × Nat) :=
  if badPartition memBuf blockSize blockNum then some (s, INVALID_ID)
  else
    match freeMmId s cfg.CFG_MAX_MM 0 with
    | none => some (s, INVALID_ID)
    | some i =>
      (buildChain blockSize blockNum 256 0 memBuf memBuf s.mem).map fun mem =>
        ({ mem := mem
           MemoryTbl := update s.MemoryTbl i ⟨memBuf, memBuf, blockSize, blockNum⟩
           MemoryIDVessel := update s.MemoryIDVessel i true }, i)

/-- The check of the memory ID. -/
def badMm (cfg : MmCfg) (s : Partitions) (mmID : Nat) : Prop :=
  cfg.CFG_MAX_MM ≤ mmID ∨ s.MemoryIDVessel mmID = false

instance (cfg : MmCfg) (s : Partitions) (mmID : Nat) : Decidable (badMm cfg s mmID) :=
  inferInstanceAs (Decidable (_ ∨ _))

/-- `CoDelMemoryPartition`. -/
def coDelMemoryPartition (cfg : MmCfg) (s : Partitions) (mmID : Nat) : Partitions × StatusType :=
  if badMm cfg s mmID then (s, .E_INVALID_ID)
  else ({ s with
    MemoryTbl := update s.MemoryTbl mmID ⟨0, 0, 0, 0⟩
    MemoryIDVessel := update s.MemoryIDVessel mmID false }, .E_OK)

/-- `while(memBlk != Co_NULL)`. -/
def countBlocks (mem : Nat → Nat) : Nat → Nat → Nat → Option Nat
  | 0, _, _ => none
  | fuel + 1, memBlk, fbNum =>
    if memBlk = 0 then some fbNum else countBlocks mem fuel (mem memBlk) (fbNum + 1)

/-- `CoGetFreeBlockNum`. -/
def coGetFreeBlockNum (cfg : MmCfg) (s : Partitions) (mmID : Nat) : Option (Nat × StatusType) :=
  if badMm cfg s mmID then some (0, .E_INVALID_ID)
  else (countBlocks s.mem (2 ^ 32 + 1) (s.MemoryTbl mmID).freeBlock 0).map fun n => (n, .E_OK)

/-- `CoGetMemoryBuffer`: the address of the block, or `Co_NULL`. -/
def coGetMemoryBuffer (cfg : MmCfg) (s : Partitions) (mmID : Nat) : Partitions × Nat :=
  if badMm cfg s mmID then (s, 0)
  else
    let memCtl := s.MemoryTbl mmID
    if memCtl.freeBlock = 0 then (s, 0)
    else
      let memBlk := memCtl.freeBlock
      ({ s with MemoryTbl := update s.MemoryTbl mmID { memCtl with freeBlock := s.mem memBlk } },
        memBlk)

/-- The checks of the address that `CoFreeMemoryBuffer` is given. -/
def badBuffer (memCtl : MM) (buf : Nat) : Prop :=
  buf = 0 ∨ buf < memCtl.memAddr ∨
    add32 memCtl.memAddr (memCtl.blockSize * memCtl.blockNum % 2 ^ 32) < buf ∨
    sub32 buf memCtl.memAddr % memCtl.blockSize ≠ 0

instance (memCtl : MM) (buf : Nat) : Decidable (badBuffer memCtl buf) :=
  inferInstanceAs (Decidable (_ ∨ _))

/-- `CoFreeMemoryBuffer`. -/
def coFreeMemoryBuffer (cfg : MmCfg) (s : Partitions) (mmID buf : Nat) : Partitions × StatusType :=
  if badMm cfg s mmID then (s, .E_INVALID_ID)
  else if badBuffer (s.MemoryTbl mmID) buf then (s, .E_INVALID_PARAMETER)
  else
    let memCtl := s.MemoryTbl mmID
    ({ s with
      mem := update s.mem buf memCtl.freeBlock
      MemoryTbl := update s.MemoryTbl mmID { memCtl with freeBlock := buf } }, .E_OK)

end CoOS
