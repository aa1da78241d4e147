/-
  The kernel heap (`kernelHeap.c`): `CoCreateKheap`, `CoKmalloc`, `CoKfree`, `GetPreFMB`.

  Memory is a function from addresses to 32-bit words; only word-aligned addresses are ever
  read or written. The two headers overlay each other in memory, as in C:

      address   UMB       FMB
      p         nextMB    nextFMB
      p + 4     preMB     nextUMB
      p + 8     payload   preUMB

  so the order of the writes matters, and it is the order of the source. Pointers are
  addresses and `Co_NULL` is `0`; a pointer with `1` added marks a used block. The calls of
  `OsSchedLock` and `OsSchedUnlock` around the bodies are left out: they do not read or
  write the heap.

  A loop over the blocks takes as many rounds as the heap has words, and returns `none` when
  it has not ended by then.
-/
import CoOS.Lib.Word
import Mathlib.Logic.Function.Basic

namespace CoOS

open Function (update)
open Word32

/-- The array `KernelHeap`: its address and `KHEAP_SIZE`, at least `0x20` words
    (`OsError.h`). It is an array of words in a 32-bit address space, and not at `Co_NULL`. -/
structure KheapCfg where
  KernelHeap : Nat
  KHEAP_SIZE : Nat
  size_ge : 0x20 ≤ KHEAP_SIZE
  aligned : KernelHeap % 4 = 0
  pos : 0 < KernelHeap
  fits : KernelHeap + KHEAP_SIZE * 4 < 2 ^ 32

/-- Memory, `FMBlist` and `Kheap`. -/
structure Heap where
  mem : Nat → Nat
  FMBlist : Nat
  startAddr : Nat
  endAddr : Nat

/-! ## Headers -/

def Heap.nextMB (h : Heap) (p : Nat) : Nat := h.mem p
def Heap.preMB (h : Heap) (p : Nat) : Nat := h.mem (p + 4)
def Heap.nextFMB (h : Heap) (p : Nat) : Nat := h.mem p
def Heap.nextUMB (h : Heap) (p : Nat) : Nat := h.mem (p + 4)
def Heap.preUMB (h : Heap) (p : Nat) : Nat := h.mem (p + 8)

/-- Write one word. -/
def Heap.store (h : Heap) (a v : Nat) : Heap := { h with mem := update h.mem a v }

def Heap.setNextMB (h : Heap) (p v : Nat) : Heap := h.store p v
def Heap.setPreMB (h : Heap) (p v : Nat) : Heap := h.store (p + 4) v
def Heap.setNextFMB (h : Heap) (p v : Nat) : Heap := h.store p v
def Heap.setNextUMB (h : Heap) (p v : Nat) : Heap := h.store (p + 4) v
def Heap.setPreUMB (h : Heap) (p v : Nat) : Heap := h.store (p + 8) v

/-- The rounds given to a loop over the blocks. -/
def Heap.words (h : Heap) : Nat := (h.endAddr - h.startAddr) / 4

/-- `CoCreateKheap`, over the memory as it is. -/
def coCreateKheap (cfg : KheapCfg) (mem : Nat → Nat) : Heap :=
  let h : Heap := ⟨mem, cfg.KernelHeap, cfg.KernelHeap, add32 cfg.KernelHeap (cfg.KHEAP_SIZE * 4)⟩
  ((h.setNextFMB h.FMBlist 0).setNextUMB h.FMBlist 0).setPreUMB h.FMBlist 0

/-! ## CoKmalloc -/

/-- `preFMB->nextFMB = p`, or `FMBlist = p` for the first free block. -/
def Heap.linkFMB (h : Heap) (preFMB p : Nat) : Heap :=
  if preFMB ≠ 0 then h.setNextFMB preFMB p else { h with FMBlist := p }

/-- `freeSize`. -/
def freeSize (h : Heap) (freeMB : Nat) : Nat :=
  if h.nextUMB freeMB = 0 then sub32 h.endAddr freeMB
  else sub32 (sub32 (h.nextUMB freeMB) 1) freeMB

/-- Assign the whole of `freeMB`. -/
def takeWhole (h : Heap) (freeMB preFMB : Nat) : Heap :=
  let h := h.linkFMB preFMB (h.nextFMB freeMB)
  let h := if h.nextUMB freeMB ≠ 0 then
    h.setPreMB (sub32 (h.nextUMB freeMB) 1) (freeMB ||| 1) else h
  let h := h.setNextMB freeMB (h.nextUMB freeMB)
  h.setPreMB freeMB (h.preUMB freeMB)

/-- Assign the first `size` bytes of `freeMB` and leave a new free block after them. -/
def takePart (h : Heap) (freeMB preFMB size : Nat) : Heap :=
  let newFMB := add32 freeMB size
  let h := h.linkFMB preFMB newFMB
  let h := h.setPreUMB newFMB (freeMB ||| 1)
  let h := h.setNextUMB newFMB (h.nextUMB freeMB)
  let h := h.setNextFMB newFMB (h.nextFMB freeMB)
  let h := if h.nextUMB freeMB ≠ 0 then
    h.setPreMB (sub32 (h.nextUMB freeMB) 1) newFMB else h
  let h := h.setNextMB freeMB newFMB
  h.setPreMB freeMB (h.preUMB freeMB)

/-- The assignment in `freeMB`, once it is found large enough. -/
def assignIn (h : Heap) (freeMB preFMB size : Nat) : Heap :=
  let h := if sub32 (freeSize h freeMB) size < 12 then takeWhole h freeMB preFMB
    else takePart h freeMB preFMB size
  if h.preUMB freeMB ≠ 0 then
    h.setNextMB (sub32 (h.preUMB freeMB) 1) (freeMB ||| 1) else h

/-- The loop over the free blocks: the first one that is large enough is used. -/
def kmallocLoop (h : Heap) (size : Nat) : Nat → Nat → Nat → Option (Heap × Nat)
  | 0, _, _ => none
  | fuel + 1, freeMB, preFMB =>
    if freeMB = 0 then some (h, 0)
    else if size ≤ freeSize h freeMB then
      some (assignIn h freeMB preFMB size, add32 freeMB 8)
    else kmallocLoop h size fuel (h.nextFMB freeMB) freeMB

/-- The size with its header: `(((size+3)>>2)<<2) + 8`. -/
def blockSize (size : Nat) : Nat := add32 ((add32 size 3 >>> 2) <<< 2) 8

/-- `CoKmalloc`: the address of the payload, or `0`. -/
def coKmalloc (h : Heap) (size : Nat) : Option (Heap × Nat) :=
  if size = 0 then some (h, 0)
  else kmallocLoop h (blockSize size) (h.words + 1) h.FMBlist 0

/-! ## CoKfree -/

/-- The search back from the first free block along `preMB`. -/
def searchBack (h : Heap) (usedMB : Nat) : Nat → Nat → Option Bool
  | 0, _ => none
  | fuel + 1, preUMB =>
    if preUMB = usedMB then some true
    else if preUMB = 0 then some false
    else searchBack h usedMB fuel (sub32 (h.preMB preUMB) 1)

/-- The search along `nextMB`, over the free blocks. -/
def searchOn (h : Heap) (usedMB : Nat) : Nat → Nat → Option Bool
  | 0, _ => none
  | fuel + 1, nextUMB =>
    if nextUMB = usedMB then some true
    else if nextUMB = 0 then some false
    else if h.nextMB nextUMB &&& 1 = 0 then
      searchOn h usedMB fuel (sub32 (h.nextUMB (h.nextMB nextUMB)) 1)
    else searchOn h usedMB fuel (sub32 (h.nextMB nextUMB) 1)

/-- The check of `CoKfree` that `usedMB` is a used block. -/
def findUMB (h : Heap) (usedMB : Nat) : Option Bool :=
  if usedMB < h.FMBlist then
    searchBack h usedMB (h.words + 1) (sub32 (h.preUMB h.FMBlist) 1)
  else
    searchOn h usedMB (h.words + 1)
      (if h.FMBlist = 0 then h.startAddr
        else if h.nextUMB h.FMBlist ≠ 0 then sub32 (h.nextUMB h.FMBlist) 1
        else 0)

/-- `GetPreFMB`. -/
def getPreFMB (h : Heap) : Nat → Nat → Option Nat
  | 0, _ => none
  | fuel + 1, preUMB =>
    if h.preMB preUMB &&& 1 ≠ 0 then getPreFMB h fuel (sub32 (h.preMB preUMB) 1)
    else some (h.preMB preUMB)

/-- Release between two free blocks or heap ends. The result is the heap and `curFMB`. -/
def releaseFreeFree (h : Heap) (usedMB : Nat) : Heap × Nat :=
  let nextFMB := h.nextMB usedMB
  let preFMB := h.preMB usedMB
  if nextFMB = 0 ∧ preFMB = 0 then
    let h := ((h.setNextFMB usedMB 0).setNextUMB usedMB 0).setPreUMB usedMB 0
    ({ h with FMBlist := usedMB }, usedMB)
  else if preFMB = 0 then
    let h := h.setNextFMB usedMB (h.nextFMB nextFMB)
    let h := h.setNextUMB usedMB (h.nextUMB nextFMB)
    let h := h.setPreUMB usedMB 0
    ({ h with FMBlist := usedMB }, usedMB)
  else if nextFMB = 0 then
    ((h.setNextFMB preFMB 0).setNextUMB preFMB 0, preFMB)
  else
    let h := h.setNextFMB preFMB (h.nextFMB nextFMB)
    (h.setNextUMB preFMB (h.nextUMB nextFMB), preFMB)

/-- Release between a free block, or the start of the heap, and a used block. -/
def releaseFreeUsed (h : Heap) (usedMB : Nat) : Heap × Nat :=
  let nextUMB := h.nextMB usedMB
  let preFMB := h.preMB usedMB
  if preFMB = 0 then
    let h := h.setNextUMB usedMB nextUMB
    let h := h.setPreUMB usedMB 0
    let h := h.setNextFMB usedMB h.FMBlist
    ({ h with FMBlist := usedMB }, usedMB)
  else (h.setNextUMB preFMB nextUMB, preFMB)

/-- Release between a used block and a free block, or the end of the heap. -/
def releaseUsedFree (h : Heap) (usedMB : Nat) : Option (Heap × Nat) := do
  let preUMB := h.preMB usedMB
  let preFMB ← getPreFMB h (h.words + 1) usedMB
  let nextFMB := if preFMB = 0 then h.FMBlist else h.nextFMB preFMB
  let h := h.linkFMB preFMB usedMB
  if nextFMB = 0 then
    some (((h.setPreUMB usedMB preUMB).setNextUMB usedMB 0).setNextFMB usedMB 0, usedMB)
  else
    let h := h.setPreUMB usedMB preUMB
    let h := h.setNextUMB usedMB (h.nextUMB nextFMB)
    some (h.setNextFMB usedMB (h.nextFMB nextFMB), usedMB)

/-- Release between two used blocks. -/
def releaseUsedUsed (h : Heap) (usedMB : Nat) : Option (Heap × Nat) := do
  let preFMB ← getPreFMB h (h.words + 1) usedMB
  let preUMB := h.preMB usedMB
  let nextUMB := h.nextMB usedMB
  let nextFMB := if preFMB = 0 then h.FMBlist else h.nextFMB preFMB
  let h := h.linkFMB preFMB usedMB
  some (((h.setPreUMB usedMB preUMB).setNextUMB usedMB nextUMB).setNextFMB usedMB nextFMB, usedMB)

/-- The four ways to release, by the tags of the neighbours. -/
def release (h : Heap) (usedMB : Nat) : Option (Heap × Nat) :=
  if h.nextMB usedMB &&& 1 = 0 ∧ h.preMB usedMB &&& 1 = 0 then some (releaseFreeFree h usedMB)
  else if h.preMB usedMB &&& 1 = 0 then some (releaseFreeUsed h usedMB)
  else if h.nextMB usedMB &&& 1 = 0 then releaseUsedFree h usedMB
  else releaseUsedUsed h usedMB

/-- The end of `CoKfree`: the used neighbours of `curFMB` are pointed at it. -/
def linkNeighbours (h : Heap) (curFMB : Nat) : Heap :=
  let h := if h.preUMB curFMB ≠ 0 then h.setNextMB (sub32 (h.preUMB curFMB) 1) curFMB else h
  if h.nextUMB curFMB ≠ 0 then h.setPreMB (sub32 (h.nextUMB curFMB) 1) curFMB else h

/-- `CoKfree`. -/
def coKfree (h : Heap) (memBuf : Nat) : Option Heap :=
  if memBuf = 0 then some h
  else if memBuf < h.startAddr then some h
  else if h.endAddr < memBuf then some h
  else do
    let usedMB := sub32 memBuf 8
    if ← findUMB h usedMB then
      let (h, curFMB) ← release h usedMB
      some (linkNeighbours h curFMB)
    else some h

end CoOS
