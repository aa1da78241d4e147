/-
  The priority table of the binary scheduler (`task.c`, `CFG_ORDER_LIST_SCHEDULE_EN` 0):
  `ActivePri[0..PriNum-1]` lists the priorities in use, `TaskNumPerPri` counts their tasks,
  `RdyTaskPri` names the last ready task of each, and bit `i` of the word array
  `RdyTaskPriInfo` says whether entry `i` has one.

  A loop whose exit depends on the table takes fuel and returns `none` when the fuel runs
  out: `getPriSeqNum` is given one step more than it has entries.
-/
import Mathlib.Algebra.Group.Nat.Defs
import CoOS.Kernel.State

namespace CoOS

open Function (update)

/-- The `while(num != seqNum)` loop of `GetPriSeqNum`. -/
def getPriSeqNumLoop (active : Nat → Nat) (pri : Nat) : Nat → Nat → Nat → Option (Bool × Nat)
  | 0, _, _ => none
  | fuel + 1, num, seqNum =>
    if num = seqNum then some (false, num)
    else if pri = active ((num + seqNum) / 2) then some (true, (num + seqNum) / 2)
    else if pri < active ((num + seqNum) / 2) then
      getPriSeqNumLoop active pri fuel num ((num + seqNum) / 2)
    else getPriSeqNumLoop active pri fuel ((num + seqNum) / 2 + 1) seqNum

/-- `GetPriSeqNum`: whether `pri` is in the table, and `*SequenceNum`. -/
def getPriSeqNum (s : Kernel) (pri : Nat) : Option (Bool × Nat) :=
  getPriSeqNumLoop s.ActivePri pri (s.PriNum + 1) 0 s.PriNum

/-- `for(cnt=j; cnt >= lo; cnt--) if(tmp&(1<<cnt)) …`: the first set bit from `j` down to `lo`. -/
def scanDown (tmp lo : Nat) : Nat → Option Nat
  | 0 => if lo = 0 ∧ tmp.testBit 0 then some 0 else none
  | cnt + 1 =>
    if cnt + 1 < lo then none
    else if tmp.testBit (cnt + 1) then some (cnt + 1)
    else scanDown tmp lo cnt

/-- The body of the inner `do … while((num--)!=0)` of `GetRdyPriSeqNum`: the byte `num` of
    `tmp`, from bit `j` of the word down, the high nibble first. -/
def scanByte (tmp num j : Nat) : Option Nat :=
  if tmp &&& (0xff <<< (num * 8)) = 0 then none
  else
    let high := if tmp &&& (0xf0 <<< (num * 8)) = 0 then none else scanDown tmp (num * 8 + 4) j
    match high with
    | some cnt => some cnt
    | none => scanDown tmp (num * 8) (if j &&& 4 = 4 then (j ||| 3) - 4 else j)

/-- The inner loop: bytes `num`, `num - 1`, …, `0` of one word. -/
def scanWord (tmp : Nat) : Nat → Nat → Option Nat
  | 0, j => scanByte tmp 0 j
  | num + 1, j =>
    match scanByte tmp (num + 1) j with
    | some cnt => some cnt
    | none => scanWord tmp num ((num + 1) * 8 - 1)

/-- The outer loop: words `i`, `i - 1`, …, `0`. -/
def scanInfo (info : Nat → Nat) : Nat → Nat → Nat
  | 0, j =>
    match if info 0 ≠ 0 then scanWord (info 0) (j / 8) j else none with
    | some cnt => cnt
    | none => INVALID_ID
  | i + 1, j =>
    match if info (i + 1) ≠ 0 then scanWord (info (i + 1)) (j / 8) j else none with
    | some cnt => 32 * (i + 1) + cnt
    | none => scanInfo info i 31

/-- `GetRdyPriSeqNum`: the nearest ready entry at or before `seqNum`. -/
def getRdyPriSeqNum (s : Kernel) (seqNum : Nat) : Nat :=
  scanInfo s.RdyTaskPriInfo (seqNum / 32) (seqNum % 32)

/-- The loop of `PrioRemap` over `i = seqNum, …, PriNum-1`, with `n` rounds left. -/
def prioRemapLoop (rdy : Nat → Nat) (seqNum : Nat) :
    Nat → Nat → Nat → Nat → (Nat → Nat) → (Nat → Nat)
  | 0, _, j, tmp, info => update info j tmp
  | n + 1, i, j, tmp, info =>
    let newWord := i % 32 = 0 ∧ i ≠ seqNum
    let info' := if newWord then update info j tmp else info
    let j' := if newWord then j + 1 else j
    let tmp' := if newWord then 0 else tmp
    prioRemapLoop rdy seqNum n (i + 1) j'
      (if rdy i ≠ INVALID_ID then tmp' ||| (1 <<< (i % 32)) else tmp') info'

/-- `PrioRemap`: rebuild the ready bits from entry `seqNum` on. -/
def prioRemap (s : Kernel) (seqNum : Nat) : Kernel :=
  let mask := (List.range (seqNum % 32)).foldl (fun t i => t ||| (1 <<< i)) 0
  let info := prioRemapLoop s.RdyTaskPri seqNum (s.PriNum - seqNum) seqNum (seqNum / 32)
    (mask &&& s.RdyTaskPriInfo (seqNum / 32)) s.RdyTaskPriInfo
  { s with RdyTaskPriInfo := info }

/-- `GetPrioSeqNumStatus`. -/
def getPrioSeqNumStatus (s : Kernel) (seqNum : Nat) : Bool :=
  (s.RdyTaskPriInfo (seqNum / 32)).testBit (seqNum % 32)

/-- `SetPrioSeqNumStatus`: clear the bit, then or `isRdy` in. -/
def setPrioSeqNumStatus (s : Kernel) (seqNum : Nat) (isRdy : Bool) : Kernel :=
  let tmp := s.RdyTaskPriInfo (seqNum / 32) &&& (2 ^ 32 - 1 - (1 <<< (seqNum % 32)))
  let tmp := tmp ||| (isRdy.toNat <<< (seqNum % 32))
  { s with RdyTaskPriInfo := update s.RdyTaskPriInfo (seqNum / 32) tmp }

/-- `a[seqNum+1 .. PriNum] = a[seqNum .. PriNum-1]`, then `a[seqNum] = v`. -/
def shiftUp (a : Nat → Nat) (seqNum priNum v : Nat) : Nat → Nat := fun i =>
  if i = seqNum then v else if seqNum < i ∧ i ≤ priNum then a (i - 1) else a i

/-- `a[seqNum .. PriNum-2] = a[seqNum+1 .. PriNum-1]`. -/
def shiftDown (a : Nat → Nat) (seqNum priNum : Nat) : Nat → Nat := fun i =>
  if seqNum ≤ i ∧ i < priNum - 1 then a (i + 1) else a i

/-- `ActiveTaskPri`. -/
def activeTaskPri (s : Kernel) (pri : Nat) : Option Kernel := do
  let (found, seqNum) ← getPriSeqNum s pri
  if found then
    let num := (s.TaskNumPerPri seqNum + 1) % 256
    some { s with TaskNumPerPri := update s.TaskNumPerPri seqNum num }
  else
    some (prioRemap { s with
      ActivePri := shiftUp s.ActivePri seqNum s.PriNum pri
      TaskNumPerPri := shiftUp s.TaskNumPerPri seqNum s.PriNum 1
      RdyTaskPri := shiftUp s.RdyTaskPri seqNum s.PriNum INVALID_ID
      PriNum := s.PriNum + 1 } seqNum)

/-- `DeleteTaskPri`. -/
def deleteTaskPri (s : Kernel) (pri : Nat) : Option Kernel := do
  let (_, seqNum) ← getPriSeqNum s pri
  let num := (s.TaskNumPerPri seqNum + 255) % 256
  let s' := { s with TaskNumPerPri := update s.TaskNumPerPri seqNum num }
  if s'.TaskNumPerPri seqNum = 0 then
    some (prioRemap { s' with
      ActivePri := shiftDown s'.ActivePri seqNum s'.PriNum
      TaskNumPerPri := shiftDown s'.TaskNumPerPri seqNum s'.PriNum
      RdyTaskPri := shiftDown s'.RdyTaskPri seqNum s'.PriNum
      PriNum := s'.PriNum - 1 } seqNum)
  else some s'

end CoOS
