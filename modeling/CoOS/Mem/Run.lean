/-
  Runs of the memory partitions.

  A run creates partitions over buffers that do not overlap, deletes them, and gets and frees
  blocks; whoever holds a block may write into it. `held` are the blocks that were handed out and
  not freed, partition by partition. An invariant of partitions that only looks at one partition
  and its held blocks (`PartLaw`) is kept by creation and deletion.
-/
import CoOS.Mem.Code
import CoOS.Lib.DList

namespace CoOS

open Function (update)
open Word32 DList

/-! ## Blocks -/

/-- `n` blocks from the address `a` on. -/
def blocksFrom (size : Nat) : Nat → Nat → List Nat
  | _, 0 => []
  | a, n + 1 => a :: blocksFrom size (a + size) n

def MM.blocks (m : MM) : List Nat := blocksFrom m.blockSize m.memAddr m.blockNum

/-- The address behind the last block. -/
def MM.limit (m : MM) : Nat := m.memAddr + m.blockSize * m.blockNum

/-- The buffer is one that exists: it is not empty and does not reach the address 0. -/
structure MM.Ok (m : MM) : Prop where
  pos : 0 < m.memAddr
  size : 0 < m.blockSize
  grid : m.blockSize % 4 = 0
  num : 1 < m.blockNum
  fits : m.limit ≤ 2 ^ 32

/-- A pointer. -/
def ptr (a : Nat) : Option Nat := if a = 0 then none else some a

theorem ptr_pos {a : Nat} (h : 0 < a) : ptr a = some a := if_neg (Nat.ne_of_gt h)

theorem ptr_none {a : Nat} : ptr a = none ↔ a = 0 := by
  unfold ptr
  split
  · next h => exact ⟨fun _ => h, fun _ => rfl⟩
  · next h => exact ⟨(fun e => nomatch e), fun e => absurd e h⟩

theorem ptr_some {a b : Nat} : ptr a = some b ↔ a = b ∧ 0 < b := by
  unfold ptr
  split
  · next h => exact ⟨(fun e => nomatch e), fun e => by omega⟩
  · next h => exact ⟨fun e => by cases e; exact ⟨rfl, Nat.pos_of_ne_zero h⟩, fun e => by rw [e.1]⟩

section Blocks

variable {size a b n : Nat} {m : MM}

theorem mem_blocksFrom : b ∈ blocksFrom size a n ↔ ∃ k, k < n ∧ b = a + k * size := by
  induction n generalizing a with
  | zero => simp [blocksFrom]
  | succ n ih =>
    rw [blocksFrom, List.mem_cons, ih]
    constructor
    · rintro (rfl | ⟨k, hk, rfl⟩)
      · exact ⟨0, Nat.succ_pos n, by omega⟩
      · exact ⟨k + 1, Nat.succ_lt_succ hk, by rw [Nat.succ_mul]; omega⟩
    · rintro ⟨k, hk, rfl⟩
      cases k with
      | zero => exact Or.inl (by omega)
      | succ k => exact Or.inr ⟨k, Nat.lt_of_succ_lt_succ hk, by rw [Nat.succ_mul]; omega⟩

theorem blocksFrom_ge (h : b ∈ blocksFrom size a n) : a ≤ b := by
  obtain ⟨k, -, rfl⟩ := mem_blocksFrom.mp h
  exact Nat.le_add_right a _

theorem blocksFrom_lt (h : b ∈ blocksFrom size a n) : b + size ≤ a + size * n := by
  obtain ⟨k, hk, rfl⟩ := mem_blocksFrom.mp h
  have h1 : (k + 1) * size ≤ n * size := Nat.mul_le_mul_right size hk
  rw [Nat.succ_mul] at h1
  rw [Nat.mul_comm size n]
  omega

theorem blocksFrom_nodup (hs : 0 < size) : (blocksFrom size a n).Nodup := by
  induction n generalizing a with
  | zero => exact List.nodup_nil
  | succ n ih =>
    refine List.nodup_cons.mpr ⟨fun h => ?_, ih⟩
    have := blocksFrom_ge h
    omega

theorem blocksFrom_length : (blocksFrom size a n).length = n := by
  induction n generalizing a with
  | zero => rfl
  | succ n ih => rw [blocksFrom, List.length_cons, ih]

theorem MM.Ok.block_pos (h : m.Ok) (hb : b ∈ m.blocks) : 0 < b :=
  Nat.lt_of_lt_of_le h.pos (blocksFrom_ge hb)

theorem MM.block_inside (hb : b ∈ m.blocks) : m.memAddr ≤ b ∧ b + m.blockSize ≤ m.limit :=
  ⟨blocksFrom_ge hb, blocksFrom_lt hb⟩

/-- Two blocks that overlap are one. -/
theorem MM.Ok.block_eq (h : m.Ok) {c : Nat} (hb : b ∈ m.blocks) (hc : c ∈ m.blocks) (h1 : b ≤ c)
    (h2 : c < b + m.blockSize) : b = c := by
  obtain ⟨i, -, rfl⟩ := mem_blocksFrom.mp hb
  obtain ⟨j, -, rfl⟩ := mem_blocksFrom.mp hc
  have hij : i = j := by
    rcases Nat.lt_trichotomy i j with hlt | he | hgt
    · have h3 : (i + 1) * m.blockSize ≤ j * m.blockSize := Nat.mul_le_mul_right _ hlt
      rw [Nat.succ_mul] at h3
      omega
    · exact he
    · have h3 : (j + 1) * m.blockSize ≤ i * m.blockSize := Nat.mul_le_mul_right _ hgt
      rw [Nat.succ_mul] at h3
      have := h.size
      omega
  rw [hij]

end Blocks

/-! ## The chain that CoCreateMemPartition builds -/

theorem buildChain_spec {size num : Nat} (hs : 0 < size) (hnum : num ≤ 256) (n : Nat) :
    ∀ {fuel j a : Nat} {mem : Nat → Nat}, num = j + 1 + n → n < fuel → 0 < a →
      a + size * (n + 1) ≤ 2 ^ 32 →
      ∃ mem', buildChain size num fuel j a a mem = some mem' ∧
        IsSList (some a) (fun x => ptr (mem' x)) (blocksFrom size a (n + 1)) ∧
        ∀ x, x ∉ blocksFrom size a (n + 1) → mem' x = mem x := by
  induction n with
  | zero =>
    intro fuel j a mem hj hf ha hfit
    obtain ⟨f, rfl⟩ := Nat.exists_eq_succ_of_ne_zero (Nat.ne_of_gt hf)
    refine ⟨update mem a 0, ?_, ?_, fun x hx => ?_⟩
    · unfold buildChain
      rw [if_neg (by omega)]
    · refine ⟨rfl, List.nodup_singleton a, fun x hx => ?_⟩
      obtain rfl := List.mem_singleton.mp hx
      rw [Function.update_self]
      exact (nextIn_cons_self x []).symm
    · exact Function.update_of_ne (fun e => hx (by rw [e]; exact List.mem_singleton_self a)) ..
  | succ n ih =>
    intro fuel j a mem hj hf ha hfit
    obtain ⟨f, rfl⟩ := Nat.exists_eq_succ_of_ne_zero (Nat.ne_of_gt (Nat.zero_lt_of_lt hf))
    rw [Nat.mul_succ] at hfit
    have hpos : 0 < size * (n + 1) := Nat.mul_pos hs (Nat.succ_pos n)
    have hadd : add32 a size = a + size := add32_of_lt (by omega)
    have hmod : (j + 1) % 256 = j + 1 := Nat.mod_eq_of_lt (by omega)
    obtain ⟨mem', e1, e2, e3⟩ :=
      @ih f (j + 1) (a + size) (update mem a (a + size)) (by omega) (by omega)
      (by omega) (by omega)
    have hna : a ∉ blocksFrom size (a + size) (n + 1) := fun h => by
      have := blocksFrom_ge h
      omega
    refine ⟨mem', ?_, ?_, fun x hx => ?_⟩
    · unfold buildChain
      rw [if_pos (by omega)]
      simp only [hadd, hmod, Function.update_self]
      exact e1
    · refine e2.push hna ?_ fun _ _ => rfl
      rw [e3 a hna, Function.update_self]
      exact ptr_pos (by omega)
    · obtain ⟨h1, h2⟩ := not_or.mp fun h => hx (List.mem_cons.mpr h)
      rw [e3 x h2, Function.update_of_ne h1]

/-! ## Runs -/

inductive MmOp where
  | create (memBuf blockSize blockNum : Nat)
  | del (mmID : Nat)
  | get (mmID : Nat)
  | free (mmID buf : Nat)
  | write (a v : Nat)

/-- The partitions and the blocks that were handed out and not freed. -/
structure MmSt where
  s : Partitions
  held : Nat → List Nat

def mmStep (cfg : MmCfg) (st : MmSt) : MmOp → Option MmSt
  | .create memBuf blockSize blockNum =>
    (coCreateMemPartition cfg st.s memBuf blockSize blockNum).map fun (s, i) =>
      ⟨s, if i = INVALID_ID then st.held else update st.held i []⟩
  | .del mmID =>
    let (s, e) := coDelMemoryPartition cfg st.s mmID
    some ⟨s, if e = .E_OK then update st.held mmID [] else st.held⟩
  | .get mmID =>
    let (s, b) := coGetMemoryBuffer cfg st.s mmID
    some ⟨s, if b = 0 then st.held else update st.held mmID (b :: st.held mmID)⟩
  | .free mmID buf =>
    let (s, e) := coFreeMemoryBuffer cfg st.s mmID buf
    some ⟨s, if e = .E_OK then update st.held mmID ((st.held mmID).erase buf) else st.held⟩
  | .write a v => some ⟨{ st.s with mem := update st.s.mem a v }, st.held⟩

/-- Two buffers do not overlap. -/
def MM.Apart (m m' : MM) : Prop := m.limit ≤ m'.memAddr ∨ m'.limit ≤ m.memAddr

/-- A partition is created over a buffer of its own that does not reach the address 0. -/
def FreshBuffer (s : Partitions) (memBuf blockSize blockNum : Nat) : Prop :=
  memBuf + blockSize * blockNum ≤ 2 ^ 32 ∧
    ∀ i, s.MemoryIDVessel i = true → (s.MemoryTbl i).Apart ⟨memBuf, memBuf, blockSize, blockNum⟩

/-- The word at `a` belongs to no partition, or to a block that is held. -/
def Owned (st : MmSt) (a : Nat) : Prop :=
  ∀ i, st.s.MemoryIDVessel i = true → a + 4 ≤ (st.s.MemoryTbl i).memAddr ∨
    (st.s.MemoryTbl i).limit ≤ a ∨
    ∃ b ∈ st.held i, b ≤ a ∧ a < b + (st.s.MemoryTbl i).blockSize ∧ (a - b) % 4 = 0

/-- Partitions of up to 256 blocks; held blocks are freed; a holder writes into its block. -/
def MmOp.Valid (st : MmSt) : MmOp → Prop
  | .create memBuf blockSize blockNum => blockNum ≤ 256 ∧ FreshBuffer st.s memBuf blockSize blockNum
  | .del _ => True
  | .get _ => True
  | .free mmID buf => buf ∈ st.held mmID
  | .write a _ => Owned st a

/-- Before the first partition. -/
def MmSt.zero (mem : Nat → Nat) : MmSt :=
  ⟨⟨mem, fun _ => ⟨0, 0, 0, 0⟩, fun _ => false⟩, fun _ => []⟩

/-- The states of the runs over `mem` whose steps are all `ok`. -/
inductive MmReach (cfg : MmCfg) (ok : MmSt → MmOp → Prop) (mem : Nat → Nat) : MmSt → Prop
  | start : MmReach cfg ok mem (MmSt.zero mem)
  | step {st st' : MmSt} {op : MmOp} :
      MmReach cfg ok mem st → ok st op → mmStep cfg st op = some st' →
      MmReach cfg ok mem st'

/-! ## Invariants of partitions -/

/-- Buffers do not overlap, and every partition has the property `P`. -/
structure Parts (P : MmSt → Nat → Prop) (st : MmSt) : Prop where
  part : ∀ i, st.s.MemoryIDVessel i = true → P st i
  apart : ∀ i j, st.s.MemoryIDVessel i = true → st.s.MemoryIDVessel j = true → i ≠ j →
    (st.s.MemoryTbl i).Apart (st.s.MemoryTbl j)

/-- `P` holds of a new partition, and reads its control block, its held blocks and the words of its
    blocks. -/
structure PartLaw (P : MmSt → Nat → Prop) : Prop where
  ok : ∀ {st i}, P st i → (st.s.MemoryTbl i).Ok
  congr : ∀ {st st' i}, P st i → st'.s.MemoryTbl i = st.s.MemoryTbl i → st'.held i = st.held i →
    (∀ b ∈ (st.s.MemoryTbl i).blocks, st'.s.mem b = st.s.mem b) → P st' i
  new : ∀ {st : MmSt} {i}, (st.s.MemoryTbl i).Ok → st.held i = [] →
    IsSList (ptr (st.s.MemoryTbl i).freeBlock) (fun a => ptr (st.s.mem a))
      (st.s.MemoryTbl i).blocks → P st i

/-- The state with another chain in the partition `i`. -/
def MmSt.rechain (st : MmSt) (i fb : Nat) (mem : Nat → Nat) (hl : List Nat) : MmSt :=
  ⟨{ st.s with
    mem := mem
    MemoryTbl := update st.s.MemoryTbl i { st.s.MemoryTbl i with freeBlock := fb } },
    update st.held i hl⟩

section Part

variable {cfg : MmCfg} {P : MmSt → Nat → Prop} {st st' : MmSt} {i j : Nat} {l : List Nat}

/-- Blocks of partitions over different buffers are different. -/
theorem MM.Apart.ne {m m' : MM} (h : m.Apart m') (hm : m.Ok) (hm' : m'.Ok) {a b : Nat}
    (ha : a ∈ m.blocks)
    (hb : b ∈ m'.blocks) : a ≠ b := by
  have h1 := MM.block_inside ha
  have h2 := MM.block_inside hb
  have h3 := hm.size
  have h4 := hm'.size
  rintro rfl
  rcases h with h | h <;> omega

theorem MM.Apart.symm {m m' : MM} (h : m.Apart m') : m'.Apart m := Or.symm h

theorem Parts.zero (mem : Nat → Nat) : Parts P (MmSt.zero mem) :=
  ⟨(fun _ h => nomatch h), (fun _ _ h => nomatch h)⟩

section Rechain

variable {fb : Nat} {mem : Nat → Nat} {hl : List Nat}

theorem rechain_self :
    (st.rechain i fb mem hl).s.MemoryTbl i = { st.s.MemoryTbl i with freeBlock := fb } :=
  Function.update_self ..

theorem rechain_of_ne (h : j ≠ i) : (st.rechain i fb mem hl).s.MemoryTbl j = st.s.MemoryTbl j :=
  Function.update_of_ne h ..

theorem rechain_held : (st.rechain i fb mem hl).held i = hl := Function.update_self ..

/-- No chain moves a buffer. -/
theorem rechain_buffer (j : Nat) :
    ((st.rechain i fb mem hl).s.MemoryTbl j).memAddr = (st.s.MemoryTbl j).memAddr ∧
      ((st.rechain i fb mem hl).s.MemoryTbl j).limit = (st.s.MemoryTbl j).limit := by
  by_cases h : j = i
  · subst h
    rw [rechain_self]
    exact ⟨rfl, rfl⟩
  · rw [rechain_of_ne h]
    exact ⟨rfl, rfl⟩

theorem MM.Ok.rechain
    (h : (st.s.MemoryTbl i).Ok) : ((st.rechain i fb mem hl).s.MemoryTbl i).Ok := by
  rw [rechain_self]
  exact ⟨h.pos, h.size, h.grid, h.num, h.fits⟩

theorem Parts.rechain (h : Parts P st)
    (hp : ∀ j, st.s.MemoryIDVessel j = true → P (st.rechain i fb mem hl) j) :
    Parts P (st.rechain i fb mem hl) := by
  refine ⟨hp, fun j k hj hk hjk => ?_⟩
  unfold MM.Apart
  rw [(rechain_buffer j).1, (rechain_buffer j).2, (rechain_buffer k).1, (rechain_buffer k).2]
  exact h.apart j k hj hk hjk

/-- `CoGetMemoryBuffer` and `CoFreeMemoryBuffer` write into one partition. -/
theorem PartLaw.rechain (law : PartLaw P) (h : Parts P st) (hi : st.s.MemoryIDVessel i = true)
    (hw : ∀ a, a ∉ (st.s.MemoryTbl i).blocks → mem a = st.s.mem a)
    (hp : P (st.rechain i fb mem hl) i) :
    Parts P (st.rechain i fb mem hl) := by
  refine h.rechain fun j hj => ?_
  by_cases e : j = i
  · exact e ▸ hp
  · refine law.congr (h.part j hj) (rechain_of_ne e) (Function.update_of_ne e ..) fun b hb =>
      hw b ?_
    exact fun hbi =>
      (h.apart j i hj hi e).ne (law.ok (h.part j hj)) (law.ok (h.part i hi)) hb hbi rfl

end Rechain

/-! ### What each call does -/

theorem freeMmId_free {s : Partitions} {n k : Nat} (h : freeMmId s n k = some i) :
    s.MemoryIDVessel i = false ∧ i < k + n := by
  induction n generalizing k with
  | zero => cases h
  | succ n ih =>
    rw [freeMmId] at h
    split at h
    · have := ih h
      exact ⟨this.1, by omega⟩
    · next hv =>
      cases h
      exact ⟨Bool.eq_false_iff.mpr hv, by omega⟩

theorem not_badPartition {memBuf blockSize blockNum : Nat}
    (h : ¬ badPartition memBuf blockSize blockNum)
    (hf : memBuf + blockSize * blockNum ≤ 2 ^ 32) :
    MM.Ok ⟨memBuf, memBuf, blockSize, blockNum⟩ := by
  obtain ⟨h1, h2, h3, h4⟩ : memBuf ≠ 0 ∧ blockSize ≠ 0 ∧ blockSize &&& 3 = 0 ∧ ¬ blockNum ≤ 1 := by
    simpa only [badPartition, not_or, ne_eq, not_not] using h
  refine ⟨Nat.pos_of_ne_zero h1, Nat.pos_of_ne_zero h2, ?_, Nat.lt_of_not_le h4, hf⟩
  rwa [show (3 : Nat) = 2 ^ 2 - 1 from rfl, Nat.and_two_pow_sub_one_eq_mod] at h3

theorem badMm_not {s : Partitions} (h : ¬ badMm cfg s i) : s.MemoryIDVessel i = true :=
  Bool.eq_true_of_not_eq_false fun e => h (Or.inr e)

/-- The `U8` counter never reaches the end of more than 256 blocks. -/
theorem buildChain_none {blockSize blockNum : Nat} (h : 256 < blockNum) {fuel j memory memBlk : Nat}
    {mem : Nat → Nat} (hj : j < 256) :
    buildChain blockSize blockNum fuel j memory memBlk mem = none := by
  induction fuel generalizing j memory memBlk mem with
  | zero => rfl
  | succ fuel ih =>
    unfold buildChain
    rw [if_pos (by omega)]
    exact ih (Nat.mod_lt _ (by decide))

/-- A creation does not end with more than 256 blocks; otherwise it leaves everything as it was or
    takes a free ID and a chain of all blocks. -/
theorem create_cases {s : Partitions} {memBuf blockSize blockNum : Nat}
    (hf : memBuf + blockSize * blockNum ≤ 2 ^ 32) :
    256 < blockNum ∧ coCreateMemPartition cfg s memBuf blockSize blockNum = none ∨
    coCreateMemPartition cfg s memBuf blockSize blockNum = some (s, INVALID_ID) ∨
    ∃ i mem, MM.Ok ⟨memBuf, memBuf, blockSize, blockNum⟩ ∧ s.MemoryIDVessel i = false ∧
      i ≠ INVALID_ID ∧
      IsSList (ptr memBuf) (fun a => ptr (mem a)) (blocksFrom blockSize memBuf blockNum) ∧
      (∀ a, a ∉ blocksFrom blockSize memBuf blockNum → mem a = s.mem a) ∧
      coCreateMemPartition cfg s memBuf blockSize blockNum = some
        ({ mem := mem
           MemoryTbl := update s.MemoryTbl i ⟨memBuf, memBuf, blockSize, blockNum⟩
           MemoryIDVessel := update s.MemoryIDVessel i true }, i) := by
  unfold coCreateMemPartition
  split
  · exact Or.inr (Or.inl rfl)
  · next hb =>
    split
    · exact Or.inr (Or.inl rfl)
    · next i hi =>
      by_cases hn : 256 < blockNum
      · exact Or.inl ⟨hn, by rw [buildChain_none hn (by decide)]; rfl⟩
      have ok := not_badPartition hb hf
      have h1 : 1 < blockNum := ok.num
      obtain ⟨n, rfl⟩ : ∃ n, blockNum = n + 1 := ⟨blockNum - 1, by omega⟩
      obtain ⟨mem, e1, e2, e3⟩ :=
        @buildChain_spec blockSize (n + 1) ok.size (Nat.le_of_not_lt hn) n 256 0 memBuf s.mem
        (by omega) (by omega) ok.pos hf
      have hlt := freeMmId_free hi
      have hmax := cfg.max_le
      refine Or.inr (Or.inr ⟨i, mem, ok, hlt.1, fun e => ?_, ?_, e3, by rw [e1]; rfl⟩)
      · rw [e] at hlt
        have : INVALID_ID = 255 := rfl
        omega
      · rw [ptr_pos (show 0 < memBuf from ok.pos)]
        exact e2

/-! ### Creation and deletion keep an invariant of partitions -/

theorem Parts.create (law : PartLaw P) (h : Parts P st) {memBuf blockSize blockNum : Nat}
    (hv : FreshBuffer st.s memBuf blockSize blockNum)
    (e : mmStep cfg st (.create memBuf blockSize blockNum) = some st') : Parts P st' := by
  simp only [mmStep] at e
  rcases @create_cases cfg st.s memBuf blockSize blockNum hv.1
    with ⟨-, e'⟩ | e' | ⟨i, mem, ok, hi, hid, hl, hm, e'⟩
  · rw [e'] at e
    cases e
  · rw [e'] at e
    cases e
    exact h
  · rw [e'] at e
    cases e
    dsimp only
    rw [if_neg hid]
    have hother : ∀ {j}, j ≠ i → update st.s.MemoryIDVessel i true j = true →
      st.s.MemoryIDVessel j = true :=
      fun hj e => by rwa [Function.update_of_ne hj] at e
    constructor
    · intro j hj
      by_cases hji : j = i
      · subst hji
        refine law.new ?_ (Function.update_self ..) ?_
        · simpa only [Function.update_self] using ok
        · simp only [Function.update_self]
          exact hl
      · have hj := hother hji hj
        refine law.congr (h.part j hj) (Function.update_of_ne hji ..) (Function.update_of_ne hji ..)
          fun b hb => hm b fun hbi => ?_
        exact (hv.2 j hj).ne (law.ok (h.part j hj)) ok hb hbi rfl
    · intro j k hj hk hjk
      show (update st.s.MemoryTbl i _ j).Apart (update st.s.MemoryTbl i _ k)
      by_cases hji : j = i
      · subst hji
        have hkj : k ≠ j := fun e => hjk e.symm
        rw [Function.update_self, Function.update_of_ne hkj]
        exact (hv.2 k (hother hkj hk)).symm
      · rw [Function.update_of_ne hji]
        by_cases hki : k = i
        · subst hki
          rw [Function.update_self]
          exact hv.2 j (hother hji hj)
        · rw [Function.update_of_ne hki]
          exact h.apart j k (hother hji hj) (hother hki hk) hjk

theorem del_cases {s : Partitions} (i : Nat) :
    coDelMemoryPartition cfg s i = (s, .E_INVALID_ID) ∨
    coDelMemoryPartition cfg s i = ({ s with
      MemoryTbl := update s.MemoryTbl i ⟨0, 0, 0, 0⟩
      MemoryIDVessel := update s.MemoryIDVessel i false }, .E_OK) := by
  unfold coDelMemoryPartition
  split
  · exact Or.inl rfl
  · exact Or.inr rfl

theorem get_cases {s : Partitions} (i : Nat) :
    ((badMm cfg s i ∨ (s.MemoryTbl i).freeBlock = 0) ∧ coGetMemoryBuffer cfg s i = (s, 0)) ∨
    (s.MemoryIDVessel i = true ∧ 0 < (s.MemoryTbl i).freeBlock ∧
      coGetMemoryBuffer cfg s i = ({ s with
        MemoryTbl := update s.MemoryTbl i
          { s.MemoryTbl i with freeBlock := s.mem (s.MemoryTbl i).freeBlock } },
            (s.MemoryTbl i).freeBlock)) := by
  unfold coGetMemoryBuffer
  split
  · next hb => exact Or.inl ⟨Or.inl hb, rfl⟩
  · next hb =>
    dsimp only
    split
    · next hf => exact Or.inl ⟨Or.inr hf, rfl⟩
    · next hf => exact Or.inr ⟨badMm_not hb, Nat.pos_of_ne_zero hf, rfl⟩

theorem free_cases {s : Partitions} (i buf : Nat) :
    (∃ e, e ≠ .E_OK ∧ coFreeMemoryBuffer cfg s i buf = (s, e)) ∨
    (s.MemoryIDVessel i = true ∧ ¬ badBuffer (s.MemoryTbl i) buf ∧
      coFreeMemoryBuffer cfg s i buf = ({ s with
        mem := update s.mem buf (s.MemoryTbl i).freeBlock
        MemoryTbl := update s.MemoryTbl i { s.MemoryTbl i with freeBlock := buf } }, .E_OK)) := by
  unfold coFreeMemoryBuffer
  split
  · exact Or.inl ⟨.E_INVALID_ID, by decide, rfl⟩
  · next hb =>
    split
    · exact Or.inl ⟨.E_INVALID_PARAMETER, by decide, rfl⟩
    · next hbuf => exact Or.inr ⟨badMm_not hb, hbuf, rfl⟩

theorem Parts.del (law : PartLaw P) (h : Parts P st) (e : mmStep cfg st (.del i) = some st') :
    Parts P st' := by
  simp only [mmStep] at e
  rcases @del_cases cfg st.s i with e' | e'
  · rw [e'] at e
    cases e
    exact h
  · rw [e'] at e
    cases e
    have hold : ∀ {j}, update st.s.MemoryIDVessel i false j = true →
        j ≠ i ∧ st.s.MemoryIDVessel j = true := fun {j} hj => by
      by_cases hji : j = i
      · rw [hji, Function.update_self] at hj
        cases hj
      · exact ⟨hji, by rwa [Function.update_of_ne hji] at hj⟩
    constructor
    · intro j hj
      obtain ⟨hji, hj⟩ := hold hj
      exact law.congr (h.part j hj) (Function.update_of_ne hji ..) (Function.update_of_ne hji ..)
        fun _ _ => rfl
    · intro j k hj hk hjk
      obtain ⟨hji, hj⟩ := hold hj
      obtain ⟨hki, hk⟩ := hold hk
      show (update st.s.MemoryTbl i _ j).Apart (update st.s.MemoryTbl i _ k)
      rw [Function.update_of_ne hji, Function.update_of_ne hki]
      exact h.apart j k hj hk hjk

/-- `CoGetMemoryBuffer` in a run: nothing is handed out, or the first block of the chain. -/
theorem get_step (e : mmStep cfg st (.get i) = some st') : st' = st ∨
    (st.s.MemoryIDVessel i = true ∧ 0 < (st.s.MemoryTbl i).freeBlock ∧
      st' = st.rechain i (st.s.mem (st.s.MemoryTbl i).freeBlock) st.s.mem
        ((st.s.MemoryTbl i).freeBlock :: st.held i)) := by
  simp only [mmStep] at e
  rcases @get_cases cfg st.s i with ⟨-, e'⟩ | ⟨hi, hf, e'⟩
  · rw [e'] at e
    exact Or.inl (Option.some.inj e).symm
  · rw [e'] at e
    dsimp only at e
    rw [if_neg (Nat.ne_of_gt hf)] at e
    exact Or.inr ⟨hi, hf, (Option.some.inj e).symm⟩

/-- `CoFreeMemoryBuffer` in a run: nothing changes, or the address becomes the first of the
    chain. -/
theorem free_step {buf : Nat} (e : mmStep cfg st (.free i buf) = some st') : st' = st ∨
    (st.s.MemoryIDVessel i = true ∧ ¬ badBuffer (st.s.MemoryTbl i) buf ∧
      st' = st.rechain i buf (update st.s.mem buf (st.s.MemoryTbl i).freeBlock)
      ((st.held i).erase buf)) := by
  simp only [mmStep] at e
  rcases @free_cases cfg st.s i buf with ⟨c, hc, e'⟩ | ⟨hi, hb, e'⟩
  · rw [e'] at e
    dsimp only at e
    rw [if_neg hc] at e
    exact Or.inl (Option.some.inj e).symm
  · rw [e'] at e
    dsimp only at e
    rw [if_pos rfl] at e
    exact Or.inr ⟨hi, hb, (Option.some.inj e).symm⟩

end Part

end CoOS
