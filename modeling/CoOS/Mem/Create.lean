/-
  The partition that `CoCreateMemPartition` leaves has every block free and takes nothing else, and
  it is built if and only if there are at most 256 blocks (`partition_created`).
-/
import CoOS.Mem.Run

namespace CoOS

open Function (update)
open Word32 DList

/-! ## The partition that is created -/

section Create

variable {cfg : MmCfg} {s : Partitions} {memBuf blockSize blockNum : Nat}

theorem freeMmId_found {n k i : Nat} (hk : k ≤ i) (hi : i < k + n)
    (hv : s.MemoryIDVessel i = false) :
    ∃ j, freeMmId s n k = some j := by
  induction n generalizing k with
  | zero => omega
  | succ n ih =>
    rw [freeMmId]
    split
    · next hu =>
      have hne : k ≠ i := fun e => by rw [e, hv] at hu; cases hu
      exact ih (by omega) (by omega)
    · exact ⟨k, rfl⟩

theorem blocksFrom_eq_map (size a n : Nat) :
    blocksFrom size a n = (List.range n).map fun k => a + k * size := by
  induction n generalizing a with
  | zero => rfl
  | succ n ih =>
    rw [blocksFrom, ih, List.range_succ_eq_map, List.map_cons, List.map_map, Nat.zero_mul,
      Nat.add_zero]
    congr 1
    apply List.map_congr_left
    intro k _
    show a + size + k * size = a + (k + 1) * size
    rw [Nat.succ_mul]
    omega

/-- With a free ID and valid parameters, a creation builds the chain of all blocks and writes only
    their first words, exactly when there are at most 256 of them. -/
theorem partition_created (hbuf : memBuf ≠ 0) (hsize : blockSize ≠ 0) (hgrid : blockSize % 4 = 0)
    (hnum : 2 ≤ blockNum) (hf : memBuf + blockSize * blockNum ≤ 2 ^ 32)
    (hfree : ∃ i, i < cfg.CFG_MAX_MM ∧ s.MemoryIDVessel i = false) :
    (∃ s' i, coCreateMemPartition cfg s memBuf blockSize blockNum = some (s', i) ∧
      s.MemoryIDVessel i = false ∧ i ≠ INVALID_ID ∧
      s'.MemoryTbl i = ⟨memBuf, memBuf, blockSize, blockNum⟩ ∧
      IsSList (ptr (s'.MemoryTbl i).freeBlock) (fun a => ptr (s'.mem a))
        ((List.range blockNum).map fun k => memBuf + k * blockSize) ∧
      ∀ a, s'.mem a ≠ s.mem a → ∃ k, k < blockNum ∧ a = memBuf + k * blockSize) ↔
    blockNum ≤ 256 := by
  have hand : blockSize &&& 3 = 0 := by
    rw [show (3 : Nat) = 2 ^ 2 - 1 from rfl, Nat.and_two_pow_sub_one_eq_mod]
    exact hgrid
  have hb : ¬ badPartition memBuf blockSize blockNum := by
    rintro (h | h | h | h)
    · exact hbuf h
    · exact hsize h
    · exact h hand
    · omega
  obtain ⟨i, hi, hv⟩ := hfree
  obtain ⟨j, hj⟩ := @freeMmId_found s cfg.CFG_MAX_MM 0 i (Nat.zero_le i) (by omega) hv
  have hret : ∀ n, j ≠ INVALID_ID →
      coCreateMemPartition cfg s memBuf blockSize blockNum ≠ some (n, INVALID_ID) := by
    intro n hne e
    rw [coCreateMemPartition, if_neg hb, hj] at e
    obtain ⟨_, -, e2⟩ := Option.map_eq_some_iff.mp e
    exact hne (Prod.mk.inj e2).2
  have hjne : j ≠ INVALID_ID := by
    have h1 := (freeMmId_free hj).2
    have h2 := cfg.max_le
    have h3 : INVALID_ID = 255 := rfl
    omega
  rcases @create_cases cfg s memBuf blockSize blockNum hf
    with ⟨hlt, e⟩ | e | ⟨i, mem, -, hv, hne, hl, hm, e⟩
  · constructor
    · rintro ⟨s', i, e', -⟩
      rw [e] at e'
      cases e'
    · intro hle
      omega
  · exact absurd e (hret s hjne)
  · constructor
    · intro _
      by_contra hlt
      rw [coCreateMemPartition, if_neg hb, hj,
        buildChain_none (Nat.lt_of_not_le hlt) (by decide)] at e
      cases e
    · intro _
      refine ⟨_, i, e, hv, hne, Function.update_self .., ?_, fun a ha => ?_⟩
      · simp only [Function.update_self]
        rw [← blocksFrom_eq_map]
        exact hl
      · by_contra hno
        exact ha (hm a fun hin => hno (mem_blocksFrom.mp hin))

theorem partition_created_two :
    (∃ s' i, coCreateMemPartition ⟨2, by decide⟩ (MmSt.zero fun _ => 0).s 4096 8 2 = some (s', i) ∧
      (MmSt.zero fun _ => 0).s.MemoryIDVessel i = false ∧ i ≠ INVALID_ID ∧
      s'.MemoryTbl i = ⟨4096, 4096, 8, 2⟩ ∧
      IsSList (ptr (s'.MemoryTbl i).freeBlock) (fun a => ptr (s'.mem a))
        ((List.range 2).map fun k => 4096 + k * 8) ∧
      ∀ a, s'.mem a ≠ (MmSt.zero fun _ => 0).s.mem a → ∃ k, k < 2 ∧ a = 4096 + k * 8) ↔ 2 ≤ 256 :=
  partition_created (by decide) (by decide) (by decide) (by decide) (by decide) ⟨0, by decide, rfl⟩

/-- The counter of 257 blocks wraps before it reaches the last of them, and the loop goes on
    forever. -/
theorem partition_unfinished :
    (∀ fuel, buildChain 4 257 fuel 0 4096 4096 (fun _ => 0) = none) ∧
    coCreateMemPartition ⟨2, by decide⟩ (MmSt.zero fun _ => 0).s 4096 4 257 = none := by
  have h : ∀ fuel, buildChain 4 257 fuel 0 4096 4096 (fun _ => 0) = none :=
    fun _ => buildChain_none (by decide) (by decide)
  refine ⟨h, ?_⟩
  have hid : freeMmId (MmSt.zero fun _ => 0).s 2 0 = some 0 := rfl
  simp only [coCreateMemPartition, hid, if_neg (show ¬ badPartition 4096 4 257 by decide)]
  exact congrArg (Option.map _) (h 256)

end Create

end CoOS
