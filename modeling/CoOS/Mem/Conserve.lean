/-
  In every run the free chain and the held blocks together are the blocks of the partition, each
  once; a block is handed out exactly when one is free, and the count of `CoGetFreeBlockNum` is
  right (`partition_conserved`).
-/
import CoOS.Mem.Run

namespace CoOS

open Function (update)
open Word32 DList

/-! ## Conservation -/

section Part

variable {cfg : MmCfg} {P : MmSt → Nat → Prop} {st st' : MmSt} {i j : Nat} {l : List Nat}

/-- The free chain and the held blocks of the partition `i` are its blocks. -/
structure PartOk (st : MmSt) (i : Nat) : Prop where
  ok : (st.s.MemoryTbl i).Ok
  chain : ∃ l, IsSList (ptr (st.s.MemoryTbl i).freeBlock) (fun a => ptr (st.s.mem a)) l ∧
    (l ++ st.held i).Perm (st.s.MemoryTbl i).blocks

theorem perm_nodup (hm : (st.s.MemoryTbl i).Ok)
    (hp : (l ++ st.held i).Perm (st.s.MemoryTbl i).blocks) : (l ++ st.held i).Nodup :=
  hp.nodup_iff.mpr (blocksFrom_nodup hm.size)

/-- Words of held blocks are no part of the chain. -/
theorem PartOk.congr (h : PartOk st i) (ht : st'.s.MemoryTbl i = st.s.MemoryTbl i)
    (hh : st'.held i = st.held i)
    (hm : ∀ b ∈ (st.s.MemoryTbl i).blocks, b ∉ st.held i → st'.s.mem b = st.s.mem b) :
    PartOk st' i := by
  obtain ⟨l, hl, hp⟩ := h.chain
  refine ⟨by rw [ht]; exact h.ok, l, hl.congr (by rw [ht]) fun a ha => ?_, by rw [ht, hh]; exact hp⟩
  have hn : a ∉ st.held i := fun hx =>
    (List.nodup_append.mp (perm_nodup h.ok hp)).2.2 a ha a hx rfl
  rw [hm a (hp.subset (List.mem_append_left _ ha)) hn]

theorem partOk_law : PartLaw PartOk where
  ok h := h.ok
  congr h ht hh hm := h.congr ht hh fun b hb _ => hm b hb
  new ok hh hl := ⟨ok, _, hl, by rw [hh, List.append_nil]⟩

theorem PartOk.get (h : PartOk st i) (hf : 0 < (st.s.MemoryTbl i).freeBlock) :
    PartOk (st.rechain i (st.s.mem (st.s.MemoryTbl i).freeBlock) st.s.mem
      ((st.s.MemoryTbl i).freeBlock :: st.held i)) i := by
  obtain ⟨l, hl, hp⟩ := h.chain
  rw [ptr_pos hf] at hl
  obtain ⟨l, rfl⟩ : ∃ l', l = (st.s.MemoryTbl i).freeBlock :: l' := by
    cases l with
    | nil => exact nomatch hl.head
    | cons b l => exact ⟨l, by rw [Option.some.inj hl.head]⟩
  refine ⟨h.ok.rechain, l, ?_, ?_⟩
  · rw [rechain_self]
    exact hl.pop
  · rw [rechain_self, rechain_held]
    exact List.perm_middle.trans hp

theorem PartOk.free (h : PartOk st i) {buf : Nat} (hv : buf ∈ st.held i) :
    buf ∈ (st.s.MemoryTbl i).blocks ∧
    PartOk (st.rechain i buf (update st.s.mem buf (st.s.MemoryTbl i).freeBlock)
      ((st.held i).erase buf)) i := by
  obtain ⟨l, hl, hp⟩ := h.chain
  have hbuf : buf ∈ (st.s.MemoryTbl i).blocks := hp.subset (List.mem_append_right l hv)
  have hnl : buf ∉ l := fun hx => (List.nodup_append.mp (perm_nodup h.ok hp)).2.2 buf hx buf hv rfl
  refine ⟨hbuf, h.ok.rechain, buf :: l, ?_, ?_⟩
  · rw [rechain_self, ptr_pos (h.ok.block_pos hbuf)]
    refine hl.push hnl ?_ fun a ha => ?_
    · show ptr (update st.s.mem buf _ buf) = _
      rw [Function.update_self]
    · have hne : a ≠ buf := fun e => hnl (e ▸ ha)
      show ptr (update st.s.mem buf _ a) = _
      rw [Function.update_of_ne hne]
  · rw [rechain_self, rechain_held]
    refine List.Perm.trans ?_ hp
    exact List.perm_middle.symm.trans (List.Perm.append_left l (List.perm_cons_erase hv).symm)

/-- A holder writes between the words of the chain. -/
theorem Parts.write (h : Parts PartOk st) {a : Nat} (v : Nat) (hv : Owned st a) :
    Parts PartOk ⟨{ st.s with mem := update st.s.mem a v }, st.held⟩ := by
  refine ⟨fun j hj => ?_, h.apart⟩
  refine (h.part j hj).congr rfl rfl fun b hb hn => Function.update_of_ne ?_ ..
  rintro rfl
  have h1 := MM.block_inside hb
  have h2 := (h.part j hj).ok.size
  rcases hv j hj with hlo | hhi | ⟨c, hc, h3, h4, -⟩
  · omega
  · omega
  · obtain ⟨l, -, hp⟩ := (h.part j hj).chain
    have hcb : c ∈ (st.s.MemoryTbl j).blocks := hp.subset (List.mem_append_right l hc)
    exact hn ((h.part j hj).ok.block_eq hcb hb h3 h4 ▸ hc)

theorem Parts.step (h : Parts PartOk st) {op : MmOp} (hv : op.Valid st)
    (e : mmStep cfg st op = some st') :
    Parts PartOk st' := by
  cases op with
  | create memBuf blockSize blockNum => exact h.create partOk_law hv.2 e
  | del i => exact h.del partOk_law e
  | get i =>
    rcases get_step e with rfl | ⟨hi, hf, rfl⟩
    · exact h
    · exact partOk_law.rechain h hi (fun _ _ => rfl) ((h.part i hi).get hf)
  | free i buf =>
    rcases free_step e with rfl | ⟨hi, -, rfl⟩
    · exact h
    · obtain ⟨hb, hp⟩ := (h.part i hi).free hv
      have hw : ∀ a, a ∉ (st.s.MemoryTbl i).blocks → a ≠ buf := fun a ha e => ha (e ▸ hb)
      exact partOk_law.rechain h hi (fun a ha => Function.update_of_ne (hw a ha) ..) hp
  | write a v => exact Option.some.inj e ▸ h.write v hv

/-- Every call ends. -/
theorem MmOp.Valid.ends {op : MmOp} (hv : op.Valid st) : ∃ st', mmStep cfg st op = some st' := by
  cases op with
  | create memBuf blockSize blockNum =>
    simp only [mmStep]
    rcases @create_cases cfg st.s memBuf blockSize blockNum hv.2.1
      with ⟨hn, -⟩ | e | ⟨_, _, _, _, _, _, _, e⟩
    · exact absurd hv.1 (Nat.not_le_of_lt hn)
    · rw [e]
      exact ⟨_, rfl⟩
    · rw [e]
      exact ⟨_, rfl⟩
  | del i => exact ⟨_, rfl⟩
  | get i => exact ⟨_, rfl⟩
  | free i buf => exact ⟨_, rfl⟩
  | write a v => exact ⟨_, rfl⟩

/-- What holds at the start and is kept by every step holds in every state of a run. -/
theorem MmReach.induct {ok : MmSt → MmOp → Prop} {mem : Nat → Nat}
    (hs : ∀ st st' op, Parts P st → ok st op → mmStep cfg st op = some st' → Parts P st')
    (h : MmReach cfg ok mem st) : Parts P st := by
  induction h with
  | start => exact Parts.zero mem
  | step _ hv e ih => exact hs _ _ _ ih hv e

/-! ### What the calls return -/

theorem countBlocks_chain {mem : Nat → Nat} {fuel a n : Nat}
    (h : IsSList (ptr a) (fun x => ptr (mem x)) l)
    (hf : l.length < fuel) : countBlocks mem fuel a n = some (n + l.length) := by
  induction l generalizing fuel a n with
  | nil =>
    obtain ⟨f, rfl⟩ := Nat.exists_eq_succ_of_ne_zero (Nat.ne_of_gt hf)
    unfold countBlocks
    rw [if_pos (ptr_none.mp h.head)]
    rfl
  | cons b l ih =>
    obtain ⟨f, rfl⟩ := Nat.exists_eq_succ_of_ne_zero (Nat.ne_of_gt (Nat.zero_lt_of_lt hf))
    obtain ⟨rfl, hb⟩ := ptr_some.mp h.head
    rw [ptr_pos hb] at h
    unfold countBlocks
    rw [if_neg (Nat.ne_of_gt hb), ih h.pop (Nat.lt_of_succ_lt_succ hf), List.length_cons]
    congr 1
    omega

theorem MM.Ok.num_le {m : MM} (h : m.Ok) : m.blockNum ≤ 2 ^ 32 := by
  have h1 := h.fits
  have h2 : 1 * m.blockNum ≤ m.blockSize * m.blockNum := Nat.mul_le_mul_right _ h.size
  unfold MM.limit at h1
  omega

/-- With an empty chain all blocks are held. -/
theorem PartOk.all_held (h : PartOk st i) (hz : (st.s.MemoryTbl i).freeBlock = 0) :
    ∀ b ∈ (st.s.MemoryTbl i).blocks, b ∈ st.held i := by
  obtain ⟨l, hl, hp⟩ := h.chain
  have h0 : l = [] := by
    cases l with
    | nil => rfl
    | cons a l =>
      have := hl.head
      rw [ptr_none.mpr hz] at this
      cases this
  intro b hb
  have := hp.symm.subset hb
  rwa [h0, List.nil_append] at this

/-- The first free block is a block that nobody holds. -/
theorem PartOk.first (h : PartOk st i) (hf : 0 < (st.s.MemoryTbl i).freeBlock) :
    (st.s.MemoryTbl i).freeBlock ∈ (st.s.MemoryTbl i).blocks ∧
    (st.s.MemoryTbl i).freeBlock ∉ st.held i := by
  obtain ⟨l, hl, hp⟩ := h.chain
  have hmem : (st.s.MemoryTbl i).freeBlock ∈ l :=
    List.mem_of_mem_head? (by rw [← hl.head, ptr_pos hf]; rfl)
  exact ⟨hp.subset (List.mem_append_left _ hmem),
    fun hh => (List.nodup_append.mp (perm_nodup h.ok hp)).2.2 _ hmem _ hh rfl⟩

theorem PartOk.held_mem (h : PartOk st i) {b : Nat} (hb : b ∈ st.held i) :
    b ∈ (st.s.MemoryTbl i).blocks := by
  obtain ⟨l, -, hp⟩ := h.chain
  exact hp.subset (List.mem_append_right l hb)

theorem PartOk.count (h : PartOk st i) (hb : ¬ badMm cfg st.s i) : coGetFreeBlockNum cfg st.s i =
    some ((st.s.MemoryTbl i).blockNum - (st.held i).length, .E_OK) := by
  obtain ⟨l, hl, hp⟩ := h.chain
  have hlen : l.length + (st.held i).length = (st.s.MemoryTbl i).blockNum := by
    rw [← List.length_append, hp.length_eq]
    exact blocksFrom_length
  have := h.ok.num_le
  unfold coGetFreeBlockNum
  rw [if_neg hb, countBlocks_chain hl (by omega), ← hlen, Nat.zero_add, Nat.add_sub_cancel]
  rfl

/-- **Conservation of memory partitions.** In every run the free chain and the held blocks of a
    partition are its blocks, each once; a block is handed out exactly when not all are held, and it
    is held by nobody; `CoGetFreeBlockNum` counts the blocks that are not held. Every call ends. -/
theorem partition_conserved {mem : Nat → Nat} (h : MmReach cfg (fun st op => op.Valid st) mem st) :
    (∀ op : MmOp, op.Valid st → ∃ st', mmStep cfg st op = some st') ∧
    ∀ i, ¬ badMm cfg st.s i →
      (∃ l, IsSList (ptr (st.s.MemoryTbl i).freeBlock) (fun a => ptr (st.s.mem a)) l ∧
        (l ++ st.held i).Nodup ∧ (l ++ st.held i).Perm (st.s.MemoryTbl i).blocks) ∧
      ((coGetMemoryBuffer cfg st.s i).2 = 0 ↔ ∀ b ∈ (st.s.MemoryTbl i).blocks, b ∈ st.held i) ∧
      ((coGetMemoryBuffer cfg st.s i).2 ≠ 0 →
        (coGetMemoryBuffer cfg st.s i).2 ∈ (st.s.MemoryTbl i).blocks ∧
        ∀ j, ¬ badMm cfg st.s j → (coGetMemoryBuffer cfg st.s i).2 ∉ st.held j) ∧
      coGetFreeBlockNum cfg st.s i = some ((st.s.MemoryTbl i).blockNum - (st.held i).length,
        .E_OK) := by
  have inv : Parts PartOk st := h.induct fun _ _ _ hp hv e => hp.step hv e
  refine ⟨fun op hv => hv.ends, fun i hb => ?_⟩
  have hi := badMm_not hb
  have part := inv.part i hi
  obtain ⟨l, hl, hp⟩ := part.chain
  refine ⟨⟨l, hl, perm_nodup part.ok hp, hp⟩, ?_, ?_, part.count hb⟩
  · rcases @get_cases cfg st.s i with ⟨hz, e⟩ | ⟨-, hf, e⟩
    · rw [e]
      exact iff_of_true rfl (part.all_held (hz.resolve_left hb))
    · rw [e]
      exact iff_of_false (Nat.ne_of_gt hf) fun hall => (part.first hf).2 (hall _ (part.first hf).1)
  · rcases @get_cases cfg st.s i with ⟨-, e⟩ | ⟨-, hf, e⟩
    · rw [e]
      exact fun hne => absurd rfl hne
    · rw [e]
      refine fun _ => ⟨(part.first hf).1, fun j hbj hheld => ?_⟩
      by_cases hji : i = j
      · exact (part.first hf).2 (hji ▸ hheld)
      · have hj := badMm_not hbj
        exact (inv.apart i j hi hj hji).ne part.ok (inv.part j hj).ok (part.first hf).1
          ((inv.part j hj).held_mem hheld) rfl

end Part

/-- Two blocks of 8 bytes, one of them held and written. -/
theorem partition_conserved_two :
    ∃ st, MmReach ⟨2, by decide⟩ (fun st op => op.Valid st) (fun _ => 0) st ∧
    st.held 0 = [4096] ∧ coGetFreeBlockNum ⟨2, by decide⟩ st.s 0 = some (1, .E_OK) := by
  have h1 :=
    MmReach.step (.start : MmReach ⟨2, by decide⟩ (fun st op => op.Valid st) (fun _ => 0) _)
    (show MmOp.Valid _ (.create 4096 8 2) from ⟨by decide, by decide, fun _ e => nomatch e⟩) rfl
  have h2 := MmReach.step h1 (show MmOp.Valid _ (.get 0) from trivial) rfl
  have h3 := MmReach.step h2 (show MmOp.Valid _ (.write 4100 7) from fun i hi => by
    rcases Nat.eq_zero_or_pos i with rfl | h
    · exact Or.inr (Or.inr ⟨4096, List.mem_singleton_self _, by decide, by decide, by decide⟩)
    · have : update (fun _ => false) 0 true i = true := hi
      rw [Function.update_of_ne (Nat.ne_of_gt h)] at this
      cases this) rfl
  exact ⟨_, h3, rfl, ((partition_conserved h3).2 0 (by decide)).2.2.2⟩

end CoOS
