/-
  What the words of the kernel heap mean. `HeapRep cfg h bs` says that the heap `h` is tiled
  by the blocks `bs`, no two free ones adjacent, that every header names its neighbours and
  that `nextFMB` links the free blocks in order of address from `FMBlist`.

  Proved: `CoCreateKheap` builds one free block (`heapRep_create`), and for any heap with a
  representation, what the code reads at a block (`HeapRep.free_words`, `HeapRep.used_words`,
  `freeSize_eq`). `heapRep_replace` is the rule for both `CoKmalloc` and `CoKfree`: they
  replace the blocks between two used ones.
-/
import CoOS.Lib.Blocks
import CoOS.Heap.Code

namespace CoOS

open Function (update)
open Word32 Blocks

/-- The heap holds exactly the blocks `bs`. -/
structure HeapRep (cfg : KheapCfg) (h : Heap) (bs : List Blk) : Prop where
  startAddr : h.startAddr = cfg.KernelHeap
  endAddr : h.endAddr = cfg.KernelHeap + cfg.KHEAP_SIZE * 4
  tiled : Tiled h.startAddr bs h.endAddr
  coalesced : Coalesced bs
  hdrs : Hdrs h.mem 0 bs 0 0
  first : h.FMBlist = firstFree bs 0

theorem Heap.store_mem (h : Heap) (a v w : Nat) :
    (h.store a v).mem w = if w = a then v else h.mem w :=
  Function.update_apply h.mem a v w

theorem Heap.store_if_mem (h : Heap) (c : Prop) [Decidable c] (a v w : Nat) :
    (if c then h.store a v else h).mem w = if c ∧ w = a then v else h.mem w := by
  by_cases hc : c
  · simp [hc, Heap.store_mem]
  · simp [hc]

/-- The block that `CoCreateKheap` makes of the whole heap. -/
def wholeHeap (cfg : KheapCfg) : Blk := ⟨cfg.KernelHeap, cfg.KHEAP_SIZE * 4, false⟩

theorem heapRep_create (cfg : KheapCfg) (mem : Nat → Nat) :
    HeapRep cfg (coCreateKheap cfg mem) [wholeHeap cfg] := by
  have hfits := cfg.fits
  have hge := cfg.size_ge
  have hend : add32 cfg.KernelHeap (cfg.KHEAP_SIZE * 4) =
      cfg.KernelHeap + cfg.KHEAP_SIZE * 4 := add32_of_lt hfits
  refine ⟨rfl, hend, ⟨rfl, ?_, ?_, ?_⟩, List.isChain_singleton _, ⟨⟨?_, ?_, fun _ => ?_⟩, trivial⟩,
    rfl⟩
  · simp only [wholeHeap]
    omega
  · simp [wholeHeap]
  · exact hend.symm
  all_goals
    simp [coCreateKheap, Heap.setNextFMB, Heap.setNextUMB, Heap.setPreUMB, Heap.store,
      Blk.nextWord, Blk.prevWord, wholeHeap, headTag, firstFree]

section Words

variable {cfg : KheapCfg} {h : Heap} {l1 l2 : List Blk} {b : Blk}

theorem HeapRep.bounds {bs : List Blk} (hr : HeapRep cfg h bs) :
    0 < h.startAddr ∧ h.startAddr % 4 = 0 ∧ h.startAddr + 128 ≤ h.endAddr ∧
      h.endAddr < 2 ^ 32 ∧ h.words = (h.endAddr - h.startAddr) / 4 := by
  have h1 := hr.startAddr
  have h2 := hr.endAddr
  have h3 := cfg.fits
  have h4 := cfg.size_ge
  have h5 := cfg.pos
  have h6 := cfg.aligned
  refine ⟨by omega, by omega, by omega, by omega, rfl⟩

theorem HeapRep.length_le {bs : List Blk} (hr : HeapRep cfg h bs) : bs.length ≤ h.words := by
  have h1 := hr.tiled.length_le
  have h2 := hr.bounds
  omega

/-- The header of a free block. -/
theorem HeapRep.free_words (hr : HeapRep cfg h (l1 ++ b :: l2)) (hb : b.used = false) :
    h.nextFMB b.addr = firstFree l2 0 ∧ h.nextUMB b.addr = headTag l2 0 ∧
      h.preUMB b.addr = lastTag 0 l1 := by
  obtain ⟨-, ⟨hn, hp, hf⟩, -⟩ := hdrs_append.mp hr.hdrs
  simp only [Blk.nextWord, Blk.prevWord, hb, Bool.false_eq_true, if_false] at hn hp
  exact ⟨hf hb, hn, hp⟩

/-- The header of a used block. -/
theorem HeapRep.used_words (hr : HeapRep cfg h (l1 ++ b :: l2)) (hb : b.used = true) :
    h.nextMB b.addr = headTag l2 0 ∧ h.preMB b.addr = lastTag 0 l1 := by
  obtain ⟨-, ⟨hn, hp, -⟩, -⟩ := hdrs_append.mp hr.hdrs
  simp only [Blk.nextWord, Blk.prevWord, hb, if_true] at hn hp
  exact ⟨hn, hp⟩

theorem freeSize_eq (hr : HeapRep cfg h (l1 ++ b :: l2)) (hb : b.used = false) :
    freeSize h b.addr = b.size := by
  obtain ⟨-, hn, -⟩ := hr.free_words hb
  obtain ⟨hu1, hu2⟩ := hr.coalesced.around hb
  obtain ⟨h1, h2, h3, h4⟩ := hr.tiled.split
  have hbd := hr.bounds
  have hle := h1.le
  have hle' := h4.le
  unfold freeSize
  rw [hn]
  rcases hu2.cases h4 with ⟨-, e1, e2⟩ | ⟨c, l, -, -, e1, e2⟩
  · rw [if_pos e1, sub32_of_le (by omega) (by omega)]
    omega
  · rw [if_neg (by omega), e1, sub32_tag (by omega), sub32_of_le (by omega) (by omega)]
    omega

end Words

/-! ## Replacing the blocks between two used ones -/

section Edit

variable {cfg : KheapCfg} {h h' : Heap} {l1 old mid l2 : List Blk} {x y : Nat}

/-- The words that are linked to the blocks between `l1` and `l2`, which are at the addresses
    from `x` to `y`: in the used block before, in the last free block before, and in the used
    block after. -/
structure Edges (h : Heap) (l1 l2 : List Blk) (x y : Nat) : Prop where
  tiled_left : Tiled h.startAddr l1 x
  tiled_right : Tiled y l2 h.endAddr
  used_left : UsedLast l1
  used_right : UsedHead l2

/-- Where these words are. -/
theorem Edges.left (he : Edges h l1 l2 x y) (ha : h.startAddr % 4 = 0) :
    (lastTag 0 l1 = 0 → lastFree 0 l1 = 0) ∧ (lastTag 0 l1 ≠ 0 → lastTag 0 l1 + 11 ≤ x) ∧
      (lastFree 0 l1 ≠ 0 → lastFree 0 l1 + 13 ≤ lastTag 0 l1) := by
  rcases he.used_left.cases he.tiled_left ha with ⟨_, h1, h2⟩ | ⟨_, h1, h2, h3, h4, h5⟩ <;> omega

theorem Edges.right (he : Edges h l1 l2 x y) :
    (headTag l2 0 = 0 ∧ y = h.endAddr) ∨ (headTag l2 0 = y + 1 ∧ y + 12 ≤ h.endAddr) := by
  rcases he.used_right.cases he.tiled_right with ⟨_, h1, h2⟩ | ⟨_, _, _, _, h1, h2⟩
  · exact .inl ⟨h1, h2⟩
  · exact .inr ⟨h1, h2⟩

/-- A word that is none of these, and not between the two. -/
structure Apart (l1 l2 : List Blk) (x y w : Nat) : Prop where
  out : w < x ∨ y ≤ w
  pre : lastTag 0 l1 ≠ 0 → w + 1 ≠ lastTag 0 l1
  free : lastFree 0 l1 ≠ 0 → w ≠ lastFree 0 l1
  post : headTag l2 0 ≠ 0 → w ≠ headTag l2 0 + 3

theorem Apart.ne {w v : Nat} (h : Apart l1 l2 x y w) (h1 : x ≤ v) (h2 : v < y) : w ≠ v := by
  have := h.out
  omega

/-- **Replacement.** The rule for `CoKmalloc` and `CoKfree`: the blocks between `l1` and `l2`
    become `mid`. -/
theorem heapRep_edit (hr : HeapRep cfg h (l1 ++ (old ++ l2))) (he : Edges h l1 l2 x y)
    (htm : Tiled x mid y) (hmid : mid ≠ []) (hco : Coalesced (l1 ++ (mid ++ l2)))
    (hb : h'.startAddr = h.startAddr ∧ h'.endAddr = h.endAddr)
    (hm : Hdrs h'.mem (lastTag 0 l1) mid (headTag l2 0) (firstFree l2 0))
    (hL : ∀ a, lastTag 0 l1 = a + 1 → h'.mem a = headTag mid 0)
    (hF : lastFree 0 l1 ≠ 0 → h'.mem (lastFree 0 l1) = firstFree (mid ++ l2) 0)
    (hR : headTag l2 0 ≠ 0 → h'.mem (y + 4) = lastTag (lastTag 0 l1) mid)
    (hfr : ∀ w, Apart l1 l2 x y w → h'.mem w = h.mem w)
    (hfst : h'.FMBlist = if lastFree 0 l1 = 0 then firstFree (mid ++ l2) 0 else h.FMBlist) :
    HeapRep cfg h' (l1 ++ (mid ++ l2)) := by
  obtain ⟨hpos, hal, -⟩ := hr.bounds
  have hright := he.right
  obtain ⟨ht1, ht2, hu1, hu2⟩ := he
  obtain ⟨h1, h2⟩ := hdrs_append.mp hr.hdrs
  obtain ⟨-, h2⟩ := hdrs_append.mp h2
  have hxy := htm.le
  have hhead : headTag (mid ++ l2) 0 = headTag mid 0 := by
    cases mid with
    | nil => exact absurd rfl hmid
    | cons c mid => rfl
  have hleft := hu1.cases ht1 hal
  have hpost : ∀ c ∈ l2.head?, c.prevWord = y + 4 ∧ headTag l2 0 ≠ 0 := by
    intro c hc
    rcases hu2.cases ht2 with ⟨rfl, -⟩ | ⟨d, l, rfl, e1, e2, -⟩
    · simp at hc
    · obtain rfl : d = c := by simpa using hc
      exact ⟨e1, by omega⟩
  refine ⟨hb.1.trans hr.startAddr, hb.2.trans hr.endAddr, ?_, hco, ?_, ?_⟩
  · rw [hb.1, hb.2]
    exact tiled_append.mpr ⟨x, ht1, tiled_append.mpr ⟨y, htm, ht2⟩⟩
  · refine Hdrs.replace ht1 ht2 hpos h1 h2 hm (fun hne => ?_) hF (fun c hc => ?_)
      (fun w hw1 hw2 hw3 hw4 => hfr w ⟨.inl hw2, ?_, ?_, ?_⟩)
      (fun w hw1 hw2 hw3 => hfr w ⟨.inr hw1, ?_, ?_, ?_⟩)
    · rw [hhead]
      refine hL _ ?_
      rcases hleft with ⟨h3, -⟩ | ⟨-, h3, -⟩
      · exact absurd h3 hne
      · exact h3
    · rw [(hpost c hc).1]
      exact hR (hpost c hc).2
    · rcases hleft with ⟨_, h3, _⟩ | ⟨_, h3, _⟩ <;> omega
    · exact fun _ => hw4
    · omega
    · rcases hleft with ⟨_, h3, _⟩ | ⟨_, h3, _, h4, _⟩ <;> omega
    · rcases hleft with ⟨_, _, h3⟩ | ⟨_, _, _, h4, _, h5⟩ <;> omega
    · rcases hu2.cases ht2 with ⟨_, e1, _⟩ | ⟨d, l, rfl, e1, e2, -⟩
      · exact fun h0 => absurd e1 h0
      · have := hw3 d rfl
        omega
  · have hnew := @firstFree_append 0 l1 (mid ++ l2)
    rw [hfst, hnew]
    rcases lastFree_cases ht1 (q := 0) with ⟨e1, e2⟩ | ⟨e1, _, e2⟩
    · rw [if_pos e1, e2]
    · rw [if_neg (by omega), hr.first, firstFree_append]
      exact e2 _ _

/-- Words that are not writable, and not between the two, are left alone by an edit. -/
theorem Edges.apart {w : Nat} (he : Edges h l1 l2 x y) (ha : h.startAddr % 4 = 0)
    (hw : ¬ Writable (l1 ++ (old ++ l2)) w) (hout : w < x ∨ y ≤ w) : Apart l1 l2 x y w := by
  refine ⟨hout, fun hne hw' => hw ?_, fun hne hw' => hw ?_, fun hne hw' => hw ?_⟩
  · rcases he.used_left.cases he.tiled_left ha with ⟨_, h1, _⟩ | ⟨h1, h2, _⟩
    · exact absurd h1 hne
    · have hwr := he.used_left.writable h1
      have e : w = lastNext 0 l1 := by omega
      rw [e]
      exact hwr.mono fun b hb => by simp [hb]
  · rw [hw']
    exact (writable_lastFree he.tiled_left hne).mono fun b hb => by simp [hb]
  · rcases he.used_right.cases he.tiled_right with ⟨_, h1, _⟩ | ⟨c, l, rfl, h1, h2, _⟩
    · exact absurd h1 hne
    · have hwr := he.used_right.writable (c := c) rfl
      have e : w = c.prevWord := by omega
      rw [e]
      exact hwr.mono fun b hb => by simp [List.mem_cons.mp hb]

/-- Around a free block. -/
theorem HeapRep.edges {f : Blk} (hr : HeapRep cfg h (l1 ++ f :: l2)) (hf : f.used = false) :
    Edges h l1 l2 f.addr (f.addr + f.size) := by
  obtain ⟨hu1, hu2⟩ := hr.coalesced.around hf
  obtain ⟨h1, _, _, h4⟩ := hr.tiled.split
  exact ⟨h1, h4, hu1, hu2⟩

end Edit

end CoOS
