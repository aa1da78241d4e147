/-
  `CoKmalloc` on the blocks of the heap. The search is first fit (`kmallocLoop_spec`), and
  the assignment replaces the free block by a used one, with a free block after it when at
  least 12 bytes remain (`assignIn_spec`). `coKmalloc_spec` puts the two together.
-/
import CoOS.Heap.Rep

namespace CoOS

open Function (update)
open Word32 Blocks

theorem Heap.linkFMB_mem (h : Heap) (q v w : Nat) :
    (h.linkFMB q v).mem w = if q ≠ 0 ∧ w = q then v else h.mem w := by
  unfold Heap.linkFMB
  by_cases hq : q = 0
  · simp [hq]
  · simp [hq, Heap.setNextFMB, Heap.store_mem]

theorem Heap.linkFMB_first (h : Heap) (q v : Nat) :
    (h.linkFMB q v).FMBlist = if q = 0 then v else h.FMBlist := by
  unfold Heap.linkFMB
  by_cases hq : q = 0
  · simp [hq]
  · simp [hq, Heap.setNextFMB, Heap.store]

theorem Heap.linkFMB_bounds (h : Heap) (q v : Nat) :
    (h.linkFMB q v).startAddr = h.startAddr ∧ (h.linkFMB q v).endAddr = h.endAddr := by
  unfold Heap.linkFMB
  split <;> exact ⟨rfl, rfl⟩

/-! ## The words after an assignment -/

section Take

variable {h : Heap} {F q n p N : Nat}

theorem takeWhole_mem (hn : h.mem (F + 4) = n) (hp : h.mem (F + 8) = p)
    (hq : q = 0 ∨ q + 12 ≤ F) (hF : n = 0 ∨ F + 13 ≤ n ∧ n < 2 ^ 32) (w : Nat) :
    (takeWhole h F q).mem w =
      if w = F + 4 then p else if w = F then n else
      if n ≠ 0 ∧ w = n + 3 then F ||| 1 else
      if q ≠ 0 ∧ w = q then h.mem F else h.mem w := by
  have r : ∀ v w, w = F ∨ w = F + 4 ∨ w = F + 8 → (h.linkFMB q v).mem w = h.mem w := by
    intro v w hw
    rw [Heap.linkFMB_mem, if_neg (by omega)]
  have r4 := fun v => r v (F + 4) (by omega)
  have r8 := fun v => r v (F + 8) (by omega)
  simp only [takeWhole, Heap.setPreMB, Heap.setNextMB, Heap.nextUMB, Heap.preUMB, Heap.nextFMB,
    r4, hn]
  by_cases h0 : n = 0
  · simp only [h0, ne_eq, not_true_eq_false, if_false, false_and, Heap.store_mem, r4, r8, hp, hn,
      Heap.linkFMB_mem]
    simp
  · have hs : sub32 n 1 + 4 = n + 3 := by
      rw [sub32_of_le (by omega) (by omega)]
      omega
    simp only [h0, hs, ne_eq, not_false_eq_true, if_true, true_and, Heap.store_mem, r4, r8, hp, hn]
    rw [if_neg (show ¬ F + 8 = F by omega), if_neg (show ¬ F + 8 = n + 3 by omega),
      if_neg (show ¬ F + 4 = n + 3 by omega), Heap.linkFMB_mem]

theorem takePart_mem {size : Nat} (hn : h.mem (F + 4) = n) (hp : h.mem (F + 8) = p)
    (hq : q = 0 ∨ q + 12 ≤ F) (hN : add32 F size = N) (hFN : F + 12 ≤ N)
    (hF : n = 0 ∨ N + 13 ≤ n ∧ n < 2 ^ 32) (w : Nat) :
    (takePart h F q size).mem w =
      if w = F + 4 then p else if w = F then N else
      if n ≠ 0 ∧ w = n + 3 then N else
      if w = N then h.mem F else if w = N + 4 then n else if w = N + 8 then F ||| 1 else
      if q ≠ 0 ∧ w = q then N else h.mem w := by
  have r : ∀ v w, w = F ∨ w = F + 4 ∨ w = F + 8 → (h.linkFMB q v).mem w = h.mem w := by
    intro v w hw
    rw [Heap.linkFMB_mem, if_neg (by omega)]
  have r0 := fun v => r v F (by omega)
  have r4 := fun v => r v (F + 4) (by omega)
  have r8 := fun v => r v (F + 8) (by omega)
  have d1 : ∀ k j, k < 12 → F + k ≠ N + j := by omega
  have d1' : ∀ j, F ≠ N + j := by omega
  have d2 : ∀ k, k < 12 → F + k ≠ N := by omega
  have d3 : F ≠ N := by omega
  simp only [takePart, Heap.setPreMB, Heap.setNextMB, Heap.setNextUMB, Heap.setPreUMB,
    Heap.setNextFMB, Heap.nextUMB, Heap.preUMB, Heap.nextFMB, hN, Heap.store_mem, r0, r4, hn,
    d1 4 8 (by omega), d1 4 4 (by omega), d1' 4, d1' 8, d2 4 (by omega), if_false]
  by_cases h0 : n = 0
  · simp only [h0, ne_eq, not_true_eq_false, if_false, false_and, Heap.store_mem, r8, hp,
      d1 8 8 (by omega), d1 8 4 (by omega), d2 8 (by omega), Heap.linkFMB_mem]
    simp
  · have hs : sub32 n 1 + 4 = n + 3 := by
      rw [sub32_of_le (by omega) (by omega)]
      omega
    simp only [h0, hs, ne_eq, not_false_eq_true, if_true, true_and, Heap.store_mem, r8, hp,
      d1 8 8 (by omega), d1 8 4 (by omega), d2 8 (by omega), if_false]
    rw [if_neg (show ¬ F + 8 = F by omega), if_neg (show ¬ F + 8 = n + 3 by omega),
      Heap.linkFMB_mem]

theorem takeWhole_rest (h : Heap) (F q : Nat) :
    (takeWhole h F q).FMBlist = (if q = 0 then h.mem F else h.FMBlist) ∧
      (takeWhole h F q).startAddr = h.startAddr ∧ (takeWhole h F q).endAddr = h.endAddr := by
  have h1 := h.linkFMB_first q (h.mem F)
  have h2 := h.linkFMB_bounds q (h.mem F)
  unfold takeWhole
  dsimp only
  rw [← h1]
  split <;> exact ⟨rfl, h2⟩

theorem takePart_rest (h : Heap) (F q size : Nat) :
    (takePart h F q size).FMBlist = (if q = 0 then add32 F size else h.FMBlist) ∧
      (takePart h F q size).startAddr = h.startAddr ∧
      (takePart h F q size).endAddr = h.endAddr := by
  have h1 := h.linkFMB_first q (add32 F size)
  have h2 := h.linkFMB_bounds q (add32 F size)
  unfold takePart
  dsimp only
  rw [← h1]
  split <;> exact ⟨rfl, h2⟩

/-- The last write of the assignment: the block before is pointed at the used block. -/
theorem Heap.linkPre_mem {h' : Heap} (hp : h'.mem (F + 8) = p) (hlt : p < 2 ^ 32) (w : Nat) :
    (if h'.preUMB F ≠ 0 then h'.setNextMB (sub32 (h'.preUMB F) 1) (F ||| 1) else h').mem w =
      if p ≠ 0 ∧ w + 1 = p then F ||| 1 else h'.mem w := by
  simp only [Heap.preUMB, Heap.setNextMB, hp, Heap.store_if_mem]
  by_cases h0 : p = 0
  · simp [h0]
  · rw [sub32_of_le hlt (by omega)]
    refine if_congr ?_ rfl rfl
    omega

end Take

/-! ## The assignment -/

/-- The blocks that an assignment of `size` bytes makes of the free block `f`. -/
def carve (f : Blk) (size : Nat) : List Blk :=
  if f.size - size < 12 then [⟨f.addr, f.size, true⟩]
  else [⟨f.addr, size, true⟩, ⟨f.addr + size, f.size - size, false⟩]

section Assign

variable {cfg : KheapCfg} {h : Heap} {l1 l2 : List Blk} {f : Blk} {size : Nat}

/-- Where the neighbours of a free block lie. -/
theorem HeapRep.around (hr : HeapRep cfg h (l1 ++ f :: l2)) (hf : f.used = false) :
    (lastFree 0 l1 = 0 ∨ lastFree 0 l1 + 12 ≤ f.addr) ∧
    (headTag l2 0 = 0 ∨ headTag l2 0 = f.addr + f.size + 1) ∧
    (lastTag 0 l1 = 0 ∨ lastTag 0 l1 + 11 ≤ f.addr) ∧ f.addr + f.size < 2 ^ 32 ∧
    f.addr % 4 = 0 ∧ f.size % 4 = 0 ∧ 12 ≤ f.size ∧ 0 < f.addr := by
  have hbd := hr.bounds
  obtain ⟨m1, m2, m3, m4, m5⟩ := hr.tiled.mem hbd.2.1 (b := f) (by simp)
  obtain ⟨l3, l4, l5⟩ := (hr.edges hf).left hbd.2.1
  refine ⟨?_, ?_, ?_, by omega, m5, m4, m3, by omega⟩
  · by_cases hq : lastFree 0 l1 = 0
    · exact .inl hq
    · have := l5 hq
      have := l4 (by omega)
      omega
  · rcases (hr.edges hf).right with ⟨e, _⟩ | ⟨e, _⟩
    · exact .inl e
    · exact .inr e
  · by_cases hp : lastTag 0 l1 = 0
    · exact .inl hp
    · exact .inr (l4 hp)

theorem assignIn_whole (hr : HeapRep cfg h (l1 ++ f :: l2)) (hf : f.used = false)
    (hsz : size ≤ f.size) (hlt : f.size - size < 12) (w : Nat) :
    (assignIn h f.addr (lastFree 0 l1) size).mem w =
      if lastTag 0 l1 ≠ 0 ∧ w + 1 = lastTag 0 l1 then f.addr + 1 else
      if w = f.addr + 4 then lastTag 0 l1 else if w = f.addr then headTag l2 0 else
      if headTag l2 0 ≠ 0 ∧ w = headTag l2 0 + 3 then f.addr + 1 else
      if lastFree 0 l1 ≠ 0 ∧ w = lastFree 0 l1 then firstFree l2 0 else h.mem w := by
  obtain ⟨w1, w2, w3⟩ := hr.free_words hf
  obtain ⟨a1, a2, a3, a4, a5, a6, a7, -⟩ := hr.around hf
  have hor : f.addr ||| 1 = f.addr + 1 := or_one_of_even (by omega)
  have hbd := hr.bounds
  have hend := (hr.tiled.mem hbd.2.1 (b := f) (by simp)).2.1
  have hn : headTag l2 0 = 0 ∨ f.addr + 13 ≤ headTag l2 0 ∧ headTag l2 0 < 2 ^ 32 := by
    refine a2.imp_right fun e => ?_
    omega
  have hm := takeWhole_mem w2 w3 a1 hn
  have hw1 : h.mem f.addr = firstFree l2 0 := w1
  unfold assignIn
  rw [freeSize_eq hr hf, sub32_of_le (by omega) hsz, if_pos hlt,
    Heap.linkPre_mem (p := lastTag 0 l1) ?_ (by omega), hm, hor, hw1]
  rw [hm, if_neg (by omega), if_neg (by omega), if_neg (by omega), if_neg (by omega), ← w3]
  rfl

theorem assignIn_part (hr : HeapRep cfg h (l1 ++ f :: l2)) (hf : f.used = false)
    (hsz : size ≤ f.size) (hlt : ¬ f.size - size < 12) (h12 : 12 ≤ size) (w : Nat) :
    (assignIn h f.addr (lastFree 0 l1) size).mem w =
      if lastTag 0 l1 ≠ 0 ∧ w + 1 = lastTag 0 l1 then f.addr + 1 else
      if w = f.addr + 4 then lastTag 0 l1 else if w = f.addr then f.addr + size else
      if headTag l2 0 ≠ 0 ∧ w = headTag l2 0 + 3 then f.addr + size else
      if w = f.addr + size then firstFree l2 0 else
      if w = f.addr + size + 4 then headTag l2 0 else
      if w = f.addr + size + 8 then f.addr + 1 else
      if lastFree 0 l1 ≠ 0 ∧ w = lastFree 0 l1 then f.addr + size else h.mem w := by
  obtain ⟨w1, w2, w3⟩ := hr.free_words hf
  obtain ⟨a1, a2, a3, a4, a5, a6, a7, -⟩ := hr.around hf
  have hor : f.addr ||| 1 = f.addr + 1 := or_one_of_even (by omega)
  have hbd := hr.bounds
  have hend := (hr.tiled.mem hbd.2.1 (b := f) (by simp)).2.1
  have hadd : add32 f.addr size = f.addr + size := add32_of_lt (by omega)
  have hn : headTag l2 0 = 0 ∨
      f.addr + size + 13 ≤ headTag l2 0 ∧ headTag l2 0 < 2 ^ 32 := by
    refine a2.imp_right fun e => ?_
    omega
  have hm := takePart_mem w2 w3 a1 hadd (by omega) hn
  have hw1 : h.mem f.addr = firstFree l2 0 := w1
  unfold assignIn
  rw [freeSize_eq hr hf, sub32_of_le (by omega) hsz, if_neg hlt,
    Heap.linkPre_mem (p := lastTag 0 l1) ?_ (by omega), hm, hor, hw1]
  rw [hm, if_neg (by omega), if_neg (by omega), if_neg (by omega), if_neg (by omega),
    if_neg (by omega), if_neg (by omega), if_neg (by omega), ← w3]
  rfl

theorem assignIn_rest (hr : HeapRep cfg h (l1 ++ f :: l2)) (hf : f.used = false)
    (hsz : size ≤ f.size) :
    (assignIn h f.addr (lastFree 0 l1) size).FMBlist =
        (if lastFree 0 l1 = 0 then firstFree (carve f size ++ l2) 0 else h.FMBlist) ∧
      (assignIn h f.addr (lastFree 0 l1) size).startAddr = h.startAddr ∧
      (assignIn h f.addr (lastFree 0 l1) size).endAddr = h.endAddr := by
  obtain ⟨w1, -, -⟩ := hr.free_words hf
  obtain ⟨-, -, -, a4, -, -, -, -⟩ := hr.around hf
  have hw1 : h.mem f.addr = firstFree l2 0 := w1
  have hadd : add32 f.addr size = f.addr + size := add32_of_lt (by omega)
  unfold assignIn
  dsimp only
  rw [freeSize_eq hr hf, sub32_of_le (by omega) hsz]
  by_cases hlt : f.size - size < 12
  · have hrest := takeWhole_rest h f.addr (lastFree 0 l1)
    rw [hw1] at hrest
    simp only [hlt, if_true, carve, List.cons_append, List.nil_append, firstFree]
    split <;> exact hrest
  · have hrest := takePart_rest h f.addr (lastFree 0 l1) size
    rw [hadd] at hrest
    simp only [hlt, if_false, carve, List.cons_append, List.nil_append, firstFree, if_true,
      Bool.false_eq_true]
    split <;> exact hrest

theorem assignIn_spec_whole (hr : HeapRep cfg h (l1 ++ f :: l2)) (hf : f.used = false)
    (hsz : size ≤ f.size) (hlt : f.size - size < 12) :
    HeapRep cfg (assignIn h f.addr (lastFree 0 l1) size) (l1 ++ (carve f size ++ l2)) ∧
      ∀ w, Apart l1 l2 f.addr (f.addr + f.size) w →
        (assignIn h f.addr (lastFree 0 l1) size).mem w = h.mem w := by
  have hr' : HeapRep cfg h (l1 ++ ([f] ++ l2)) := hr
  have he := hr.edges hf
  obtain ⟨-, -, e3⟩ := he.left hr.bounds.2.1
  obtain ⟨a1, a2, a3, a4, a5, a6, a7, a8⟩ := hr.around hf
  have hb := (assignIn_rest hr hf hsz).2
  have hm := assignIn_whole hr hf hsz hlt
  have hcv : carve f size = [⟨f.addr, f.size, true⟩] := if_pos hlt
  have hc2 : Coalesced l2 := (show Coalesced ([f] ++ l2) from hr.coalesced.right).right
  have hfr : ∀ w, Apart l1 l2 f.addr (f.addr + f.size) w →
      (assignIn h f.addr (lastFree 0 l1) size).mem w = h.mem w := by
    intro w hw
    rw [hm, if_neg fun hc => hw.pre hc.1 hc.2, if_neg (hw.ne (by omega) (by omega)),
      if_neg (hw.ne (by omega) (by omega)), if_neg fun hc => hw.post hc.1 hc.2,
      if_neg fun hc => hw.free hc.1 hc.2]
  refine ⟨?_, hfr⟩
  rw [hcv]
  refine heapRep_edit hr' he ⟨rfl, a7, a6, rfl⟩ (by simp)
    (hr.coalesced.left.insert_used hc2 rfl) hb ⟨⟨?_, ?_, by simp⟩, trivial⟩ ?_ ?_ ?_ hfr
    (by rw [← hcv]; exact (assignIn_rest hr hf hsz).1)
  · show (assignIn h f.addr (lastFree 0 l1) size).mem f.addr = headTag l2 0
    rw [hm, if_neg (by omega), if_neg (by omega), if_pos rfl]
  · show (assignIn h f.addr (lastFree 0 l1) size).mem (f.addr + 4) = lastTag 0 l1
    rw [hm, if_neg (by omega), if_pos rfl]
  · intro a ha
    rw [hm, if_pos (by omega)]
    rfl
  · intro hq
    have := e3 hq
    rw [hm, if_neg (by omega), if_neg (by omega), if_neg (by omega), if_neg (by omega),
      if_pos ⟨hq, rfl⟩]
    rfl
  · intro hn
    rw [hm, if_neg (by omega), if_neg (by omega), if_neg (by omega), if_pos (by omega)]
    rfl

theorem assignIn_spec_part (hr : HeapRep cfg h (l1 ++ f :: l2)) (hf : f.used = false)
    (hsz : size ≤ f.size) (hlt : ¬ f.size - size < 12) (h12 : 12 ≤ size) (h4 : size % 4 = 0) :
    HeapRep cfg (assignIn h f.addr (lastFree 0 l1) size) (l1 ++ (carve f size ++ l2)) ∧
      ∀ w, Apart l1 l2 f.addr (f.addr + f.size) w →
        (assignIn h f.addr (lastFree 0 l1) size).mem w = h.mem w := by
  have hr' : HeapRep cfg h (l1 ++ ([f] ++ l2)) := hr
  have he := hr.edges hf
  obtain ⟨-, -, e3⟩ := he.left hr.bounds.2.1
  obtain ⟨a1, a2, a3, a4, a5, a6, a7, a8⟩ := hr.around hf
  have hb := (assignIn_rest hr hf hsz).2
  have hm := assignIn_part hr hf hsz hlt h12
  have hcv : carve f size = [⟨f.addr, size, true⟩, ⟨f.addr + size, f.size - size, false⟩] :=
    if_neg hlt
  have hc2 : Coalesced l2 := (show Coalesced ([f] ++ l2) from hr.coalesced.right).right
  have hco : Coalesced (⟨f.addr + size, f.size - size, false⟩ :: l2) :=
    List.isChain_cons.mpr ⟨fun c hc => .inr (he.used_right c hc), hc2⟩
  have hfr : ∀ w, Apart l1 l2 f.addr (f.addr + f.size) w →
      (assignIn h f.addr (lastFree 0 l1) size).mem w = h.mem w := by
    intro w hw
    rw [hm, if_neg fun hc => hw.pre hc.1 hc.2, if_neg (hw.ne (by omega) (by omega)),
      if_neg (hw.ne (by omega) (by omega)), if_neg fun hc => hw.post hc.1 hc.2,
      if_neg (hw.ne (by omega) (by omega)), if_neg (hw.ne (by omega) (by omega)),
      if_neg (hw.ne (by omega) (by omega)), if_neg fun hc => hw.free hc.1 hc.2]
  refine ⟨?_, hfr⟩
  rw [hcv]
  have htl : Tiled f.addr [⟨f.addr, size, true⟩, ⟨f.addr + size, f.size - size, false⟩]
      (f.addr + f.size) :=
    ⟨rfl, h12, h4, rfl, show 12 ≤ f.size - size by omega, show (f.size - size) % 4 = 0 by omega,
      by simp only [Tiled]; omega⟩
  refine heapRep_edit hr' he htl (by simp) (hr.coalesced.left.insert_used hco rfl) hb
    ⟨⟨?_, ?_, by simp⟩, ⟨?_, ?_, fun _ => ?_⟩, trivial⟩ ?_ ?_ ?_ hfr
    (by rw [← hcv]; exact (assignIn_rest hr hf hsz).1)
  · show (assignIn h f.addr (lastFree 0 l1) size).mem f.addr = f.addr + size
    rw [hm, if_neg (by omega), if_neg (by omega), if_pos rfl]
  · show (assignIn h f.addr (lastFree 0 l1) size).mem (f.addr + 4) = lastTag 0 l1
    rw [hm, if_neg (by omega), if_pos rfl]
  · show (assignIn h f.addr (lastFree 0 l1) size).mem (f.addr + size + 4) = headTag l2 0
    rw [hm, if_neg (by omega), if_neg (by omega), if_neg (by omega), if_neg (by omega),
      if_neg (by omega), if_pos rfl]
  · show (assignIn h f.addr (lastFree 0 l1) size).mem (f.addr + size + 8) = f.addr + 1
    rw [hm, if_neg (by omega), if_neg (by omega), if_neg (by omega), if_neg (by omega),
      if_neg (by omega), if_neg (by omega), if_pos rfl]
  · show (assignIn h f.addr (lastFree 0 l1) size).mem (f.addr + size) = firstFree l2 0
    rw [hm, if_neg (by omega), if_neg (by omega), if_neg (by omega), if_neg (by omega),
      if_pos rfl]
  · intro a ha
    rw [hm, if_pos (by omega)]
    rfl
  · intro hq
    have := e3 hq
    rw [hm, if_neg (by omega), if_neg (by omega), if_neg (by omega), if_neg (by omega),
      if_neg (by omega), if_neg (by omega), if_neg (by omega), if_pos ⟨hq, rfl⟩]
    rfl
  · intro hn
    rw [hm, if_neg (by omega), if_neg (by omega), if_neg (by omega), if_pos (by omega)]
    rfl

/-- **Assignment.** The free block is carved, and only writable words change. -/
theorem assignIn_spec (hr : HeapRep cfg h (l1 ++ f :: l2)) (hf : f.used = false)
    (hsz : size ≤ f.size) (h12 : 12 ≤ size) (h4 : size % 4 = 0) :
    HeapRep cfg (assignIn h f.addr (lastFree 0 l1) size) (l1 ++ (carve f size ++ l2)) ∧
      ∀ w, ¬ Writable (l1 ++ f :: l2) w →
        (assignIn h f.addr (lastFree 0 l1) size).mem w = h.mem w := by
  have hspec : HeapRep cfg (assignIn h f.addr (lastFree 0 l1) size)
      (l1 ++ (carve f size ++ l2)) ∧ ∀ w, Apart l1 l2 f.addr (f.addr + f.size) w →
        (assignIn h f.addr (lastFree 0 l1) size).mem w = h.mem w := by
    by_cases hlt : f.size - size < 12
    · exact assignIn_spec_whole hr hf hsz hlt
    · exact assignIn_spec_part hr hf hsz hlt h12 h4
  refine ⟨hspec.1, fun w hw => hspec.2 w ?_⟩
  have hw' : ¬ Writable (l1 ++ ([f] ++ l2)) w := hw
  refine (hr.edges hf).apart hr.bounds.2.1 hw' ?_
  by_contra hin
  refine hw ⟨f, by simp, ?_⟩
  simp only [hf, Bool.false_eq_true, if_false]
  omega

end Assign

/-! ## First fit -/

section Fit

variable {cfg : KheapCfg} {h : Heap} {size : Nat}

/-- All free blocks of `l` are smaller than `size`. -/
def NoFit (size : Nat) (l : List Blk) : Prop := ∀ b ∈ l, b.used = false → b.size < size

/-- The loop of `CoKmalloc` from the first free block of `l2` on. -/
theorem kmallocLoop_spec :
    ∀ (l2 l1 : List Blk) (fuel : Nat), HeapRep cfg h (l1 ++ l2) → l2.length < fuel →
      (NoFit size l2 ∧ kmallocLoop h size fuel (firstFree l2 0) (lastFree 0 l1) = some (h, 0)) ∨
      (∃ k1 f k2, l2 = k1 ++ f :: k2 ∧ f.used = false ∧ NoFit size k1 ∧ size ≤ f.size ∧
        kmallocLoop h size fuel (firstFree l2 0) (lastFree 0 l1) =
          some (assignIn h f.addr (lastFree 0 (l1 ++ k1)) size, f.addr + 8)) := by
  intro l2
  induction l2 with
  | nil =>
    intro l1 fuel hr hf
    obtain ⟨m, rfl⟩ := Nat.exists_eq_succ_of_ne_zero (by omega : fuel ≠ 0)
    exact .inl ⟨by simp [NoFit], by simp [kmallocLoop, firstFree]⟩
  | cons b l2 ih =>
    intro l1 fuel hr hf
    have hr' : HeapRep cfg h ((l1 ++ [b]) ++ l2) := by simpa using hr
    have hlen : l2.length + 1 < fuel := by simpa using hf
    by_cases hb : b.used
    · -- a used block is not on the free list, so the loop does not stop at it
      have hq : lastFree 0 (l1 ++ [b]) = lastFree 0 l1 := by
        rw [lastFree_append]
        simp [lastFree, hb]
      have hff : firstFree (b :: l2) 0 = firstFree l2 0 := by simp [firstFree, hb]
      have hih := ih (l1 ++ [b]) fuel hr' (by omega)
      rw [hq] at hih
      rw [hff]
      rcases hih with ⟨h1, h2⟩ | ⟨k1, f, k2, rfl, h2, h3, h4, h5⟩
      · refine .inl ⟨?_, h2⟩
        intro c hc hcu
        rcases List.mem_cons.mp hc with rfl | hc
        · simp [hb] at hcu
        · exact h1 c hc hcu
      · refine .inr ⟨b :: k1, f, k2, rfl, h2, ?_, h4, by simpa using h5⟩
        intro c hc hcu
        rcases List.mem_cons.mp hc with rfl | hc
        · simp [hb] at hcu
        · exact h3 c hc hcu
    · have hbf : b.used = false := by simpa using hb
      obtain ⟨m, rfl⟩ := Nat.exists_eq_succ_of_ne_zero (by omega : fuel ≠ 0)
      have hff : firstFree (b :: l2) 0 = b.addr := by simp [firstFree, hbf]
      have hq : lastFree 0 (l1 ++ [b]) = b.addr := by
        rw [lastFree_append]
        simp [lastFree, hbf]
      obtain ⟨-, -, -, ha4, -, -, ha7, ha8⟩ := hr.around hbf
      obtain ⟨hnext, -, -⟩ := hr.free_words hbf
      rw [hff, kmallocLoop, if_neg (by omega), freeSize_eq hr hbf]
      by_cases hs : size ≤ b.size
      · rw [if_pos hs, add32_of_lt (by omega)]
        exact .inr ⟨[], b, l2, rfl, hbf, by simp [NoFit], hs, by simp⟩
      · have hih := ih (l1 ++ [b]) m hr' (by omega)
        rw [hq] at hih
        rw [if_neg hs, hnext]
        rcases hih with ⟨h1, h2⟩ | ⟨k1, f, k2, rfl, h2, h3, h4, h5⟩
        · refine .inl ⟨?_, h2⟩
          intro c hc hcu
          rcases List.mem_cons.mp hc with rfl | hc
          · omega
          · exact h1 c hc hcu
        · refine .inr ⟨b :: k1, f, k2, rfl, h2, ?_, h4, by simpa using h5⟩
          intro c hc hcu
          rcases List.mem_cons.mp hc with rfl | hc
          · omega
          · exact h3 c hc hcu

/-- The bytes that a request needs with its header. -/
def need (size : Nat) : Nat := (size + 3) / 4 * 4 + 8

theorem blockSize_eq (hs : need size < 2 ^ 32) : blockSize size = need size := by
  unfold need at hs
  unfold blockSize need
  have h3 : add32 size 3 = size + 3 := add32_of_lt (by omega)
  rw [h3, Nat.shiftRight_eq_div_pow, Nat.shiftLeft_eq]
  exact add32_of_lt hs

theorem need_bounds (h0 : size ≠ 0) :
    12 ≤ need size ∧ need size % 4 = 0 ∧ size + 8 ≤ need size := by
  unfold need
  omega

/-- **CoKmalloc.** The first free block that is large enough is carved, and its payload is
    returned; without one the heap is left as it is and `0` is returned. -/
theorem coKmalloc_spec {bs : List Blk} (hr : HeapRep cfg h bs) (h0 : size ≠ 0)
    (hs : need size < 2 ^ 32) :
    (NoFit (need size) bs ∧ coKmalloc h size = some (h, 0)) ∨
    (∃ l1 f l2 h', bs = l1 ++ f :: l2 ∧ f.used = false ∧ NoFit (need size) l1 ∧
      need size ≤ f.size ∧ coKmalloc h size = some (h', f.addr + 8) ∧
      HeapRep cfg h' (l1 ++ (carve f (need size) ++ l2)) ∧
      ∀ w, ¬ Writable bs w → h'.mem w = h.mem w) := by
  have hlen := hr.length_le
  obtain ⟨hn1, hn2, -⟩ := need_bounds h0
  unfold coKmalloc
  rw [if_neg h0, blockSize_eq hs, hr.first]
  rcases kmallocLoop_spec bs [] (h.words + 1) hr (by omega) with
    ⟨h1, h2⟩ | ⟨l1, f, l2, rfl, h2, h3, h4, h5⟩
  · exact .inl ⟨h1, h2⟩
  · obtain ⟨h6, h7⟩ := assignIn_spec hr h2 h4 hn1 hn2
    exact .inr ⟨l1, f, l2, _, rfl, h2, h3, h4, h5, h6, h7⟩

end Fit

end CoOS
