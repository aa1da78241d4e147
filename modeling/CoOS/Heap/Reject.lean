/-
  What `CoKfree` does with a pointer that is not the payload of a live allocation. Its check walks
  from used block to used block and means to stop at `Co_NULL`, but takes the tag off every link
  before it compares: the end of the heap, a null link, becomes the address `2 ^ 32 - 1` (or is
  followed as a free block), and the walk reads a header there.

  Proved: `kfree_ignores_invalid`, for every state of every run and every such pointer. `CoKfree`
  leaves the heap alone and reads no header outside of it exactly when the checks before the walk
  reject the pointer, or the walk is empty because the first free block is the last block.
-/
import CoOS.Heap.Run

namespace CoOS

open Function (update)
open Word32 Blocks

/-! ## The headers that are read -/

/-- The headers that `searchBack` reads. -/
def backReads (h : Heap) (usedMB : Nat) : Nat → Nat → List Nat
  | 0, _ => []
  | fuel + 1, preUMB =>
    if preUMB = usedMB then []
    else if preUMB = 0 then []
    else preUMB :: backReads h usedMB fuel (sub32 (h.preMB preUMB) 1)

/-- The headers that `searchOn` reads. -/
def onReads (h : Heap) (usedMB : Nat) : Nat → Nat → List Nat
  | 0, _ => []
  | fuel + 1, nextUMB =>
    if nextUMB = usedMB then []
    else if nextUMB = 0 then []
    else if h.nextMB nextUMB &&& 1 = 0 then
      nextUMB :: h.nextMB nextUMB :: onReads h usedMB fuel (sub32 (h.nextUMB (h.nextMB nextUMB)) 1)
    else nextUMB :: onReads h usedMB fuel (sub32 (h.nextMB nextUMB) 1)

/-- The headers that `findUMB` reads. -/
def findReads (h : Heap) (usedMB : Nat) : List Nat :=
  if usedMB < h.FMBlist then
    h.FMBlist :: backReads h usedMB (h.words + 1) (sub32 (h.preUMB h.FMBlist) 1)
  else if h.FMBlist = 0 then onReads h usedMB (h.words + 1) h.startAddr
  else
    h.FMBlist :: onReads h usedMB (h.words + 1)
      (if h.nextUMB h.FMBlist ≠ 0 then sub32 (h.nextUMB h.FMBlist) 1 else 0)

/-- The headers that `CoKfree` reads until it either returns or starts to release `usedMB`, whose
    header it then reads first. -/
def kfreeReads (h : Heap) (memBuf : Nat) : List Nat :=
  if memBuf = 0 ∨ memBuf < h.startAddr ∨ h.endAddr < memBuf then []
  else findReads h (sub32 memBuf 8) ++
    if findUMB h (sub32 memBuf 8) = some true then [sub32 memBuf 8] else []

/-- The header at `p` lies in the heap. -/
def InHeap (h : Heap) (p : Nat) : Prop := h.startAddr ≤ p ∧ p + 8 ≤ h.endAddr

/-! ## Walks that do not find the pointer -/

section Walks

variable {cfg : KheapCfg} {h : Heap} {bs : List Blk} {usedMB : Nat}

theorem sub32_null : sub32 0 1 = 2 ^ 32 - 1 := rfl

theorem HeapRep.null_outside (hr : HeapRep cfg h bs) : ¬ InHeap h 0 := by
  rintro ⟨h1, -⟩
  have := hr.bounds
  omega

theorem HeapRep.last_outside (hr : HeapRep cfg h bs) : ¬ InHeap h (2 ^ 32 - 1) := by
  rintro ⟨-, h2⟩
  have := hr.bounds
  omega

/-- Walking back over used blocks, none of them the one that is looked for, leaves the heap. -/
theorem back_leaves (hne : usedMB ≠ 2 ^ 32 - 1) :
    ∀ (m l2 : List Blk) (fuel : Nat), HeapRep cfg h (m ++ l2) → (∀ b ∈ m, b.used = true) →
      (∀ b ∈ m, b.addr ≠ usedMB) → m.length < fuel →
      2 ^ 32 - 1 ∈ backReads h usedMB fuel (sub32 (lastTag 0 m) 1) := by
  intro m
  induction m using List.reverseRecOn with
  | nil =>
    intro l2 fuel _ _ _ hf
    obtain ⟨n, rfl⟩ := Nat.exists_eq_succ_of_ne_zero (by omega : fuel ≠ 0)
    rw [lastTag, sub32_null, backReads, if_neg (Ne.symm hne), if_neg (by decide)]
    exact List.mem_cons_self
  | append_singleton m b ih =>
    intro l2 fuel hr hm hno hf
    obtain ⟨n, rfl⟩ := Nat.exists_eq_succ_of_ne_zero (by omega : fuel ≠ 0)
    have hb : b.used = true := hm b (by simp)
    have ha := hr.addr (b := b) (by simp)
    have hr' : HeapRep cfg h (m ++ b :: l2) := by simpa using hr
    have hlen : m.length < n := by simpa using hf
    rw [lastTag_concat, Blk.tag_used hb, sub32_tag ha.2.2.2.2.1, backReads,
      if_neg (hno b (by simp)), if_neg (by omega), (hr'.used_words hb).2]
    exact List.mem_cons_of_mem _
      (ih (b :: l2) n hr' (fun c hc => hm c (by simp [hc])) (fun c hc => hno c (by simp [hc])) hlen)

/-- Walking on from a used block, over free ones, without meeting the one that is looked for, leaves
    the heap. At the very end the address `2 ^ 32 - 1` itself may be found. -/
theorem on_leaves :
    ∀ (fuel : Nat) (m k : List Blk) (s : Blk), HeapRep cfg h (k ++ s :: m) → s.used = true →
      (∀ b ∈ s :: m, b.used = true → b.addr ≠ usedMB) → m.length + 1 < fuel →
      (∃ p ∈ onReads h usedMB fuel s.addr, ¬ InHeap h p) ∨
      (usedMB = 2 ^ 32 - 1 ∧ searchOn h usedMB fuel s.addr = some true) := by
  intro fuel
  induction fuel with
  | zero => intro m k s _ _ _ hf; omega
  | succ n ih =>
    intro m k s hr hs hno hf
    have ha := hr.addr (b := s) (by simp)
    have hnext := (hr.used_words hs).1
    have hne := hno s List.mem_cons_self hs
    rw [onReads, searchOn, if_neg hne, if_neg hne, if_neg (show s.addr ≠ 0 by omega),
      if_neg (show s.addr ≠ 0 by omega), hnext, and_one]
    cases m with
    | nil =>
      refine Or.inl ⟨0, ?_, hr.null_outside⟩
      rw [headTag, if_pos rfl]
      exact List.mem_cons_of_mem _ List.mem_cons_self
    | cons c m =>
      have hac := hr.addr (b := c) (by simp)
      have hr' : HeapRep cfg h ((k ++ [s]) ++ c :: m) := by simpa using hr
      simp only [List.length_cons] at hf
      by_cases hc : c.used = true
      · have htag : headTag (c :: m) 0 = c.addr + 1 := Blk.tag_used hc
        rw [htag, if_neg (by omega), if_neg (by omega), sub32_tag hac.2.2.2.2.1]
        refine (ih m (k ++ [s]) c hr' hc (fun b hb => hno b (List.mem_cons_of_mem _ hb))
          (by omega)).imp_left ?_
        rintro ⟨p, hp, hout⟩
        exact ⟨p, List.mem_cons_of_mem _ hp, hout⟩
      · -- a free block: the one after it is used, or it ends the heap
        have hcf : c.used = false := by simpa using hc
        have htag : headTag (c :: m) 0 = c.addr := Blk.tag_free hcf
        have hn := (hr'.free_words hcf).2.1
        have huh := (hr'.coalesced.around hcf).2
        rw [htag, if_pos (by omega), if_pos (by omega), hn]
        cases m with
        | nil =>
          obtain ⟨n', rfl⟩ := Nat.exists_eq_succ_of_ne_zero (by omega : n ≠ 0)
          rw [headTag, sub32_null, onReads, searchOn]
          by_cases hu : 2 ^ 32 - 1 = usedMB
          · exact Or.inr ⟨hu.symm, if_pos hu⟩
          · refine Or.inl ⟨2 ^ 32 - 1, ?_, hr.last_outside⟩
            rw [if_neg hu, if_neg (by decide)]
            split
            · exact List.mem_cons_of_mem _ (List.mem_cons_of_mem _ List.mem_cons_self)
            · exact List.mem_cons_of_mem _ (List.mem_cons_of_mem _ List.mem_cons_self)
        | cons d m =>
          have hd : d.used = true := huh d rfl
          have had := hr.addr (b := d) (by simp)
          have htag' : headTag (d :: m) 0 = d.addr + 1 := Blk.tag_used hd
          simp only [List.length_cons] at hf
          rw [htag', sub32_tag had.2.2.2.2.1]
          refine (ih m (k ++ [s] ++ [c]) d (by simpa using hr) hd
            (fun b hb => hno b (List.mem_cons_of_mem _ (List.mem_cons_of_mem _ hb)))
              (by omega)).imp_left ?_
          rintro ⟨p, hp, hout⟩
          exact ⟨p, List.mem_cons_of_mem _ (List.mem_cons_of_mem _ hp), hout⟩

/-- The walk starts at a neighbour of the first free block, or at the first block of a full heap,
    and leaves the heap; it is empty when that free block is the last block. -/
theorem find_leaves (hr : HeapRep cfg h bs) (hno : ∀ b ∈ bs, b.used = true → b.addr ≠ usedMB)
    (hwalk : ¬ (h.FMBlist ≠ 0 ∧ h.nextUMB h.FMBlist = 0 ∧ h.FMBlist ≤ usedMB)) :
    (∃ p ∈ findReads h usedMB, ¬ InHeap h p) ∨
      (usedMB = 2 ^ 32 - 1 ∧ findUMB h usedMB = some true) := by
  have hlen := hr.length_le
  have hbd := hr.bounds
  have hfirst := hr.first
  unfold findReads findUMB
  rcases split_firstFree bs with hu | ⟨m, f, k, rfl, hm, hff⟩
  · -- no free block at all: the search starts at the first block
    rw [firstFree_used hu] at hfirst
    have hlt : ¬ usedMB < h.FMBlist := by omega
    rw [if_neg hlt, if_neg hlt, if_pos hfirst, if_pos hfirst]
    cases bs with
    | nil =>
      have he : h.startAddr = h.endAddr := hr.tiled
      omega
    | cons s m =>
      have hs : s.addr = h.startAddr := hr.tiled.1
      rw [List.length_cons] at hlen
      rw [← hs]
      exact on_leaves (h.words + 1) m [] s hr (hu s (by simp)) hno (by omega)
  · rw [firstFree_append, firstFree_used hm, firstFree, if_neg (by rw [hff]; decide)] at hfirst
    have ha := hr.addr (b := f) (by simp)
    obtain ⟨-, hn, hp⟩ := hr.free_words hff
    have hend := (hr.tiled.mem hbd.2.1 (b := f) (by simp)).2.1
    simp only [List.length_append, List.length_cons] at hlen
    rw [hfirst] at hwalk ⊢
    by_cases hlt : usedMB < f.addr
    · rw [if_pos hlt, if_pos hlt, hp]
      refine Or.inl ⟨2 ^ 32 - 1, List.mem_cons_of_mem _ ?_, hr.last_outside⟩
      exact back_leaves (by omega) m (f :: k) (h.words + 1) hr hm
        (fun b hb => hno b (by simp [hb]) (hm b hb))
        (by omega)
    · rw [if_neg hlt, if_neg hlt, if_neg (show f.addr ≠ 0 by omega),
        if_neg (show f.addr ≠ 0 by omega), hn]
      cases k with
      | nil => exact absurd ⟨by omega, hn, by omega⟩ hwalk
      | cons d k =>
        have hd : d.used = true := (hr.coalesced.around hff).2 d rfl
        have had := hr.addr (b := d) (by simp)
        have htag : headTag (d :: k) 0 = d.addr + 1 := Blk.tag_used hd
        have hr' : HeapRep cfg h ((m ++ [f]) ++ d :: k) := by simpa using hr
        rw [htag, if_pos (Nat.succ_ne_zero _), sub32_tag had.2.2.2.2.1]
        rw [List.length_cons] at hlen
        refine (on_leaves (h.words + 1) k (m ++ [f]) d hr' hd (fun b hb => hno b ?_)
          (by omega)).imp_left ?_
        · exact List.mem_append_right _ (List.mem_cons_of_mem _ hb)
        · rintro ⟨p, hp, hout⟩
          exact ⟨p, List.mem_cons_of_mem _ hp, hout⟩

end Walks

/-! ## Invalid pointers -/

section Invalid

variable {cfg : KheapCfg} {mem : Nat → Nat} {s : HeapSt} {memBuf : Nat}

/-- No used block has a payload that is not live. -/
theorem HeapInv.not_used {bs : List Blk} (hi : HeapInv cfg s bs) (hp : s.live memBuf = none)
    (h32 : memBuf < 2 ^ 32) {b : Blk} (hb : b ∈ bs) (hu : b.used = true) :
    b.addr ≠ sub32 memBuf 8 := by
  intro he
  obtain ⟨n, hn, -⟩ := hi.2.used b hb hu
  have ha := hi.1.addr hb
  have hbd := hi.1.bounds
  rcases Nat.lt_or_ge memBuf 8 with hlt | hge
  · rw [sub32_of_lt hlt (by decide)] at he
    omega
  · rw [sub32_of_le h32 hge] at he
    rw [show b.addr + 8 = memBuf by omega, hp] at hn
    cases hn

/-- **Invalid pointers.** In every state of every run, `CoKfree` ends without a change and without a
    header outside the heap exactly when the pointer is null or outside the heap, or the first free
    block is the last block and lies at or below the header that the pointer would have. -/
theorem kfree_ignores_invalid (hr : HeapReach cfg mem s) (hp : s.live memBuf = none)
    (h32 : memBuf < 2 ^ 32) :
    (coKfree s.heap memBuf = some s.heap ∧ ∀ p ∈ kfreeReads s.heap memBuf, InHeap s.heap p) ↔
    (memBuf = 0 ∨ memBuf < s.heap.startAddr ∨ s.heap.endAddr < memBuf) ∨
      (s.heap.FMBlist ≠ 0 ∧ s.heap.nextUMB s.heap.FMBlist = 0 ∧
        s.heap.FMBlist ≤ sub32 memBuf 8) := by
  obtain ⟨bs, hi⟩ := heapReach_inv hr
  constructor
  · rintro ⟨-, hin⟩
    by_contra hno
    obtain ⟨hout, hwalk⟩ := not_or.mp hno
    rw [kfreeReads, if_neg hout] at hin
    rcases find_leaves hi.1 (fun b hb hu => hi.not_used hp h32 hb hu) hwalk
      with ⟨p, hp, hbad⟩ | ⟨he, hfound⟩
    · exact hbad (hin p (List.mem_append_left _ hp))
    · rw [if_pos hfound] at hin
      have hmem := hin (sub32 memBuf 8) (List.mem_append_right _ (List.mem_singleton_self _))
      rw [he] at hmem
      exact hi.1.last_outside hmem
  · rintro (hout | ⟨hne, hlast, hle⟩)
    · refine ⟨?_, fun p hp => ?_⟩
      · unfold coKfree
        rcases hout with h0 | h1 | h2
        · rw [if_pos h0]
        · rw [if_pos h1]
          split <;> rfl
        · rw [if_pos h2]
          split
          · rfl
          · split <;> rfl
      · rw [kfreeReads, if_pos hout] at hp
        cases hp
    · have hpos : 0 < s.heap.FMBlist := Nat.pos_of_ne_zero hne
      have hfind : findUMB s.heap (sub32 memBuf 8) = some false := by
        rw [findUMB, if_neg (by omega), if_neg hne, if_neg (not_not.mpr hlast), searchOn,
          if_neg (by omega), if_pos rfl]
      refine ⟨?_, fun p hp => ?_⟩
      · unfold coKfree
        split
        · rfl
        · split
          · rfl
          · split
            · rfl
            · dsimp only
              rw [hfind]
              rfl
      · rw [kfreeReads] at hp
        split at hp
        · cases hp
        · rw [hfind, if_neg (by decide), List.append_nil, findReads, if_neg (by omega), if_neg hne,
            if_neg (not_not.mpr hlast), onReads, if_neg (by omega), if_pos rfl] at hp
          obtain rfl := List.mem_singleton.mp hp
          have hfirst := hi.1.first
          rcases split_firstFree bs with hu | ⟨m, f, k, rfl, hm, hff⟩
          · rw [firstFree_used hu] at hfirst
            exact absurd hfirst hne
          · rw [firstFree_append, firstFree_used hm, firstFree,
              if_neg (by rw [hff]; decide)] at hfirst
            have ha := hi.1.addr (b := f) (by simp)
            exact ⟨by omega, by omega⟩

/-- One block is live, and the pointer is the address of a word in the free block behind it. -/
theorem kfree_ignores_invalid_shipped : ∃ s, HeapReach shippedKheap (fun _ => 0) s ∧
    s.live 0x20000008 = some 10 ∧ s.heap.startAddr ≤ 0x20000030 ∧ 0x20000030 ≤ s.heap.endAddr ∧
    coKfree s.heap 0x20000030 = some s.heap ∧ ∀ p ∈ kfreeReads s.heap 0x20000030,
    InHeap s.heap p := by
  have h : (heapStep ⟨coCreateKheap shippedKheap fun _ => 0,
    fun _ => none⟩ (.malloc 10)).map (fun s =>
      (s.live 0x20000008, s.live 0x20000030, s.heap.FMBlist, s.heap.nextUMB s.heap.FMBlist,
        s.heap.startAddr,
        s.heap.endAddr)) = some (some 10, none, 0x20000014, 0, 0x20000000, 0x200000C8) := by
          decide +kernel
  obtain ⟨s, hs, h⟩ := Option.map_eq_some_iff.mp h
  obtain ⟨h1, h⟩ := Prod.mk.inj h
  obtain ⟨h2, h⟩ := Prod.mk.inj h
  obtain ⟨h3, h⟩ := Prod.mk.inj h
  obtain ⟨h4, h⟩ := Prod.mk.inj h
  obtain ⟨h5, h6⟩ := Prod.mk.inj h
  have hr : HeapReach shippedKheap (fun _ => 0) s :=
    @HeapReach.step _ _ _ _ (.malloc 10) .create ⟨by decide, by decide⟩ hs
  refine ⟨s, hr, h1, by rw [h5]; decide, by rw [h6]; decide, ?_⟩
  refine (kfree_ignores_invalid hr h2 (by decide)).mpr (Or.inr ⟨?_, h4, ?_⟩)
  · rw [h3]
    decide
  · rw [h3]
    decide

/-- One block of 10 bytes is live, and `CoKfree` gets the address of its second word: the walk back
    from the free block behind it goes on through the null link of the first block. -/
theorem kfree_leaves_heap :
    ∃ s, HeapReach shippedKheap (fun _ => 0) s ∧ s.live 0x20000008 = some 10 ∧
    s.live 0x2000000C = none ∧ 2 ^ 32 - 1 ∈ kfreeReads s.heap 0x2000000C ∧
    ¬ InHeap s.heap (2 ^ 32 - 1) := by
  have hfirst : heapStep ⟨coCreateKheap shippedKheap fun _ => 0, fun _ => none⟩ (.malloc 10) =
    some _ := rfl
  refine ⟨_, @HeapReach.step _ _ _ _ (.malloc 10) HeapReach.create ⟨by decide, by decide⟩ hfirst,
    rfl, rfl, ?_, ?_⟩
  · decide
  · exact fun h => absurd h.2 (by decide)

end Invalid

end CoOS
