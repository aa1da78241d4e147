/-
  `CoKfree` on the blocks of the heap. The search finds every used block (`findUMB_spec`).
  The nine ways to release differ in the writes they need; `Released` says what they have in
  common, and `linkNeighbours_spec` concludes: the block, with its free neighbours, becomes
  one free block (`coKfree_spec`).
-/
import CoOS.Heap.Malloc

namespace CoOS

open Function (update)
open Word32 Blocks

/-! ## The search -/

section Search

variable {cfg : KheapCfg} {h : Heap} {u : Blk}

/-- A block's address is aligned, and its tag fits a word. -/
theorem HeapRep.addr {bs : List Blk} {b : Blk} (hr : HeapRep cfg h bs) (hb : b ∈ bs) :
    h.startAddr ≤ b.addr ∧ b.addr % 4 = 0 ∧ b.addr + 12 ≤ h.endAddr ∧ 0 < b.addr ∧
      b.addr + 1 < 2 ^ 32 ∧ 12 ≤ b.size := by
  have hbd := hr.bounds
  have := hr.tiled.mem hbd.2.1 hb
  omega

/-- Walking back over used blocks reaches the block. -/
theorem searchBack_spec (hu : u.used = true) :
    ∀ (m k l2 : List Blk) (fuel : Nat), HeapRep cfg h (k ++ u :: (m ++ l2)) →
      (∀ b ∈ m, b.used = true) → m.length < fuel →
      searchBack h u.addr fuel (sub32 (lastTag u.tag m) 1) = some true := by
  intro m
  induction m using List.reverseRecOn with
  | nil =>
    intro k l2 fuel hr _ hf
    obtain ⟨n, rfl⟩ := Nat.exists_eq_succ_of_ne_zero (by omega : fuel ≠ 0)
    have ha := hr.addr (b := u) (by simp)
    rw [lastTag, Blk.tag_used hu, sub32_tag ha.2.2.2.2.1, searchBack, if_pos rfl]
  | append_singleton m b ih =>
    intro k l2 fuel hr hm hf
    obtain ⟨n, rfl⟩ := Nat.exists_eq_succ_of_ne_zero (by omega : fuel ≠ 0)
    have hb : b.used = true := hm b (by simp)
    have ha := hr.addr (b := b) (by simp)
    have hr' : HeapRep cfg h ((k ++ u :: m) ++ b :: l2) := by simpa using hr
    have hpre : h.preMB b.addr = lastTag u.tag m := by
      rw [(hr'.used_words hb).2, lastTag_append]
      rfl
    have hlen : m.length < n := by simpa using hf
    rw [lastTag_concat, Blk.tag_used hb, sub32_tag ha.2.2.2.2.1, searchBack]
    split
    · rfl
    · rw [if_neg (by omega), hpre]
      exact ih k (b :: l2) n (by simpa using hr) (fun c hc => hm c (by simp [hc])) hlen

/-- Walking on from a used block, over free ones, reaches the block. -/
theorem searchOn_spec (hu : u.used = true) (l2 : List Blk) :
    ∀ (fuel : Nat) (m k : List Blk) (s : Blk), HeapRep cfg h (k ++ s :: (m ++ u :: l2)) →
      s.used = true → m.length + 1 < fuel → searchOn h u.addr fuel s.addr = some true := by
  intro fuel
  induction fuel with
  | zero => intro m k s _ _ hf; omega
  | succ n ih =>
    intro m k s hr hs hf
    have ha := hr.addr (b := s) (by simp)
    have hnext := (hr.used_words hs).1
    obtain ⟨n', rfl⟩ := Nat.exists_eq_succ_of_ne_zero (by omega : n ≠ 0)
    rw [searchOn]
    split
    · rfl
    rw [if_neg (by omega), hnext, and_one]
    cases m with
    | nil =>
      have hau := hr.addr (b := u) (by simp)
      have htag : headTag ([] ++ u :: l2) 0 = u.addr + 1 := Blk.tag_used hu
      rw [htag, if_neg (by omega), sub32_tag hau.2.2.2.2.1, searchOn, if_pos rfl]
    | cons c m =>
      have hac := hr.addr (b := c) (by simp)
      have hr' : HeapRep cfg h ((k ++ [s]) ++ c :: (m ++ u :: l2)) := by simpa using hr
      simp only [List.length_cons] at hf
      by_cases hc : c.used = true
      · have htag : headTag (c :: m ++ u :: l2) 0 = c.addr + 1 := Blk.tag_used hc
        rw [htag, if_neg (by omega), sub32_tag hac.2.2.2.2.1]
        exact ih m (k ++ [s]) c hr' hc (by omega)
      · -- a free block: the one after it is used
        have hcf : c.used = false := by simpa using hc
        have htag : headTag (c :: m ++ u :: l2) 0 = c.addr := Blk.tag_free hcf
        have hn := (hr'.free_words hcf).2.1
        have huh := (hr'.coalesced.around hcf).2
        rw [htag, if_pos (by omega), hn]
        cases m with
        | nil =>
          have hau := hr.addr (b := u) (by simp)
          have htag' : headTag ([] ++ u :: l2) 0 = u.addr + 1 := Blk.tag_used hu
          rw [htag', sub32_tag hau.2.2.2.2.1, searchOn, if_pos rfl]
        | cons d m =>
          have hd : d.used = true := huh d rfl
          have had := hr.addr (b := d) (by simp)
          have htag' : headTag (d :: m ++ u :: l2) 0 = d.addr + 1 := Blk.tag_used hd
          simp only [List.length_cons] at hf
          rw [htag', sub32_tag had.2.2.2.2.1]
          exact ih m (k ++ [s] ++ [c]) d (by simpa using hr) hd (by omega)

/-- **The search of CoKfree finds every used block.** -/
theorem findUMB_spec {l1 l2 : List Blk} (hr : HeapRep cfg h (l1 ++ u :: l2))
    (hu : u.used = true) : findUMB h u.addr = some true := by
  have hlen := hr.length_le
  have hau := hr.addr (b := u) (by simp)
  simp only [List.length_append, List.length_cons] at hlen
  have hfirst := hr.first
  rw [firstFree_append, firstFree, if_pos hu] at hfirst
  unfold findUMB
  rcases split_firstFree l1 with h1 | ⟨m, f, k, rfl, h2, h3⟩
  · rw [firstFree_used h1] at hfirst
    rcases split_firstFree l2 with h4 | ⟨m, f, k, rfl, h5, h6⟩
    · -- no free block at all: the search starts at the first block
      rw [firstFree_used h4] at hfirst
      rw [if_neg (by omega), if_pos hfirst]
      cases l1 with
      | nil =>
        have hst : h.startAddr = u.addr := hr.tiled.1.symm
        rw [hst, searchOn, if_pos rfl]
      | cons s l1 =>
        have hst : h.startAddr = s.addr := hr.tiled.1.symm
        rw [hst]
        refine searchOn_spec hu l2 _ l1 [] s (by simpa using hr) (h1 s (by simp)) ?_
        simp only [List.length_cons] at hlen
        omega
    · -- the first free block comes after the block
      rw [firstFree_append, firstFree_used h5, firstFree, h6] at hfirst
      simp only [Bool.false_eq_true, if_false] at hfirst
      have hr' : HeapRep cfg h ((l1 ++ u :: m) ++ f :: k) := by simpa using hr
      have hlt : u.addr < f.addr := by
        have hd := (hr'.tiled.split).1
        have := (hd.mem hr.bounds.2.1 (b := u) (by simp)).2
        omega
      have hpre := (hr'.free_words h6).2.2
      rw [lastTag_append] at hpre
      rw [hfirst, if_pos hlt, hpre]
      refine searchBack_spec hu m l1 (f :: k) _ hr h5 ?_
      simp only [List.length_append] at hlen
      omega
  · -- the first free block comes before the block
    rw [firstFree_append, firstFree_used h2, firstFree, h3] at hfirst
    simp only [Bool.false_eq_true, if_false] at hfirst
    have hr' : HeapRep cfg h (m ++ f :: (k ++ u :: l2)) := by simpa using hr
    have haf := hr'.addr (b := f) (by simp)
    have hlt : f.addr ≤ u.addr := by
      have hd := (hr'.tiled.split).2.2.2
      have := (hd.mem (by have := hr'.tiled.split; omega) (b := u) (by simp)).1
      omega
    have hnext := (hr'.free_words h3).2.1
    have huh := (hr'.coalesced.around h3).2
    rw [hfirst, if_neg (by omega), if_neg (by omega), hnext]
    simp only [List.length_append, List.length_cons] at hlen
    cases k with
    | nil =>
      have htag : headTag ([] ++ u :: l2) 0 = u.addr + 1 := Blk.tag_used hu
      rw [htag, if_pos (by omega), sub32_tag hau.2.2.2.2.1, searchOn, if_pos rfl]
    | cons s k =>
      have hs : s.used = true := huh s rfl
      have has := hr.addr (b := s) (by simp)
      have htag : headTag (s :: k ++ u :: l2) 0 = s.addr + 1 := Blk.tag_used hs
      rw [htag, if_pos (by omega), sub32_tag has.2.2.2.2.1]
      refine searchOn_spec hu l2 _ k (m ++ [f]) s (by simpa using hr) hs ?_
      simp only [List.length_cons] at hlen
      omega

/-- `GetPreFMB` finds the last free block before a used block. -/
theorem getPreFMB_spec :
    ∀ (l1 l2 : List Blk) (u : Blk) (fuel : Nat), HeapRep cfg h (l1 ++ u :: l2) →
      u.used = true → l1.length < fuel → getPreFMB h fuel u.addr = some (lastFree 0 l1) := by
  intro l1
  induction l1 using List.reverseRecOn with
  | nil =>
    intro l2 u fuel hr hu hf
    obtain ⟨n, rfl⟩ := Nat.exists_eq_succ_of_ne_zero (by omega : fuel ≠ 0)
    have hpre : h.preMB u.addr = 0 := (hr.used_words hu).2
    rw [getPreFMB, hpre]
    rfl
  | append_singleton l1 b ih =>
    intro l2 u fuel hr hu hf
    obtain ⟨n, rfl⟩ := Nat.exists_eq_succ_of_ne_zero (by omega : fuel ≠ 0)
    have hab := hr.addr (b := b) (by simp)
    have hpre := (hr.used_words hu).2
    rw [lastTag_concat] at hpre
    rw [getPreFMB, hpre, and_one, lastFree_append]
    by_cases hb : b.used = true
    · rw [Blk.tag_used hb, if_pos (by omega), sub32_tag hab.2.2.2.2.1,
        ih (u :: l2) b n (by simpa using hr) hb (by simpa using hf)]
      simp [lastFree, hb]
    · have hbf : b.used = false := by simpa using hb
      rw [Blk.tag_free hbf, if_neg (by omega)]
      simp [lastFree, hbf]

end Search

/-! ## The nine ways to release -/

/-- The heap after one of the ways to release: the free block `m` is in place and in the free
    list, and nothing else has changed. -/
structure Released (h h1 : Heap) (l1 l2 : List Blk) (m y : Nat) : Prop where
  next : h1.mem m = firstFree l2 0
  nextU : h1.mem (m + 4) = headTag l2 0
  preU : h1.mem (m + 8) = lastTag 0 l1
  free : lastFree 0 l1 ≠ 0 → h1.mem (lastFree 0 l1) = m
  frame : ∀ w, w < m ∨ y ≤ w → (lastFree 0 l1 ≠ 0 → w ≠ lastFree 0 l1) → h1.mem w = h.mem w
  first : h1.FMBlist = if lastFree 0 l1 = 0 then m else h.FMBlist
  bounds : h1.startAddr = h.startAddr ∧ h1.endAddr = h.endAddr

section Release

variable {cfg : KheapCfg} {h h1 : Heap} {l1 l2 k : List Blk} {u fl fr : Blk} {m y : Nat}

/-- The free list up to the edit. -/
theorem HeapRep.lastFree_link (hr : HeapRep cfg h (l1 ++ k)) :
    (lastFree 0 l1 ≠ 0 → h.mem (lastFree 0 l1) = firstFree k 0) ∧
      (lastFree 0 l1 = 0 → h.FMBlist = firstFree k 0) := by
  obtain ⟨x, ht, _⟩ := tiled_append.mp hr.tiled
  obtain ⟨hh, -⟩ := hdrs_append.mp hr.hdrs
  refine ⟨fun hne => hh.lastFree_word ht hr.bounds.1 hne, fun h0 => ?_⟩
  rw [hr.first, firstFree_append]
  rcases lastFree_cases ht (q := 0) with ⟨_, e⟩ | ⟨e, _⟩
  · exact e _
  · have := hr.bounds.1
    omega

/-- The free block before is extended, the free block after is swallowed. -/
theorem release_both (hr : HeapRep cfg h (l1 ++ fl :: u :: fr :: l2)) (hu : u.used = true)
    (hl : fl.used = false) (hf : fr.used = false) :
    ∃ h1, release h u.addr = some (h1, fl.addr) ∧
      Released h h1 l1 l2 fl.addr (fr.addr + fr.size) := by
  have hru : HeapRep cfg h ((l1 ++ [fl]) ++ u :: fr :: l2) := by simpa using hr
  have hrr : HeapRep cfg h ((l1 ++ [fl, u]) ++ fr :: l2) := by simpa using hr
  obtain ⟨hn, hp⟩ := hru.used_words hu
  obtain ⟨f1, f2, f3⟩ := hr.free_words hl
  obtain ⟨g1, g2, -⟩ := hrr.free_words hf
  obtain ⟨q1, q2⟩ := hr.lastFree_link
  rw [lastTag_concat, Blk.tag_free hl] at hp
  have hn' : h.nextMB u.addr = fr.addr := hn.trans (Blk.tag_free hf)
  have hal := hr.addr (b := fl) (by simp)
  have haf := hr.addr (b := fr) (by simp)
  have hlt : fl.addr + 12 ≤ u.addr ∧ u.addr + 12 ≤ fr.addr := by
    obtain ⟨-, t1, -, t2, t3, -, t4, -⟩ := hr.tiled.split
    omega
  obtain ⟨e1, -⟩ := hr.around hl
  have hfirst : firstFree (fl :: u :: fr :: l2) 0 = fl.addr := by simp [firstFree, hl]
  rw [hfirst] at q1 q2
  have hrel : release h u.addr = some ((h.setNextFMB fl.addr (h.nextFMB fr.addr)).setNextUMB fl.addr
      ((h.setNextFMB fl.addr (h.nextFMB fr.addr)).nextUMB fr.addr), fl.addr) := by
    simp only [release, hn', hp, and_one]
    rw [if_pos (by omega), releaseFreeFree]
    simp only [hn', hp]
    rw [if_neg (by omega), if_neg (by omega), if_neg (by omega)]
  refine ⟨_, hrel, ?_⟩
  simp only [Heap.setNextFMB, Heap.setNextUMB, Heap.nextFMB, Heap.nextUMB,
    Heap.preUMB] at f1 f2 f3 g1 g2 ⊢
  rw [Heap.store_mem h, if_neg (by omega), g1, g2]
  refine ⟨?_, ?_, ?_, ?_, ?_, ?_, rfl, rfl⟩
  · rw [Heap.store_mem, if_neg (by omega), Heap.store_mem, if_pos rfl]
  · rw [Heap.store_mem, if_pos rfl]
  · rw [Heap.store_mem, if_neg (by omega), Heap.store_mem, if_neg (by omega), f3]
  · intro hq
    rw [Heap.store_mem, if_neg (by omega), Heap.store_mem, if_neg (by omega), q1 hq]
  · intro w hw hq
    rw [Heap.store_mem, if_neg (by omega), Heap.store_mem, if_neg (by omega)]
  · show h.FMBlist = _
    split
    · rename_i h0
      exact q2 h0
    · rfl

/-- The free block before is extended. -/
theorem release_left (hr : HeapRep cfg h (l1 ++ fl :: u :: l2)) (hu : u.used = true)
    (hl : fl.used = false) (hu2 : UsedHead l2) :
    ∃ h1, release h u.addr = some (h1, fl.addr) ∧
      Released h h1 l1 l2 fl.addr (u.addr + u.size) := by
  have hru : HeapRep cfg h ((l1 ++ [fl]) ++ u :: l2) := by simpa using hr
  obtain ⟨hn, hp⟩ := hru.used_words hu
  obtain ⟨f1, f2, f3⟩ := hr.free_words hl
  obtain ⟨q1, q2⟩ := hr.lastFree_link
  rw [lastTag_concat, Blk.tag_free hl] at hp
  have hal := hr.addr (b := fl) (by simp)
  have hau := hr.addr (b := u) (by simp)
  obtain ⟨-, t1, -, t2, t3, t4, t5⟩ := hr.tiled.split
  obtain ⟨e1, -⟩ := hr.around hl
  have hfirst : firstFree (fl :: u :: l2) 0 = fl.addr := by simp [firstFree, hl]
  have hnext : firstFree (u :: l2) 0 = firstFree l2 0 := by simp [firstFree, hu]
  rw [hfirst] at q1 q2
  rw [hnext] at f1
  simp only [Heap.nextFMB, Heap.preUMB] at f1 f3
  have hfst : h.FMBlist = if lastFree 0 l1 = 0 then fl.addr else h.FMBlist := by
    split
    · rename_i h0
      exact q2 h0
    · rfl
  rcases hu2.cases t5 with ⟨rfl, hn0, -⟩ | ⟨c, l, rfl, -, hn0, -⟩
  · have hrel : release h u.addr =
        some ((h.setNextFMB fl.addr 0).setNextUMB fl.addr 0, fl.addr) := by
      rw [release, hn.trans hn0, hp, and_one, and_one, if_pos (by omega)]
      unfold releaseFreeFree
      rw [hn.trans hn0, hp]
      dsimp only
      rw [if_neg (by omega), if_neg (by omega), if_pos rfl]
    refine ⟨_, hrel, ?_⟩
    simp only [Heap.setNextFMB, Heap.setNextUMB]
    refine ⟨?_, ?_, ?_, ?_, ?_, hfst, rfl, rfl⟩
    · rw [Heap.store_mem, if_neg (by omega), Heap.store_mem, if_pos rfl]
      rfl
    · rw [Heap.store_mem, if_pos rfl]
      rfl
    · rw [Heap.store_mem, if_neg (by omega), Heap.store_mem, if_neg (by omega), f3]
    · intro hq
      rw [Heap.store_mem, if_neg (by omega), Heap.store_mem, if_neg (by omega), q1 hq]
    · intro w hw hq
      rw [Heap.store_mem, if_neg (by omega), Heap.store_mem, if_neg (by omega)]
  · have hrel : release h u.addr =
        some (h.setNextUMB fl.addr (headTag (c :: l) 0), fl.addr) := by
      rw [release, hn, hp, and_one, and_one, if_neg (by omega), if_pos (by omega)]
      unfold releaseFreeUsed
      rw [hn, hp]
      dsimp only
      rw [if_neg (by omega)]
    refine ⟨_, hrel, ?_⟩
    simp only [Heap.setNextUMB]
    refine ⟨?_, ?_, ?_, ?_, ?_, hfst, rfl, rfl⟩
    · rw [Heap.store_mem, if_neg (by omega), f1]
    · rw [Heap.store_mem, if_pos rfl]
    · rw [Heap.store_mem, if_neg (by omega), f3]
    · intro hq
      rw [Heap.store_mem, if_neg (by omega), q1 hq]
    · intro w hw hq
      rw [Heap.store_mem, if_neg (by omega)]

/-- A new free block: its three words and its place in the free list. -/
theorem Released.of_words (hq : lastFree 0 l1 = 0 ∨ lastFree 0 l1 + 12 ≤ m) (hy : m + 12 ≤ y)
    (hm : ∀ w, h1.mem w = if w = m then firstFree l2 0 else if w = m + 4 then headTag l2 0
      else if w = m + 8 then lastTag 0 l1
      else if lastFree 0 l1 ≠ 0 ∧ w = lastFree 0 l1 then m else h.mem w)
    (hfst : h1.FMBlist = if lastFree 0 l1 = 0 then m else h.FMBlist)
    (hb : h1.startAddr = h.startAddr ∧ h1.endAddr = h.endAddr) : Released h h1 l1 l2 m y := by
  refine ⟨?_, ?_, ?_, fun hne => ?_, fun w hw hne => ?_, hfst, hb⟩
  · rw [hm, if_pos rfl]
  · rw [hm, if_neg (by omega), if_pos rfl]
  · rw [hm, if_neg (by omega), if_neg (by omega), if_pos rfl]
  · rw [hm, if_neg (by omega), if_neg (by omega), if_neg (by omega), if_pos ⟨hne, rfl⟩]
  · rw [hm, if_neg (by omega), if_neg (by omega), if_neg (by omega), if_neg fun hc => hne hc.1 hc.2]

/-- The free block after is swallowed. -/
theorem release_right (hr : HeapRep cfg h (l1 ++ u :: fr :: l2)) (hu : u.used = true)
    (hf : fr.used = false) (hu1 : UsedLast l1) :
    ∃ h1, release h u.addr = some (h1, u.addr) ∧
      Released h h1 l1 l2 u.addr (fr.addr + fr.size) := by
  have hrr : HeapRep cfg h ((l1 ++ [u]) ++ fr :: l2) := by simpa using hr
  obtain ⟨hn, hp⟩ := hr.used_words hu
  obtain ⟨g1, g2, -⟩ := hrr.free_words hf
  obtain ⟨q1, q2⟩ := hr.lastFree_link
  have hn' : h.nextMB u.addr = fr.addr := hn.trans (Blk.tag_free hf)
  have hau := hr.addr (b := u) (by simp)
  have haf := hr.addr (b := fr) (by simp)
  obtain ⟨t0, t1, -, t2, t3, -, -⟩ := hr.tiled.split
  have hfirst : firstFree (u :: fr :: l2) 0 = fr.addr := by simp [firstFree, hu, hf]
  rw [hfirst] at q1 q2
  simp only [Heap.nextFMB, Heap.nextUMB] at g1 g2
  rcases hu1.cases t0 hr.bounds.2.1 with ⟨-, hp0, hq0⟩ | ⟨-, hp0, -, e2, e3, e4⟩
  · have hrel : release h u.addr = some ({ ((h.setNextFMB u.addr (firstFree l2 0)).setNextUMB u.addr
        (headTag l2 0)).setPreUMB u.addr 0 with FMBlist := u.addr }, u.addr) := by
      rw [release, hn', hp.trans hp0, and_one, and_one, if_pos (by omega)]
      unfold releaseFreeFree
      rw [hn', hp.trans hp0]
      dsimp only [Heap.setNextFMB, Heap.nextFMB, Heap.nextUMB]
      rw [if_neg (by omega), if_pos rfl, Heap.store_mem h, if_neg (by omega), g1, g2]
    refine ⟨_, hrel, Released.of_words (.inl hq0) (by omega) ?_ (by rw [if_pos hq0]) ⟨rfl, rfl⟩⟩
    intro w
    simp only [Heap.setNextFMB, Heap.setNextUMB, Heap.setPreUMB, Heap.store_mem, hp0, hq0, ne_eq,
      not_true_eq_false, false_and, if_false]
    split_ifs <;> first | rfl | omega
  · have hlen := hr.length_le
    simp only [List.length_append, List.length_cons] at hlen
    have hpre := getPreFMB_spec l1 (fr :: l2) u (h.words + 1) hr hu (by omega)
    have hnf : (if lastFree 0 l1 = 0 then h.FMBlist else h.nextFMB (lastFree 0 l1)) = fr.addr := by
      split
      · rename_i h0
        exact q2 h0
      · rename_i h0
        exact q1 h0
    have hlk : ∀ w, w = fr.addr ∨ w = fr.addr + 4 → ∀ v, (h.linkFMB (lastFree 0 l1) v).mem w =
        h.mem w := by
      intro w hw v
      rw [Heap.linkFMB_mem, if_neg (by omega)]
    have hrel : release h u.addr = some ((((h.linkFMB (lastFree 0 l1) u.addr).setPreUMB u.addr
        (lastTag 0 l1)).setNextUMB u.addr (headTag l2 0)).setNextFMB u.addr (firstFree l2 0),
        u.addr) := by
      rw [release, hn', hp, and_one, and_one, if_neg (by omega), if_neg (by omega),
        if_pos (by omega)]
      unfold releaseUsedFree
      simp only [hpre, Option.bind_eq_bind, Option.bind_some, hnf, hp]
      rw [if_neg (by omega)]
      simp only [Heap.setPreUMB, Heap.setNextUMB, Heap.nextUMB, Heap.nextFMB, Heap.store_mem]
      rw [if_neg (by omega), if_neg (by omega), if_neg (by omega), hlk _ (by omega),
        hlk _ (by omega), g1, g2]
    refine ⟨_, hrel, Released.of_words (by omega) (by omega) ?_ (Heap.linkFMB_first h _ _)
      (Heap.linkFMB_bounds h _ _)⟩
    intro w
    simp only [Heap.setNextFMB, Heap.setNextUMB, Heap.setPreUMB, Heap.store_mem, Heap.linkFMB_mem]

/-- Both neighbours are used, or the ends of the heap. -/
theorem release_alone (hr : HeapRep cfg h (l1 ++ u :: l2)) (hu : u.used = true)
    (hu1 : UsedLast l1) (hu2 : UsedHead l2) :
    ∃ h1, release h u.addr = some (h1, u.addr) ∧
      Released h h1 l1 l2 u.addr (u.addr + u.size) := by
  obtain ⟨hn, hp⟩ := hr.used_words hu
  obtain ⟨q1, q2⟩ := hr.lastFree_link
  have hau := hr.addr (b := u) (by simp)
  obtain ⟨t0, t1, t2, t5⟩ := hr.tiled.split
  have hfirst : firstFree (u :: l2) 0 = firstFree l2 0 := by simp [firstFree, hu]
  rw [hfirst] at q1 q2
  rcases hu1.cases t0 hr.bounds.2.1 with ⟨-, hp0, hq0⟩ | ⟨-, hp0, -, e2, e3, e4⟩
  · rcases hu2.cases t5 with ⟨rfl, hn0, -⟩ | ⟨c, l, rfl, -, hn0, -⟩
    · have hrel : release h u.addr = some ({ ((h.setNextFMB u.addr 0).setNextUMB u.addr
          0).setPreUMB u.addr 0 with FMBlist := u.addr }, u.addr) := by
        rw [release, hn.trans hn0, hp.trans hp0, and_one, if_pos (by omega)]
        unfold releaseFreeFree
        rw [hn.trans hn0, hp.trans hp0]
        dsimp only
        rw [if_pos ⟨rfl, rfl⟩]
      refine ⟨_, hrel, Released.of_words (.inl hq0) (by omega) ?_ (by rw [if_pos hq0]) ⟨rfl, rfl⟩⟩
      intro w
      simp only [Heap.setNextFMB, Heap.setNextUMB, Heap.setPreUMB, Heap.store_mem, hp0, hq0, ne_eq,
        not_true_eq_false, false_and, if_false, firstFree, headTag]
      split_ifs <;> rfl
    · have hrel : release h u.addr = some ({ ((h.setNextUMB u.addr (headTag (c :: l) 0)).setPreUMB
          u.addr 0).setNextFMB u.addr (firstFree (c :: l) 0) with FMBlist := u.addr }, u.addr) := by
        rw [release, hn, hp.trans hp0, and_one, and_one, if_neg (by omega), if_pos (by omega)]
        unfold releaseFreeUsed
        rw [hn, hp.trans hp0, ← q2 hq0]
        dsimp only
        rw [if_pos rfl]
        rfl
      refine ⟨_, hrel, Released.of_words (.inl hq0) (by omega) ?_ (by rw [if_pos hq0]) ⟨rfl, rfl⟩⟩
      intro w
      simp only [Heap.setNextFMB, Heap.setNextUMB, Heap.setPreUMB, Heap.store_mem, hp0, hq0, ne_eq,
        not_true_eq_false, false_and, if_false]
      split_ifs <;> first | rfl | omega
  · have hlen := hr.length_le
    simp only [List.length_append, List.length_cons] at hlen
    have hpre := getPreFMB_spec l1 l2 u (h.words + 1) hr hu (by omega)
    have hnf : (if lastFree 0 l1 = 0 then h.FMBlist else h.nextFMB (lastFree 0 l1)) =
        firstFree l2 0 := by
      split
      · rename_i h0
        exact q2 h0
      · rename_i h0
        exact q1 h0
    have hrel : release h u.addr = some ((((h.linkFMB (lastFree 0 l1) u.addr).setPreUMB u.addr
        (lastTag 0 l1)).setNextUMB u.addr (headTag l2 0)).setNextFMB u.addr (firstFree l2 0),
        u.addr) := by
      rw [release, hp, and_one, and_one, if_neg (by omega), if_neg (by omega)]
      rcases hu2.cases t5 with ⟨rfl, hn0, -⟩ | ⟨c, l, rfl, -, hn0, -⟩
      · rw [hn.trans hn0, if_pos (by omega)]
        unfold releaseUsedFree
        simp only [hpre, Option.bind_eq_bind, Option.bind_some, hnf, hp]
        rfl
      · rw [hn, if_neg (by omega)]
        unfold releaseUsedUsed
        simp only [hpre, Option.bind_eq_bind, Option.bind_some, hnf, hp, hn]
    refine ⟨_, hrel, Released.of_words (by omega) (by omega) ?_ (Heap.linkFMB_first h _ _)
      (Heap.linkFMB_bounds h _ _)⟩
    intro w
    simp only [Heap.setNextFMB, Heap.setNextUMB, Heap.setPreUMB, Heap.store_mem, Heap.linkFMB_mem]

/-- The used neighbours are pointed at the new free block. -/
theorem linkNeighbours_mem (hrel : Released h h1 l1 l2 m y) (hp : lastTag 0 l1 ≤ m)
    (hlt : m < 2 ^ 32) (hn : headTag l2 0 < 2 ^ 32) (w : Nat) :
    (linkNeighbours h1 m).mem w = if headTag l2 0 ≠ 0 ∧ w = headTag l2 0 + 3 then m else
      if lastTag 0 l1 ≠ 0 ∧ w + 1 = lastTag 0 l1 then m else h1.mem w := by
  have h4 := hrel.nextU
  have h8 := hrel.preU
  have hpre : ∀ w, (if h1.preUMB m ≠ 0 then h1.setNextMB (sub32 (h1.preUMB m) 1) m else h1).mem w =
      if lastTag 0 l1 ≠ 0 ∧ w + 1 = lastTag 0 l1 then m else h1.mem w := by
    intro w
    simp only [Heap.preUMB, Heap.setNextMB, h8, Heap.store_if_mem]
    by_cases h0 : lastTag 0 l1 = 0
    · simp [h0]
    · rw [sub32_of_le (by omega) (by omega)]
      refine if_congr ?_ rfl rfl
      omega
  have hnx : (if h1.preUMB m ≠ 0 then h1.setNextMB (sub32 (h1.preUMB m) 1) m else h1).mem (m + 4) =
      headTag l2 0 := by
    rw [hpre, if_neg (by omega), h4]
  unfold linkNeighbours
  simp only [Heap.nextUMB, Heap.setPreMB, hnx, Heap.store_if_mem, hpre]
  by_cases h0 : headTag l2 0 = 0
  · simp [h0]
  · rw [sub32_of_le hn (by omega)]
    refine if_congr ?_ rfl rfl
    omega

theorem linkNeighbours_rest (h1 : Heap) (m : Nat) :
    (linkNeighbours h1 m).FMBlist = h1.FMBlist ∧
      (linkNeighbours h1 m).startAddr = h1.startAddr ∧
      (linkNeighbours h1 m).endAddr = h1.endAddr := by
  unfold linkNeighbours
  dsimp only
  split <;> split <;> exact ⟨rfl, rfl, rfl⟩

/-- The end of `CoKfree`: the released block is part of the heap again. -/
theorem linkNeighbours_spec {old : List Blk} (hr : HeapRep cfg h (l1 ++ (old ++ l2)))
    (he : Edges h l1 l2 m y) (hrel : Released h h1 l1 l2 m y) (hco1 : Coalesced l1)
    (hco2 : Coalesced l2) (hmy : m + 12 ≤ y) (hy4 : (y - m) % 4 = 0)
    (hyend : y ≤ h.endAddr) (hy : y % 4 = 0) :
    HeapRep cfg (linkNeighbours h1 m) (l1 ++ ([⟨m, y - m, false⟩] ++ l2)) ∧
      ∀ w, Apart l1 l2 m y w → (linkNeighbours h1 m).mem w = h.mem w := by
  have hbd := hr.bounds
  obtain ⟨e1, e2, e3⟩ := he.left hbd.2.1
  have hright := he.right
  have hp : lastTag 0 l1 ≤ m := by
    by_cases h0 : lastTag 0 l1 = 0
    · omega
    · have := e2 h0
      omega
  have hn : headTag l2 0 = 0 ∨ headTag l2 0 = y + 1 := by
    rcases hright with ⟨h0, -⟩ | ⟨h0, -⟩
    · exact .inl h0
    · exact .inr h0
  have hm := linkNeighbours_mem hrel hp (by omega) (by omega)
  obtain ⟨hfst, hb⟩ := linkNeighbours_rest h1 m
  have hfr : ∀ w, Apart l1 l2 m y w → (linkNeighbours h1 m).mem w = h.mem w := by
    intro w hw
    rw [hm, if_neg fun hc => hw.post hc.1 hc.2, if_neg fun hc => hw.pre hc.1 hc.2,
      hrel.frame w hw.out hw.free]
  have htl : Tiled m [⟨m, y - m, false⟩] y :=
    ⟨rfl, show 12 ≤ y - m by omega, hy4, by simp only [Tiled]; omega⟩
  refine ⟨heapRep_edit hr he htl (by simp) (hco1.insert_free hco2 he.used_left he.used_right)
    ⟨hb.1.trans hrel.bounds.1, hb.2.trans hrel.bounds.2⟩
    ⟨⟨?_, ?_, fun _ => ?_⟩, trivial⟩ ?_ ?_ ?_ hfr ?_, hfr⟩
  · show (linkNeighbours h1 m).mem (m + 4) = headTag l2 0
    rw [hm, if_neg (by omega), if_neg (by omega), hrel.nextU]
  · show (linkNeighbours h1 m).mem (m + 8) = lastTag 0 l1
    rw [hm, if_neg (by omega), if_neg (by omega), hrel.preU]
  · show (linkNeighbours h1 m).mem m = firstFree l2 0
    rw [hm, if_neg (by omega), if_neg (by omega), hrel.next]
  · intro a ha
    rw [hm, if_neg (by omega), if_pos (by omega)]
    rfl
  · intro hq
    have := e3 hq
    rw [hm, if_neg (by omega), if_neg (by omega), hrel.free hq]
    rfl
  · intro h0
    rw [hm, if_pos (by omega)]
    rfl
  · rw [hfst, hrel.first]
    rfl

end Release

/-! ## CoKfree -/

section Kfree

variable {cfg : KheapCfg} {h : Heap} {u : Blk}

/-- A used block with the free blocks next to it, between used blocks or the ends. -/
theorem split_used {bs l1 l2 : List Blk} (hbs : bs = l1 ++ u :: l2) (hco : Coalesced bs) :
    ∃ k1 o1 o2 k2, l1 = k1 ++ o1 ∧ l2 = o2 ++ k2 ∧ UsedLast k1 ∧ UsedHead k2 ∧
      (o1 = [] ∨ ∃ f, o1 = [f] ∧ f.used = false) ∧ (o2 = [] ∨ ∃ f, o2 = [f] ∧ f.used = false) := by
  subst hbs
  have hl : ∃ k1 o1, l1 = k1 ++ o1 ∧ UsedLast k1 ∧ (o1 = [] ∨ ∃ f, o1 = [f] ∧ f.used = false) := by
    rcases List.eq_nil_or_concat l1 with rfl | ⟨k, b, rfl⟩
    · exact ⟨[], [], rfl, by simp [UsedLast], .inl rfl⟩
    · rw [List.concat_eq_append] at hco ⊢
      by_cases hb : b.used = true
      · refine ⟨k ++ [b], [], by simp, ?_, .inl rfl⟩
        intro c hc
        obtain rfl : b = c := by simpa using hc
        exact hb
      · have hbf : b.used = false := by simpa using hb
        have hco' : Coalesced (k ++ b :: (u :: l2)) := by simpa using hco
        exact ⟨k, [b], rfl, (hco'.around hbf).1, .inr ⟨b, rfl, hbf⟩⟩
  have hr : ∃ o2 k2, l2 = o2 ++ k2 ∧ UsedHead k2 ∧ (o2 = [] ∨ ∃ f, o2 = [f] ∧ f.used = false) := by
    cases l2 with
    | nil => exact ⟨[], [], rfl, by simp [UsedHead], .inl rfl⟩
    | cons b k =>
      by_cases hb : b.used = true
      · refine ⟨[], b :: k, rfl, ?_, .inl rfl⟩
        intro c hc
        obtain rfl : b = c := by simpa using hc
        exact hb
      · have hbf : b.used = false := by simpa using hb
        have hco' : Coalesced ((l1 ++ [u]) ++ b :: k) := by simpa using hco
        exact ⟨[b], k, rfl, (hco'.around hbf).2, .inr ⟨b, rfl, hbf⟩⟩
  obtain ⟨k1, o1, h1, h2, h3⟩ := hl
  obtain ⟨o2, k2, h4, h5, h6⟩ := hr
  exact ⟨k1, o1, o2, k2, h1, h4, h2, h5, h3, h6⟩

/-- The released block with its free neighbours, once the writes are done. -/
theorem linkNeighbours_used {old k1 k2 : List Blk} {h1 : Heap} {m y : Nat}
    (hr : HeapRep cfg h (k1 ++ (old ++ k2))) (hrel : Released h h1 k1 k2 m y)
    (ht1 : Tiled h.startAddr k1 m) (hto : Tiled m old y) (ht2 : Tiled y k2 h.endAddr)
    (hk1 : UsedLast k1) (hk2 : UsedHead k2) (hu : usedBlocks old = [u]) :
    HeapRep cfg (linkNeighbours h1 m) (k1 ++ ([⟨m, y - m, false⟩] ++ k2)) ∧
      ∀ w, ¬ Writable (k1 ++ (old ++ k2)) w → w < u.addr ∨ u.addr + u.size ≤ w →
        (linkNeighbours h1 m).mem w = h.mem w := by
  have hbd := hr.bounds
  have he : Edges h k1 k2 m y := ⟨ht1, ht2, hk1, hk2⟩
  have hm4 := ht1.aligned hbd.2.1
  have hy4 := hto.aligned hm4
  have hmem : u ∈ old := (mem_usedBlocks.mp (by rw [hu]; simp)).1
  have hin := hto.mem hm4 hmem
  have hend := ht2.le
  have hspec := linkNeighbours_spec hr he hrel hr.coalesced.left hr.coalesced.right.right
    (by omega) (by omega) hend hy4
  refine ⟨hspec.1, fun w hw hout => hspec.2 w (he.apart hbd.2.1 hw ?_)⟩
  by_contra hc
  obtain ⟨b, hb, hb1, hb2⟩ := hto.cover (w := w) (by omega) (by omega)
  by_cases hbu : b.used = true
  · have hbu' : b ∈ usedBlocks old := mem_usedBlocks.mpr ⟨hb, hbu⟩
    rw [hu, List.mem_singleton] at hbu'
    subst hbu'
    omega
  · refine hw ⟨b, by simp [hb], ?_⟩
    rw [if_neg hbu]
    exact ⟨hb1, hb2⟩

/-- **CoKfree.** The block of a live payload becomes, with its free neighbours, one free block;
    the other used blocks stay, and words outside the block change only where they are
    writable. -/
theorem coKfree_spec {l1 l2 : List Blk} (hr : HeapRep cfg h (l1 ++ u :: l2))
    (hu : u.used = true) :
    ∃ h' bs', coKfree h (u.addr + 8) = some h' ∧ HeapRep cfg h' bs' ∧
      usedBlocks bs' = usedBlocks l1 ++ usedBlocks l2 ∧
      ∀ w, ¬ Writable (l1 ++ u :: l2) w → w < u.addr ∨ u.addr + u.size ≤ w →
        h'.mem w = h.mem w := by
  have hau := hr.addr (b := u) (by simp)
  have hfree : ∀ h1 m, release h u.addr = some (h1, m) →
      coKfree h (u.addr + 8) = some (linkNeighbours h1 m) := by
    intro h1 m hrel
    unfold coKfree
    rw [if_neg (by omega), if_neg (by omega), if_neg (by omega)]
    have hsub : sub32 (u.addr + 8) 8 = u.addr := by
      rw [sub32_of_le (by have := hr.bounds; omega) (by omega), Nat.add_sub_cancel]
    simp only [hsub, findUMB_spec hr hu, Option.bind_eq_bind, Option.bind_some, hrel, if_true]
  obtain ⟨k1, o1, o2, k2, rfl, rfl, hk1, hk2, ho1, ho2⟩ := split_used rfl hr.coalesced
  have hr' : HeapRep cfg h (k1 ++ ((o1 ++ u :: o2) ++ k2)) := by simpa using hr
  have hold : usedBlocks (o1 ++ u :: o2) = [u] := by
    rcases ho1 with rfl | ⟨f, rfl, hf⟩ <;> rcases ho2 with rfl | ⟨g, rfl, hg⟩ <;>
      simp [usedBlocks, *]
  have hused : ∀ m y, usedBlocks (k1 ++ ([⟨m, y, false⟩] ++ k2)) =
      usedBlocks (k1 ++ o1) ++ usedBlocks (o2 ++ k2) := by
    intro m y
    rcases ho1 with rfl | ⟨f, rfl, hf⟩ <;> rcases ho2 with rfl | ⟨g, rfl, hg⟩ <;>
      simp [usedBlocks, *]
  obtain ⟨x, ht1, ht⟩ := tiled_append.mp hr'.tiled
  obtain ⟨y, hto, ht2⟩ := tiled_append.mp ht
  have hrel : ∃ h1, release h u.addr = some (h1, x) ∧ Released h h1 k1 k2 x y := by
    rcases ho1 with rfl | ⟨f, rfl, hf⟩ <;> rcases ho2 with rfl | ⟨g, rfl, hg⟩
    · obtain ⟨rfl, -, -, rfl⟩ := hto
      exact release_alone (by simpa using hr) hu hk1 hk2
    · obtain ⟨rfl, -, -, e, -, -, rfl⟩ := hto
      rw [← e]
      exact release_right (by simpa using hr) hu hg hk1
    · obtain ⟨rfl, -, -, e, -, -, rfl⟩ := hto
      rw [← e]
      exact release_left (by simpa using hr) hu hf hk2
    · obtain ⟨rfl, -, -, e, -, -, e', -, -, rfl⟩ := hto
      rw [← e'] 
      exact release_both (by simpa using hr) hu hf hg
  obtain ⟨h1, hr1, hr2⟩ := hrel
  obtain ⟨hs1, hs2⟩ := linkNeighbours_used hr' hr2 ht1 hto ht2 hk1 hk2 hold
  refine ⟨_, _, hfree h1 x hr1, hs1, hused _ _, fun w hw => hs2 w ?_⟩
  simpa using hw

end Kfree

end CoOS
