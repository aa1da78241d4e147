/-
  Heaps with boundary tags: an interval of memory tiled by used and free blocks, each with a
  header that names its neighbours. Nothing here is about a kernel.

  `Tiled a bs e` says that the blocks `bs` fill the addresses from `a` to `e` without gaps.
  A block is named by its tag: its address, plus `1` when it is used. A used block's header
  holds the tags of the block after it and of the block before it; a free block's header
  holds the address of the next free block, then the same two tags. `Hdrs mem p bs n f`
  says that `mem` holds the headers of `bs`, with `p` the tag before the first block, `n`
  the tag after the last one and `f` the first free block after it.

  An edit of the heap replaces a few blocks in the middle. `Hdrs.change_left` and
  `Hdrs.change_right` carry the blocks on both sides over: on the left only the link to the
  next block and the link to the next free block change, on the right only one word.
-/
import Mathlib.Data.List.Chain
import Mathlib.Tactic.Push

namespace Blocks

structure Blk where
  addr : Nat
  size : Nat
  used : Bool
  deriving DecidableEq, Repr

/-- The name of a block in its neighbours' headers. -/
def Blk.tag (b : Blk) : Nat := if b.used then b.addr + 1 else b.addr

/-- The word of the header that holds the tag of the next block. -/
def Blk.nextWord (b : Blk) : Nat := if b.used then b.addr else b.addr + 4

/-- The word of the header that holds the tag of the block before. -/
def Blk.prevWord (b : Blk) : Nat := if b.used then b.addr + 4 else b.addr + 8

/-- The blocks fill the addresses from `a` to `e`. Sizes are whole words, at least three. -/
def Tiled : Nat → List Blk → Nat → Prop
  | a, [], e => a = e
  | a, b :: bs, e => b.addr = a ∧ 12 ≤ b.size ∧ b.size % 4 = 0 ∧ Tiled (a + b.size) bs e

/-- The tag of the first block, or `n`. -/
def headTag : List Blk → Nat → Nat
  | [], n => n
  | b :: _, _ => b.tag

/-- The tag of the last block, or `p`. -/
def lastTag : Nat → List Blk → Nat
  | p, [] => p
  | _, b :: bs => lastTag b.tag bs

/-- The address of the first free block, or `f`. -/
def firstFree : List Blk → Nat → Nat
  | [], f => f
  | b :: bs, f => if b.used then firstFree bs f else b.addr

/-- The address of the last free block, or `q`. -/
def lastFree : Nat → List Blk → Nat
  | q, [] => q
  | q, b :: bs => lastFree (if b.used then q else b.addr) bs

/-- The `nextWord` of the last block, or `z`. -/
def lastNext : Nat → List Blk → Nat
  | z, [] => z
  | _, b :: bs => lastNext b.nextWord bs

/-- The header of `b`: `p` before it, `n` after it, `f` the next free block. -/
def Hdr (mem : Nat → Nat) (b : Blk) (p n f : Nat) : Prop :=
  mem b.nextWord = n ∧ mem b.prevWord = p ∧ (b.used = false → mem b.addr = f)

/-- The headers of all blocks. -/
def Hdrs (mem : Nat → Nat) : Nat → List Blk → Nat → Nat → Prop
  | _, [], _, _ => True
  | p, b :: bs, n, f => Hdr mem b p (headTag bs n) (firstFree bs f) ∧ Hdrs mem b.tag bs n f

/-- No two free blocks are adjacent. -/
def Coalesced (bs : List Blk) : Prop := bs.IsChain fun b c => b.used = true ∨ c.used = true

/-! ## Tilings -/

section Tilings

variable {a e : Nat} {b : Blk} {bs l1 l2 : List Blk}

theorem tiled_append :
    Tiled a (l1 ++ l2) e ↔ ∃ m, Tiled a l1 m ∧ Tiled m l2 e := by
  induction l1 generalizing a with
  | nil => simp [Tiled]
  | cons b l1 ih =>
    simp only [List.cons_append, Tiled, ih]
    constructor
    · rintro ⟨h1, h2, h3, m, h4, h5⟩
      exact ⟨m, ⟨h1, h2, h3, h4⟩, h5⟩
    · rintro ⟨m, ⟨h1, h2, h3, h4⟩, h5⟩
      exact ⟨h1, h2, h3, m, h4, h5⟩

theorem Tiled.le (h : Tiled a bs e) : a ≤ e := by
  induction bs generalizing a with
  | nil => exact Nat.le_of_eq h
  | cons b bs ih =>
    obtain ⟨_, h2, _, h4⟩ := h
    have := ih h4
    omega

theorem Tiled.length_le (h : Tiled a bs e) : 12 * bs.length ≤ e - a := by
  induction bs generalizing a with
  | nil => simp
  | cons b bs ih =>
    obtain ⟨_, h2, _, h4⟩ := h
    have h5 := ih h4
    have h6 := h4.le
    rw [List.length_cons]
    omega

/-- A block of a tiling: where it lies, and its alignment. -/
theorem Tiled.mem (h : Tiled a bs e) (ha : a % 4 = 0) (hb : b ∈ bs) :
    a ≤ b.addr ∧ b.addr + b.size ≤ e ∧ 12 ≤ b.size ∧ b.size % 4 = 0 ∧ b.addr % 4 = 0 := by
  induction bs generalizing a with
  | nil => simp at hb
  | cons c bs ih =>
    obtain ⟨h1, h2, h3, h4⟩ := h
    rcases List.mem_cons.mp hb with rfl | hb
    · have := h4.le
      omega
    · have := ih h4 (by omega) hb
      omega

theorem Tiled.aligned (h : Tiled a bs e) (ha : a % 4 = 0) : e % 4 = 0 := by
  induction bs generalizing a with
  | nil =>
    have : a = e := h
    omega
  | cons b bs ih =>
    obtain ⟨_, _, h3, h4⟩ := h
    exact ih h4 (by omega)

/-- Every address lies in a block. -/
theorem Tiled.cover {w : Nat} (h : Tiled a bs e) (h1 : a ≤ w) (h2 : w < e) :
    ∃ b ∈ bs, b.addr ≤ w ∧ w < b.addr + b.size := by
  induction bs generalizing a with
  | nil =>
    have : a = e := h
    omega
  | cons b bs ih =>
    obtain ⟨hb, _, _, h4⟩ := h
    by_cases hw : w < a + b.size
    · exact ⟨b, by simp, by omega, by omega⟩
    · obtain ⟨c, hc, hc'⟩ := ih h4 (by omega)
      exact ⟨c, by simp [hc], hc'⟩

theorem Tiled.split (h : Tiled a (l1 ++ b :: l2) e) :
    Tiled a l1 b.addr ∧ 12 ≤ b.size ∧ b.size % 4 = 0 ∧ Tiled (b.addr + b.size) l2 e := by
  obtain ⟨m, h1, h2, h3, h4, h5⟩ := tiled_append.mp h
  subst h2
  exact ⟨h1, h3, h4, h5⟩

/-- Two blocks at the same address are one block, and distinct blocks do not overlap. -/
theorem Tiled.disjoint (h : Tiled a bs e) (ha : a % 4 = 0) {c : Blk} (hb : b ∈ bs)
    (hc : c ∈ bs) : b = c ∨ b.addr + b.size ≤ c.addr ∨ c.addr + c.size ≤ b.addr := by
  induction bs generalizing a with
  | nil => simp at hb
  | cons d bs ih =>
    obtain ⟨h1, h2, h3, h4⟩ := h
    have ha' : (a + d.size) % 4 = 0 := by omega
    rcases List.mem_cons.mp hb with rfl | hb' <;> rcases List.mem_cons.mp hc with rfl | hc'
    · exact .inl rfl
    · have := h4.mem ha' hc'
      omega
    · have := h4.mem ha' hb'
      omega
    · exact ih h4 ha' hb' hc'

end Tilings

/-- The used blocks. -/
def usedBlocks (bs : List Blk) : List Blk := bs.filter (fun b => b.used)

theorem mem_usedBlocks {b : Blk} {bs : List Blk} : b ∈ usedBlocks bs ↔ b ∈ bs ∧ b.used = true :=
  List.mem_filter

/-! ## Names at the ends of a list -/

section Ends

variable {a e p q n f z : Nat} {b : Blk} {bs l1 l2 : List Blk}

theorem Blk.tag_used {b : Blk} (hb : b.used = true) : b.tag = b.addr + 1 := by
  simp [Blk.tag, hb]

theorem Blk.tag_free {b : Blk} (hb : b.used = false) : b.tag = b.addr := by
  simp [Blk.tag, hb]

theorem headTag_append : headTag (l1 ++ l2) n = headTag l1 (headTag l2 n) := by
  cases l1 <;> rfl

theorem firstFree_append : firstFree (l1 ++ l2) f = firstFree l1 (firstFree l2 f) := by
  induction l1 with
  | nil => rfl
  | cons b l1 ih => simp only [List.cons_append, firstFree, ih]

theorem lastTag_append : lastTag p (l1 ++ l2) = lastTag (lastTag p l1) l2 := by
  induction l1 generalizing p with
  | nil => rfl
  | cons b l1 ih => exact ih

theorem lastTag_concat (p : Nat) (k : List Blk) (b : Blk) : lastTag p (k ++ [b]) = b.tag := by
  rw [lastTag_append]
  rfl

theorem lastFree_append : lastFree q (l1 ++ l2) = lastFree (lastFree q l1) l2 := by
  induction l1 generalizing q with
  | nil => rfl
  | cons b l1 ih => exact ih

theorem lastNext_concat : lastNext z (l1 ++ [b]) = b.nextWord := by
  induction l1 generalizing z with
  | nil => rfl
  | cons c l1 ih => exact ih

theorem hdrs_append {mem : Nat → Nat} :
    Hdrs mem p (l1 ++ l2) n f ↔
      Hdrs mem p l1 (headTag l2 n) (firstFree l2 f) ∧ Hdrs mem (lastTag p l1) l2 n f := by
  induction l1 generalizing p with
  | nil => simp [Hdrs, lastTag]
  | cons b l1 ih =>
    simp only [List.cons_append, Hdrs, ih, lastTag, headTag_append, firstFree_append, and_assoc]

theorem firstFree_used {l : List Blk} (hl : ∀ b ∈ l, b.used = true) (f : Nat) :
    firstFree l f = f := by
  induction l with
  | nil => rfl
  | cons b l ih =>
    rw [firstFree, if_pos (hl b (by simp)), ih fun c hc => hl c (by simp [hc])]

/-- The first free block of a list, if there is one. -/
theorem split_firstFree (l : List Blk) :
    (∀ b ∈ l, b.used = true) ∨
      ∃ m f k, l = m ++ f :: k ∧ (∀ b ∈ m, b.used = true) ∧ f.used = false := by
  induction l with
  | nil => simp
  | cons b l ih =>
    by_cases hb : b.used = true
    · rcases ih with h1 | ⟨m, f, k, rfl, h2, h3⟩
      · left
        intro c hc
        rcases List.mem_cons.mp hc with rfl | hc
        · exact hb
        · exact h1 c hc
      · refine .inr ⟨b :: m, f, k, rfl, ?_, h3⟩
        intro c hc
        rcases List.mem_cons.mp hc with rfl | hc
        · exact hb
        · exact h2 c hc
    · exact .inr ⟨[], b, l, rfl, by simp, by simpa using hb⟩

/-- Either there is no free block, or the last one lies in the tiling. -/
theorem lastFree_cases (h : Tiled a bs e) :
    (lastFree q bs = q ∧ ∀ f, firstFree bs f = f) ∨
    (a ≤ lastFree q bs ∧ lastFree q bs + 12 ≤ e ∧ ∀ f f', firstFree bs f = firstFree bs f') := by
  induction bs generalizing a q with
  | nil => exact .inl ⟨rfl, fun _ => rfl⟩
  | cons b bs ih =>
    obtain ⟨h1, h2, _, h4⟩ := h
    have hle := h4.le
    have hih := ih h4 (q := if b.used then q else b.addr)
    simp only [lastFree, firstFree]
    by_cases hb : b.used
    · simp only [hb, if_true] at hih ⊢
      rcases hih with h | ⟨h5, h6, h7⟩
      · exact .inl h
      · exact .inr ⟨by omega, h6, h7⟩
    · simp only [hb, Bool.false_eq_true, if_false] at hih ⊢
      refine .inr ⟨?_, ?_, by simp⟩ <;> rcases hih with ⟨h5, _⟩ | ⟨h5, h6, _⟩ <;> omega

theorem lastNext_cases (h : Tiled a bs e) :
    (bs = [] ∧ lastNext z bs = z) ∨ (a ≤ lastNext z bs ∧ lastNext z bs + 8 ≤ e) := by
  induction bs generalizing a z with
  | nil => exact .inl ⟨rfl, rfl⟩
  | cons b bs ih =>
    obtain ⟨h1, h2, _, h4⟩ := h
    have hle := h4.le
    have hw : b.nextWord = b.addr ∨ b.nextWord = b.addr + 4 := by
      unfold Blk.nextWord
      split <;> simp
    right
    simp only [lastNext]
    rcases ih h4 (z := b.nextWord) with ⟨_, h5⟩ | ⟨h5, h6⟩ <;> omega

end Ends

/-! ## Replacing blocks in the middle -/

section Change

variable {mem mem' : Nat → Nat} {a e p q n f z n' f' p' : Nat} {bs : List Blk}

theorem Blk.nextWord_lt (b : Blk) : b.addr ≤ b.nextWord ∧ b.nextWord < b.prevWord := by
  unfold Blk.nextWord Blk.prevWord
  split <;> omega

theorem Blk.prevWord_lt (b : Blk) : b.addr + 4 ≤ b.prevWord ∧ b.prevWord ≤ b.addr + 8 := by
  unfold Blk.prevWord
  split <;> omega

theorem Hdrs.congr (ht : Tiled a bs e) (h : Hdrs mem p bs n f)
    (hfr : ∀ w, a ≤ w → w < e → mem' w = mem w) : Hdrs mem' p bs n f := by
  induction bs generalizing a p with
  | nil => trivial
  | cons b bs ih =>
    obtain ⟨rfl, h2, h3, h4⟩ := ht
    obtain ⟨⟨hn, hp, hf⟩, hrest⟩ := h
    have hle := h4.le
    have hw1 := b.nextWord_lt
    have hw2 := b.prevWord_lt
    refine ⟨⟨?_, ?_, fun hu => ?_⟩, ih h4 hrest fun w hw1 hw2 => hfr w (by omega) hw2⟩
    · rw [hfr _ (by omega) (by omega), hn]
    · rw [hfr _ (by omega) (by omega), hp]
    · rw [hfr _ (by omega) (by omega), hf hu]

/-- The blocks on the left of an edit. The link of the last block is set to `n'`, the link of
    the last free block to `f'`, and every other word is kept. -/
theorem Hdrs.change_left (ht : Tiled a bs e) (h : Hdrs mem p bs n f) (hq : q < a)
    (hfr : ∀ w, a ≤ w → w < e → w ≠ lastNext z bs → w ≠ lastFree q bs → mem' w = mem w)
    (hn : bs ≠ [] → mem' (lastNext z bs) = n')
    (hf : lastFree q bs ≠ q → mem' (lastFree q bs) = f') : Hdrs mem' p bs n' f' := by
  induction bs generalizing a p q z with
  | nil => trivial
  | cons b bs ih =>
    obtain ⟨rfl, h2, h3, h4⟩ := ht
    obtain ⟨⟨hbn, hbp, hbf⟩, hrest⟩ := h
    have hle := h4.le
    have hw1 := b.nextWord_lt
    have hw2 := b.prevWord_lt
    simp only [lastNext, lastFree, ne_eq, reduceCtorEq, not_false_eq_true,
      forall_const] at hfr hn hf
    have hlf := lastFree_cases h4 (q := if b.used then q else b.addr)
    have hln := lastNext_cases h4 (z := b.nextWord)
    have hprev : mem' b.prevWord = mem b.prevWord := by
      refine hfr _ (by omega) (by omega) ?_ ?_
      · rcases hln with ⟨_, e1⟩ | ⟨e1, _⟩ <;> omega
      · rcases hlf with ⟨e1, _⟩ | ⟨e1, _⟩
        · rw [e1]
          split <;> omega
        · omega
    refine ⟨⟨?_, hprev.trans hbp, fun hu => ?_⟩, ?_⟩
    · rcases hln with ⟨rfl, e1⟩ | ⟨e1, e2⟩
      · rw [e1] at hn
        exact hn
      · have hne : bs ≠ [] := by
          rintro rfl
          have : b.addr + b.size = e := h4
          omega
        have hnw : mem' b.nextWord = mem b.nextWord := by
          refine hfr _ (by omega) (by omega) (by omega) ?_
          rcases hlf with ⟨e1, _⟩ | ⟨e1, _⟩
          · rw [e1]
            unfold Blk.nextWord
            split <;> omega
          · omega
        rw [hnw, hbn]
        cases bs with
        | nil => exact absurd rfl hne
        | cons c cs => rfl
    · simp only [hu, Bool.false_eq_true, if_false] at hlf hf hfr
      have hnw : b.nextWord = b.addr + 4 := by simp [Blk.nextWord, hu]
      rcases hlf with ⟨e1, e2⟩ | ⟨e1, _, e2⟩
      · rw [e1] at hf
        rw [e2, hf (by omega)]
      · rw [hfr b.addr (by omega) (by omega) ?_ (by omega), hbf hu, e2 f f']
        rcases hln with ⟨_, e3⟩ | ⟨e3, _⟩ <;> omega
    · refine ih h4 hrest (q := if b.used then q else b.addr) (z := b.nextWord) ?_ ?_ ?_ ?_
      · split <;> omega
      · intro w hw3 hw4
        exact hfr w (by omega) hw4
      · exact fun _ => hn
      · intro hne
        refine hf fun e1 => hne ?_
        rcases hlf with ⟨e2, _⟩ | ⟨e2, _⟩
        · exact e2
        · omega

/-- The blocks on the right of an edit: one word of the first block changes. -/
theorem Hdrs.change_right {b : Blk} (ht : Tiled a (b :: bs) e) (h : Hdrs mem p (b :: bs) n f)
    (hfr : ∀ w, a ≤ w → w < e → w ≠ b.prevWord → mem' w = mem w)
    (hp : mem' b.prevWord = p') : Hdrs mem' p' (b :: bs) n f := by
  obtain ⟨rfl, h2, h3, h4⟩ := ht
  obtain ⟨⟨hbn, hbp, hbf⟩, hrest⟩ := h
  have hle := h4.le
  have hw1 := b.nextWord_lt
  have hw2 := b.prevWord_lt
  refine ⟨⟨?_, hp, fun hu => ?_⟩, hrest.congr h4 fun w hw3 hw4 => hfr w (by omega) hw4 (by omega)⟩
  · rw [hfr _ (by omega) (by omega) (by omega), hbn]
  · rw [hfr _ (by omega) (by omega) (by omega), hbf hu]

/-- The last free block is linked to the first free block after the list. -/
theorem Hdrs.lastFree_word (ht : Tiled a bs e) (h : Hdrs mem p bs n f) (hq : q < a)
    (hne : lastFree q bs ≠ q) : mem (lastFree q bs) = f := by
  induction bs generalizing a p q with
  | nil => exact absurd rfl hne
  | cons b bs ih =>
    obtain ⟨rfl, h2, h3, h4⟩ := ht
    obtain ⟨⟨_, _, hbf⟩, hrest⟩ := h
    simp only [lastFree] at hne ⊢
    by_cases hq' : lastFree (if b.used then q else b.addr) bs = if b.used then q else b.addr
    · rw [hq'] at hne ⊢
      by_cases hb : b.used
      · simp [hb] at hne
      · simp only [hb, Bool.false_eq_true, if_false] at hq' ⊢
        rw [hbf (by simpa using hb)]
        rcases lastFree_cases h4 (q := b.addr) with ⟨_, h5⟩ | ⟨h5, _⟩
        · exact h5 f
        · omega
    · refine ih h4 hrest ?_ hq'
      split <;> omega

/-- **Replacement.** `mid` replaces the blocks between `l1` and `l2`: its headers are written,
    the links on both sides are pointed at it, and every other word on both sides is kept. -/
theorem Hdrs.replace {x y : Nat} {l1 mid l2 : List Blk} (ht1 : Tiled a l1 x)
    (ht2 : Tiled y l2 e) (ha : 0 < a) (h1 : Hdrs mem 0 l1 n f) (h2 : Hdrs mem p l2 0 0)
    (hm : Hdrs mem' (lastTag 0 l1) mid (headTag l2 0) (firstFree l2 0))
    (hL : l1 ≠ [] → mem' (lastNext 0 l1) = headTag (mid ++ l2) 0)
    (hF : lastFree 0 l1 ≠ 0 → mem' (lastFree 0 l1) = firstFree (mid ++ l2) 0)
    (hR : ∀ c ∈ l2.head?, mem' c.prevWord = lastTag (lastTag 0 l1) mid)
    (hfr1 : ∀ w, a ≤ w → w < x → w ≠ lastNext 0 l1 → w ≠ lastFree 0 l1 → mem' w = mem w)
    (hfr2 : ∀ w, y ≤ w → w < e → (∀ c ∈ l2.head?, w ≠ c.prevWord) → mem' w = mem w) :
    Hdrs mem' 0 (l1 ++ (mid ++ l2)) 0 0 := by
  refine hdrs_append.mpr ⟨h1.change_left ht1 ha hfr1 hL hF, hdrs_append.mpr ⟨hm, ?_⟩⟩
  cases l2 with
  | nil => trivial
  | cons c l2 =>
    refine h2.change_right ht2 (fun w hw1 hw2 hw3 => hfr2 w hw1 hw2 ?_) (hR c rfl)
    intro d hd
    obtain rfl : c = d := by simpa using hd
    exact hw3

end Change

/-! ## Used blocks around an edit -/

section Around

variable {a e x y : Nat} {l1 l2 : List Blk} {b : Blk}

/-- The last block, if any, is used. -/
def UsedLast (l : List Blk) : Prop := ∀ b ∈ l.getLast?, b.used = true

/-- The first block, if any, is used. -/
def UsedHead (l : List Blk) : Prop := ∀ b ∈ l.head?, b.used = true

/-- The addresses on the left of an edit that follows a used block or the start. -/
theorem UsedLast.cases (hu : UsedLast l1) (h : Tiled a l1 x) (ha : a % 4 = 0) :
    (l1 = [] ∧ lastTag 0 l1 = 0 ∧ lastFree 0 l1 = 0) ∨
    (l1 ≠ [] ∧ lastTag 0 l1 = lastNext 0 l1 + 1 ∧ a ≤ lastNext 0 l1 ∧
      lastNext 0 l1 + 12 ≤ x ∧ lastNext 0 l1 % 4 = 0 ∧
      (lastFree 0 l1 = 0 ∨ a ≤ lastFree 0 l1 ∧ lastFree 0 l1 + 12 ≤ lastNext 0 l1)) := by
  rcases List.eq_nil_or_concat l1 with rfl | ⟨k, b, rfl⟩
  · exact .inl ⟨rfl, rfl, rfl⟩
  · right
    rw [List.concat_eq_append] at hu h ⊢
    have hb : b.used = true := hu b (by simp)
    have hmem := h.mem ha (b := b) (by simp)
    obtain ⟨hk, -⟩ := h.split
    have hw : b.nextWord = b.addr := by simp [Blk.nextWord, hb]
    have ht : lastTag 0 (k ++ [b]) = b.addr + 1 := by
      rw [lastTag_append]
      simp [lastTag, Blk.tag, hb]
    have hf : lastFree 0 (k ++ [b]) = lastFree 0 k := by
      rw [lastFree_append]
      simp [lastFree, hb]
    rw [lastNext_concat, hw, ht, hf]
    refine ⟨by simp, rfl, hmem.1, by omega, hmem.2.2.2.2, ?_⟩
    rcases lastFree_cases hk (q := 0) with ⟨h1, _⟩ | ⟨h1, h2, _⟩
    · exact .inl h1
    · exact .inr ⟨h1, h2⟩

/-- The addresses on the right of an edit that is followed by a used block or the end. -/
theorem UsedHead.cases (hu : UsedHead l2) (h : Tiled y l2 e) :
    (l2 = [] ∧ headTag l2 0 = 0 ∧ y = e) ∨
    (∃ c l, l2 = c :: l ∧ c.prevWord = y + 4 ∧ headTag l2 0 = y + 1 ∧ y + 12 ≤ e) := by
  cases l2 with
  | nil => exact .inl ⟨rfl, rfl, h⟩
  | cons c l =>
    right
    have hc : c.used = true := hu c rfl
    obtain ⟨h1, h2, _, h4⟩ := h
    have := h4.le
    refine ⟨c, l, rfl, ?_, ?_, by omega⟩
    · simp [Blk.prevWord, hc, h1]
    · simp [headTag, Blk.tag, hc, h1]

/-- Around a free block there are used blocks, or the ends. -/
theorem Coalesced.around (h : Coalesced (l1 ++ b :: l2)) (hb : b.used = false) :
    UsedLast l1 ∧ UsedHead l2 := by
  rw [Coalesced, List.isChain_append] at h
  obtain ⟨_, h2, h3⟩ := h
  refine ⟨fun c hc => ?_, fun c hc => ?_⟩
  · have := h3 c hc b rfl
    simpa [hb] using this
  · cases l2 with
    | nil => simp at hc
    | cons d l2 =>
      obtain rfl : d = c := by simpa using hc
      have := (List.isChain_cons_cons.mp h2).1
      simpa [hb] using this

theorem Coalesced.left (h : Coalesced (l1 ++ l2)) : Coalesced l1 :=
  (List.isChain_append.mp h).1

theorem Coalesced.right (h : Coalesced (l1 ++ l2)) : Coalesced l2 :=
  (List.isChain_append.mp h).2.1

/-- A used block may stand anywhere. -/
theorem Coalesced.insert_used (h1 : Coalesced l1) (h2 : Coalesced l2) (hb : b.used = true) :
    Coalesced (l1 ++ b :: l2) := by
  refine List.isChain_append.mpr ⟨h1, ?_, ?_⟩
  · refine List.isChain_cons.mpr ⟨fun c _ => .inl hb, h2⟩
  · intro c _ d hd
    obtain rfl : b = d := by simpa using hd
    exact .inr hb

/-- A free block may stand between used blocks. -/
theorem Coalesced.insert_free (h1 : Coalesced l1) (h2 : Coalesced l2) (hu1 : UsedLast l1)
    (hu2 : UsedHead l2) : Coalesced (l1 ++ b :: l2) := by
  refine List.isChain_append.mpr ⟨h1, ?_, ?_⟩
  · exact List.isChain_cons.mpr ⟨fun c hc => .inr (hu2 c hc), h2⟩
  · intro c hc _ _
    exact .inl (hu1 c hc)

end Around

/-! ## The words an allocator may write -/

section Writable

variable {a e x y w : Nat} {bs l1 l2 : List Blk}

/-- The headers of used blocks, and the free blocks. -/
def Writable (bs : List Blk) (w : Nat) : Prop :=
  ∃ b ∈ bs, if b.used then w = b.addr ∨ w = b.addr + 4 else b.addr ≤ w ∧ w < b.addr + b.size

theorem Writable.mono (h : Writable l1 w) (hs : ∀ b ∈ l1, b ∈ bs) : Writable bs w := by
  obtain ⟨b, hb, hw⟩ := h
  exact ⟨b, hs b hb, hw⟩

/-- The link of the last free block. -/
theorem writable_lastFree {q : Nat} (h : Tiled a l1 x) (hne : lastFree q l1 ≠ q) :
    Writable l1 (lastFree q l1) := by
  induction l1 generalizing a q with
  | nil => exact absurd rfl hne
  | cons b l1 ih =>
    obtain ⟨h1, h2, _, h4⟩ := h
    simp only [lastFree] at hne ⊢
    by_cases hq : lastFree (if b.used then q else b.addr) l1 = if b.used then q else b.addr
    · rw [hq] at hne ⊢
      refine ⟨b, by simp, ?_⟩
      by_cases hb : b.used
      · simp [hb] at hne
      · simp only [hb, Bool.false_eq_true, if_false]
        omega
    · exact (ih h4 hq).mono fun c hc => by simp [hc]

/-- The link of the used block before an edit. -/
theorem UsedLast.writable (hu : UsedLast l1) (hne : l1 ≠ []) : Writable l1 (lastNext 0 l1) := by
  rcases List.eq_nil_or_concat l1 with rfl | ⟨k, b, rfl⟩
  · exact absurd rfl hne
  · rw [List.concat_eq_append] at hu ⊢
    have hb : b.used = true := hu b (by simp)
    refine ⟨b, by simp, ?_⟩
    rw [lastNext_concat, if_pos hb]
    simp [Blk.nextWord, hb]

/-- The link of the used block after an edit. -/
theorem UsedHead.writable (hu : UsedHead l2) {c : Blk} (hc : c ∈ l2.head?) :
    Writable l2 c.prevWord := by
  have hb : c.used = true := hu c hc
  refine ⟨c, List.mem_of_mem_head? hc, ?_⟩
  rw [if_pos hb]
  simp [Blk.prevWord, hb]

end Writable

end Blocks
