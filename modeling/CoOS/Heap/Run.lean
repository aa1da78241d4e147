/-
  Runs of the kernel heap. A run starts with `CoCreateKheap` over any memory and continues
  with calls of `CoKmalloc` and `CoKfree` in any order, between which the owners of the live
  allocations may write into their payloads. `live p = some n` says that the allocation with
  payload `p` is live and that `n` bytes were asked for.

  Proved, for every run:
  * `kheap_coherent`: the representation invariant of the heap (`HeapOk`), that the calls
    end and that the search of `CoKfree` finds every live block, and that the heap without
    live allocations is the one free block that `CoCreateKheap` built.
  * `kheap_frame`: a call writes only used headers, free blocks and the block it releases,
    so the payloads of the other live allocations are kept.
-/
import CoOS.Heap.Free
import CoOS.Lib.DList

namespace CoOS

open Function (update)
open Word32 Blocks

/-! ## Calls and runs -/

inductive HeapOp where
  | malloc (size : Nat)
  | free (memBuf : Nat)
  | write (a v : Nat)

/-- The heap and the live allocations. -/
structure HeapSt where
  heap : Heap
  live : Nat → Option Nat

/-- Valid calls: a nonzero size that does not wrap when it is rounded and the header is added,
    the payload of a live allocation, a word of a live payload. -/
def HeapOp.Valid (s : HeapSt) : HeapOp → Prop
  | .malloc size => size ≠ 0 ∧ need size < 2 ^ 32
  | .free p => s.live p ≠ none
  | .write a _ => a % 4 = 0 ∧ ∃ p n, s.live p = some n ∧ p ≤ a ∧ a < p + n

def heapStep (s : HeapSt) : HeapOp → Option HeapSt
  | .malloc size => do
    let (h, p) ← coKmalloc s.heap size
    some ⟨h, if p = 0 then s.live else update s.live p (some size)⟩
  | .free p => do
    let h ← coKfree s.heap p
    some ⟨h, update s.live p none⟩
  | .write a v => some ⟨s.heap.store a v, s.live⟩

/-- The states of the runs over `mem`. -/
inductive HeapReach (cfg : KheapCfg) (mem : Nat → Nat) : HeapSt → Prop
  | create : HeapReach cfg mem ⟨coCreateKheap cfg mem, fun _ => none⟩
  | step {s s' : HeapSt} {op : HeapOp} : HeapReach cfg mem s → op.Valid s →
      heapStep s op = some s' → HeapReach cfg mem s'

/-! ## The invariant -/

/-- The used blocks are those of the live allocations, each large enough. -/
structure LiveBlocks (live : Nat → Option Nat) (bs : List Blk) : Prop where
  used : ∀ b ∈ bs, b.used = true → ∃ n, live (b.addr + 8) = some n ∧ n + 8 ≤ b.size
  live : ∀ p n, live p = some n → ∃ b ∈ bs, b.used = true ∧ p = b.addr + 8

/-- The invariant of a run. -/
def HeapInv (cfg : KheapCfg) (s : HeapSt) (bs : List Blk) : Prop :=
  HeapRep cfg s.heap bs ∧ LiveBlocks s.live bs

section Steps

variable {cfg : KheapCfg} {s : HeapSt} {bs : List Blk}

theorem HeapRep.addr_inj {h : Heap} {b c : Blk} (hr : HeapRep cfg h bs) (hb : b ∈ bs)
    (hc : c ∈ bs) (he : b.addr = c.addr) : b = c := by
  have h1 := hr.addr hb
  have h2 := hr.addr hc
  rcases hr.tiled.disjoint hr.bounds.2.1 hb hc with h | h | h
  · exact h
  · omega
  · omega

theorem mem_carve {f b : Blk} {size : Nat} (hs : size ≤ f.size) (hb : b ∈ carve f size)
    (hu : b.used = true) : b.addr = f.addr ∧ size ≤ b.size := by
  unfold carve at hb
  split at hb
  · obtain rfl := List.mem_singleton.mp hb
    exact ⟨rfl, hs⟩
  · simp only [List.mem_cons, List.not_mem_nil, or_false] at hb
    rcases hb with rfl | rfl
    · exact ⟨rfl, le_refl _⟩
    · simp at hu

/-- `CoKmalloc` keeps the invariant. -/
theorem HeapInv.malloc {size : Nat} (hi : HeapInv cfg s bs) (h0 : size ≠ 0)
    (hs : need size < 2 ^ 32) :
    ∃ s' bs', heapStep s (.malloc size) = some s' ∧ HeapInv cfg s' bs' ∧
      ∀ w, ¬ Writable bs w → s'.heap.mem w = s.heap.mem w := by
  obtain ⟨hr, hl⟩ := hi
  obtain ⟨-, -, hn⟩ := need_bounds h0
  rcases coKmalloc_spec hr h0 hs with ⟨-, h2⟩ | ⟨l1, f, l2, h', rfl, hf, -, h4, h5, h6, h7⟩
  · refine ⟨s, bs, ?_, ⟨hr, hl⟩, fun _ _ => rfl⟩
    simp [heapStep, h2]
  · have hpos := hr.addr (b := f) (by simp)
    refine ⟨⟨h', update s.live (f.addr + 8) (some size)⟩, _, ?_, ⟨h6, ?_, ?_⟩, h7⟩
    · simp [heapStep, h5]
    · intro b hb hu
      by_cases hbf : b.addr = f.addr
      · have hbc : b ∈ carve f (need size) := by
          simp only [List.mem_append] at hb
          rcases hb with hb | hb | hb
          · have := hr.addr_inj (b := b) (c := f) (by simp [hb]) (by simp) hbf
            simp [this, hf] at hu
          · exact hb
          · have := hr.addr_inj (b := b) (c := f) (by simp [hb]) (by simp) hbf
            simp [this, hf] at hu
        have hsz := (mem_carve h4 hbc hu).2
        exact ⟨size, by simp [hbf], by omega⟩
      · have hold : b ∈ l1 ++ f :: l2 := by
          simp only [List.mem_append] at hb
          rcases hb with hb | hb | hb
          · simp [hb]
          · exact absurd (mem_carve h4 hb hu).1 hbf
          · simp [hb]
        have hne : b.addr + 8 ≠ f.addr + 8 := by omega
        simpa [Function.update_of_ne hne] using hl.used b hold hu
    · intro p n hp
      by_cases hpf : p = f.addr + 8
      · subst hpf
        unfold carve
        split
        · exact ⟨⟨f.addr, f.size, true⟩, by simp, rfl, rfl⟩
        · exact ⟨⟨f.addr, need size, true⟩, by simp, rfl, rfl⟩
      · simp only [Function.update_of_ne hpf] at hp
        obtain ⟨b, hb, hu, he⟩ := hl.live p n hp
        refine ⟨b, ?_, hu, he⟩
        simp only [List.mem_append, List.mem_cons] at hb ⊢
        rcases hb with hb | rfl | hb
        · exact .inl hb
        · simp [hf] at hu
        · exact .inr (.inr hb)

/-- `CoKfree` keeps the invariant. -/
theorem HeapInv.free {p : Nat} (hi : HeapInv cfg s bs) (hp : s.live p ≠ none) :
    ∃ s' bs' b, heapStep s (.free p) = some s' ∧ HeapInv cfg s' bs' ∧ b ∈ bs ∧
      p = b.addr + 8 ∧ s'.live = update s.live p none ∧
      ∀ w, ¬ Writable bs w → w < b.addr ∨ b.addr + b.size ≤ w →
        s'.heap.mem w = s.heap.mem w := by
  obtain ⟨hr, hl⟩ := hi
  obtain ⟨n, hn⟩ := Option.ne_none_iff_exists'.mp hp
  obtain ⟨u, hu, hused, rfl⟩ := hl.live p n hn
  obtain ⟨l1, l2, rfl⟩ := List.append_of_mem hu
  obtain ⟨h', bs', h1, h2, h3, h4⟩ := coKfree_spec hr hused
  have hnd : ∀ b ∈ l1 ++ l2, b.addr ≠ u.addr := by
    obtain ⟨t1, t2, t3, t4⟩ := hr.tiled.split
    have hal := hr.bounds.2.1
    have hal' := t1.aligned hal
    intro b hb
    rcases List.mem_append.mp hb with hb | hb
    · have := t1.mem hal hb
      omega
    · have := t4.mem (by omega) hb
      omega
  have hmem : ∀ b, b ∈ bs' ∧ b.used = true ↔ b ∈ l1 ++ l2 ∧ b.used = true := by
    intro b
    rw [← mem_usedBlocks, h3, List.mem_append, mem_usedBlocks, mem_usedBlocks, List.mem_append]
    tauto
  refine ⟨⟨h', update s.live (u.addr + 8) none⟩, bs', u, ?_, ⟨h2, ?_, ?_⟩, by simp, rfl, rfl, h4⟩
  · simp [heapStep, h1]
  · intro b hb hbu
    obtain ⟨hb', -⟩ := (hmem b).mp ⟨hb, hbu⟩
    have hne : b.addr + 8 ≠ u.addr + 8 := by
      have := hnd b hb'
      omega
    have hold : b ∈ l1 ++ u :: l2 := by
      simp only [List.mem_append, List.mem_cons] at hb' ⊢
      exact hb'.imp_right .inr
    simpa [Function.update_of_ne hne] using hl.used b hold hbu
  · intro p m hm
    have hpu : p ≠ u.addr + 8 := by
      intro he
      simp [he] at hm
    simp only [Function.update_of_ne hpu] at hm
    obtain ⟨b, hb, hbu, he⟩ := hl.live p m hm
    refine ⟨b, ((hmem b).mpr ⟨?_, hbu⟩).1, hbu, he⟩
    simp only [List.mem_append, List.mem_cons] at hb ⊢
    rcases hb with hb | rfl | hb
    · exact .inl hb
    · exact absurd he hpu
    · exact .inr hb

/-- A write into a live payload keeps the invariant. -/
theorem HeapInv.write {a v : Nat} (hi : HeapInv cfg s bs) (hv : (HeapOp.write a v).Valid s) :
    HeapInv cfg ⟨s.heap.store a v, s.live⟩ bs := by
  obtain ⟨hr, hl⟩ := hi
  obtain ⟨-, p, n, hp, h1, h2⟩ := hv
  obtain ⟨b, hb, hu, rfl⟩ := hl.live p n hp
  obtain ⟨m, hm, hsz⟩ := hl.used b hb hu
  obtain rfl : n = m := by simpa [hp] using hm
  obtain ⟨l1, l2, rfl⟩ := List.append_of_mem hb
  obtain ⟨t1, t2, t3, t4⟩ := hr.tiled.split
  obtain ⟨d1, ⟨d2, d3, -⟩, d5⟩ := hdrs_append.mp hr.hdrs
  -- the word lies in the payload, so every header is kept
  have hst : ∀ w, w ≠ a → (s.heap.store a v).mem w = s.heap.mem w := by
    intro w hw
    rw [Heap.store_mem, if_neg hw]
  have hbn : b.nextWord = b.addr := by simp [Blk.nextWord, hu]
  have hbp : b.prevWord = b.addr + 4 := by simp [Blk.prevWord, hu]
  refine ⟨⟨hr.startAddr, hr.endAddr, hr.tiled, hr.coalesced, ?_, hr.first⟩, hl⟩
  refine hdrs_append.mpr ⟨d1.congr t1 fun w _ hw => hst w (by omega), ⟨?_, ?_, ?_⟩,
    d5.congr t4 fun w hw _ => hst w (by omega)⟩
  · rw [hst _ (by omega), d2]
  · rw [hst _ (by omega), d3]
  · intro hf
    simp [hu] at hf

end Steps

/-- Every state of a run satisfies the invariant. -/
theorem heapReach_inv {cfg : KheapCfg} {mem : Nat → Nat} {s : HeapSt}
    (hr : HeapReach cfg mem s) : ∃ bs, HeapInv cfg s bs := by
  induction hr with
  | create =>
    refine ⟨_, heapRep_create cfg mem, ?_, ?_⟩
    · intro b hb hu
      obtain rfl := List.mem_singleton.mp hb
      simp [wholeHeap] at hu
    · intro p n hp
      simp at hp
  | step _ hv hs ih =>
    rename_i s s' op _
    obtain ⟨bs, hi⟩ := ih
    cases op with
    | malloc size =>
      obtain ⟨s1, bs', h1, h2, -⟩ := hi.malloc hv.1 hv.2
      obtain rfl : s1 = s' := by simpa [h1] using hs
      exact ⟨bs', h2⟩
    | free p =>
      obtain ⟨s1, bs', b, h1, h2, -⟩ := hi.free hv
      obtain rfl : s1 = s' := by simpa [h1] using hs
      exact ⟨bs', h2⟩
    | write a v =>
      obtain rfl : (⟨s.heap.store a v, s.live⟩ : HeapSt) = s' := by simpa [heapStep] using hs
      exact ⟨bs, hi.write hv⟩

/-! ## The heap read by its headers -/

/-- How a header names a neighbour: the low bit is set when it is used, and `0` is an end. -/
def neighbour : Option Blk → Nat
  | none => 0
  | some b => if b.used then b.addr + 1 else b.addr

/-- A pointer, `0` being `Co_NULL`. -/
def toPtr (p : Nat) : Option Nat := if p = 0 then none else some p

/-- The addresses of the free blocks. -/
def freeAddrs (bs : List Blk) : List Nat := (bs.filter (fun b => !b.used)).map (fun b => b.addr)

/-- The representation invariant: the blocks partition the heap in order of address, no two
    free ones are adjacent, `nextFMB` links exactly the free blocks from `FMBlist`, the headers
    name the true neighbours, and the live payloads lie in used blocks, apart. -/
structure HeapOk (cfg : KheapCfg) (s : HeapSt) (bs : List Blk) : Prop where
  partition : Tiled cfg.KernelHeap bs (cfg.KernelHeap + cfg.KHEAP_SIZE * 4)
  coalesced : Coalesced bs
  freeList : DList.IsSList (toPtr s.heap.FMBlist) (fun p => toPtr (s.heap.nextFMB p)) (freeAddrs bs)
  usedHdr : ∀ l1 b l2, bs = l1 ++ b :: l2 → b.used = true →
    s.heap.nextMB b.addr = neighbour l2.head? ∧ s.heap.preMB b.addr = neighbour l1.getLast?
  freeHdr : ∀ l1 b l2, bs = l1 ++ b :: l2 → b.used = false →
    s.heap.nextUMB b.addr = neighbour l2.head? ∧ s.heap.preUMB b.addr = neighbour l1.getLast?
  live : LiveBlocks s.live bs
  disjoint : ∀ p n p' n', s.live p = some n → s.live p' = some n' → p ≠ p' →
    p + n ≤ p' ∨ p' + n' ≤ p

section Reading

variable {cfg : KheapCfg} {s : HeapSt} {bs : List Blk}

theorem headTag_eq (l : List Blk) : headTag l 0 = neighbour l.head? := by
  cases l <;> rfl

theorem lastTag_eq (l : List Blk) : lastTag 0 l = neighbour l.getLast? := by
  rcases List.eq_nil_or_concat l with rfl | ⟨k, b, rfl⟩
  · rfl
  · rw [List.concat_eq_append, lastTag_concat, List.getLast?_concat]
    rfl

theorem freeAddrs_append (l1 l2 : List Blk) :
    freeAddrs (l1 ++ l2) = freeAddrs l1 ++ freeAddrs l2 := by
  simp [freeAddrs]

theorem toPtr_firstFree {a e : Nat} (h : Tiled a bs e) (ha : 0 < a) :
    toPtr (firstFree bs 0) = (freeAddrs bs).head? := by
  induction bs generalizing a with
  | nil => rfl
  | cons b bs ih =>
    obtain ⟨h1, h2, _, h4⟩ := h
    by_cases hb : b.used = true
    · simpa [firstFree, freeAddrs, hb] using ih h4 (by omega)
    · have hpos : b.addr ≠ 0 := by omega
      simp [firstFree, freeAddrs, hb, toPtr, hpos]

theorem nodup_freeAddrs {a e : Nat} (h : Tiled a bs e) (ha : a % 4 = 0) :
    (freeAddrs bs).Nodup := by
  induction bs generalizing a with
  | nil => exact List.nodup_nil
  | cons b bs ih =>
    obtain ⟨h1, h2, h3, h4⟩ := h
    have hih := ih h4 (by omega)
    by_cases hb : b.used = true
    · simpa [freeAddrs, hb] using hih
    · have hcons : freeAddrs (b :: bs) = b.addr :: freeAddrs bs := by simp [freeAddrs, hb]
      rw [hcons, List.nodup_cons]
      refine ⟨fun hmem => ?_, hih⟩
      obtain ⟨c, hc, he⟩ := List.mem_map.mp hmem
      have := h4.mem (by omega) (List.mem_filter.mp hc).1
      omega

/-- The free list. -/
theorem HeapRep.freeList {h : Heap} (hr : HeapRep cfg h bs) :
    DList.IsSList (toPtr h.FMBlist) (fun p => toPtr (h.nextFMB p)) (freeAddrs bs) := by
  have hbd := hr.bounds
  have hnd := nodup_freeAddrs hr.tiled hbd.2.1
  refine ⟨by rw [hr.first, toPtr_firstFree hr.tiled hbd.1], hnd, fun p hp => ?_⟩
  obtain ⟨b, hb, rfl⟩ := List.mem_map.mp hp
  obtain ⟨hb, hf⟩ := List.mem_filter.mp hb
  have hf : b.used = false := by simpa using hf
  obtain ⟨l1, l2, rfl⟩ := List.append_of_mem hb
  obtain ⟨-, t1, -, t2⟩ := hr.tiled.split
  have hcons : freeAddrs (b :: l2) = b.addr :: freeAddrs l2 := by simp [freeAddrs, hf]
  rw [freeAddrs_append, hcons] at hnd ⊢
  show toPtr (h.nextFMB b.addr) = _
  rw [DList.nextIn_split (DList.nodup_split_left hnd), (hr.free_words hf).1,
    toPtr_firstFree t2 (by omega)]

theorem HeapInv.ok (hi : HeapInv cfg s bs) : HeapOk cfg s bs := by
  obtain ⟨hr, hl⟩ := hi
  refine ⟨?_, hr.coalesced, hr.freeList, ?_, ?_, hl, ?_⟩
  · have ht := hr.tiled
    rw [hr.startAddr, hr.endAddr] at ht
    exact ht
  · intro l1 b l2 he hu
    subst he
    rw [← headTag_eq, ← lastTag_eq]
    exact hr.used_words hu
  · intro l1 b l2 he hu
    subst he
    rw [← headTag_eq, ← lastTag_eq]
    exact (hr.free_words hu).2
  · intro p n p' n' hp hp' hne
    obtain ⟨b, hb, hbu, rfl⟩ := hl.live p n hp
    obtain ⟨c, hc, hcu, rfl⟩ := hl.live p' n' hp'
    obtain ⟨m, hm, hsz⟩ := hl.used b hb hbu
    obtain ⟨m', hm', hsz'⟩ := hl.used c hc hcu
    obtain rfl : n = m := by simpa [hp] using hm
    obtain rfl : n' = m' := by simpa [hp'] using hm'
    rcases hr.tiled.disjoint hr.bounds.2.1 hb hc with rfl | h | h
    · exact absurd rfl hne
    · omega
    · omega

/-- A payload word is not writable. -/
theorem HeapRep.payload_not_writable {h : Heap} {b : Blk} {w : Nat} (hr : HeapRep cfg h bs)
    (hb : b ∈ bs) (hu : b.used = true) (h1 : b.addr + 8 ≤ w) (h2 : w < b.addr + b.size) :
    ¬ Writable bs w := by
  intro hw
  obtain ⟨c, hc, hcw⟩ := hw
  have hsz := hr.addr hc
  rcases hr.tiled.disjoint hr.bounds.2.1 hb hc with rfl | h | h
  · rw [if_pos hu] at hcw
    omega
  · split at hcw <;> omega
  · split at hcw <;> omega

/-- Valid calls end. -/
theorem HeapInv.progress {op : HeapOp} (hi : HeapInv cfg s bs) (hv : op.Valid s) :
    ∃ s', heapStep s op = some s' := by
  cases op with
  | malloc size =>
    obtain ⟨s', _, h1, -⟩ := hi.malloc hv.1 hv.2
    exact ⟨s', h1⟩
  | free p =>
    obtain ⟨s', _, _, h1, -⟩ := hi.free hv
    exact ⟨s', h1⟩
  | write a v => exact ⟨_, rfl⟩

/-- The search of `CoKfree` finds the block of every live payload. -/
theorem HeapInv.found {p : Nat} (hi : HeapInv cfg s bs) (hp : s.live p ≠ none) :
    findUMB s.heap (p - 8) = some true := by
  obtain ⟨hr, hl⟩ := hi
  obtain ⟨n, hn⟩ := Option.ne_none_iff_exists'.mp hp
  obtain ⟨u, hu, hused, rfl⟩ := hl.live p n hn
  obtain ⟨l1, l2, rfl⟩ := List.append_of_mem hu
  rw [Nat.add_sub_cancel]
  exact findUMB_spec hr hused

/-- Without live allocations there is one free block. -/
theorem HeapInv.empty (hi : HeapInv cfg s bs) (hl : ∀ p, s.live p = none) :
    bs = [wholeHeap cfg] := by
  obtain ⟨hr, hlb⟩ := hi
  have hbd := hr.bounds
  have hfree : ∀ b ∈ bs, b.used = false := by
    intro b hb
    by_contra hu
    obtain ⟨n, hn, -⟩ := hlb.used b hb (by simpa using hu)
    simp [hl] at hn
  have ht := hr.tiled
  have hco := hr.coalesced
  have h1 := hr.startAddr
  have h2 := hr.endAddr
  match bs, ht, hco, hfree with
  | [], ht, _, _ =>
    have : s.heap.startAddr = s.heap.endAddr := ht
    omega
  | [b], ht, _, hfree =>
    obtain ⟨e1, -, -, e2⟩ := ht
    have e2 : s.heap.startAddr + b.size = s.heap.endAddr := e2
    have e3 := hfree b (by simp)
    obtain ⟨addr, size, used⟩ := b
    simp only at e1 e2 e3
    simp only [wholeHeap, List.cons.injEq, Blk.mk.injEq, and_true]
    exact ⟨by omega, by omega, e3⟩
  | b :: c :: bs, _, hco, hfree =>
    have := (List.isChain_cons_cons.mp hco).1
    simp [hfree b (by simp), hfree c (by simp)] at this

end Reading

/-! ## Results -/

/-- **The kernel heap.** In every state of every run the heap satisfies its representation
    invariant, every valid call ends, the search of `CoKfree` finds the block of every live
    payload, and without live allocations the heap is the free block of `CoCreateKheap`. -/
theorem kheap_coherent (cfg : KheapCfg) (mem : Nat → Nat) (s : HeapSt)
    (hr : HeapReach cfg mem s) :
    ∃ bs, HeapOk cfg s bs ∧
      (∀ op : HeapOp, op.Valid s → ∃ s', heapStep s op = some s') ∧
      (∀ p, s.live p ≠ none → findUMB s.heap (p - 8) = some true) ∧
      ((∀ p, s.live p = none) → bs = [wholeHeap cfg] ∧
        s.heap.FMBlist = (coCreateKheap cfg mem).FMBlist ∧
        ∀ a, a = cfg.KernelHeap ∨ a = cfg.KernelHeap + 4 ∨ a = cfg.KernelHeap + 8 →
          s.heap.mem a = (coCreateKheap cfg mem).mem a) := by
  obtain ⟨bs, hi⟩ := heapReach_inv hr
  refine ⟨bs, hi.ok, fun op hv => hi.progress hv, fun p hp => hi.found hp, fun hl => ?_⟩
  have hbs := hi.empty hl
  subst hbs
  have hc := heapRep_create cfg mem
  have hw : ∀ h : Heap, HeapRep cfg h [wholeHeap cfg] → h.FMBlist = cfg.KernelHeap ∧
      h.mem cfg.KernelHeap = 0 ∧ h.mem (cfg.KernelHeap + 4) = 0 ∧
      h.mem (cfg.KernelHeap + 8) = 0 := by
    intro h hr'
    have hr'' : HeapRep cfg h ([] ++ wholeHeap cfg :: []) := hr'
    exact ⟨hr'.first, hr''.free_words rfl⟩
  obtain ⟨a1, a2, a3, a4⟩ := hw _ hi.1
  obtain ⟨b1, b2, b3, b4⟩ := hw _ hc
  refine ⟨rfl, a1.trans b1.symm, ?_⟩
  rintro a (rfl | rfl | rfl)
  · rw [a2, b2]
  · rw [a3, b3]
  · rw [a4, b4]

/-- The heap of the shipped `OsConfig.h`, at the start of the RAM. -/
def shippedKheap : KheapCfg where
  KernelHeap := 0x20000000
  KHEAP_SIZE := 50
  size_ge := by decide
  aligned := by decide
  pos := by decide
  fits := by decide

/-- The first block, of 10 bytes, in that heap. -/
theorem shippedKheap_first :
    ∃ s, HeapReach shippedKheap (fun _ => 0) s ∧ s.live 0x20000008 = some 10 := by
  refine ⟨_, @HeapReach.step _ _ _ _ (.malloc 10) HeapReach.create ⟨by decide, by decide⟩ rfl, ?_⟩
  rfl

/-- Two blocks of 10 bytes, of which the first has been given back. -/
theorem shippedKheap_hole : ∃ a b c,
    heapStep ⟨coCreateKheap shippedKheap fun _ => 0, fun _ => none⟩ (.malloc 10) = some a ∧
    heapStep a (.malloc 10) = some b ∧ heapStep b (.free 0x20000008) = some c ∧
    b.live 0x20000008 = some 10 ∧ c.live 0x2000001C = some 10 ∧ c.heap.FMBlist = 0x20000000 ∧
    (coKmalloc c.heap 30).map Prod.snd = some 0x20000030 := by
  have h : ((heapStep ⟨coCreateKheap shippedKheap fun _ => 0,
    fun _ => none⟩ (.malloc 10)).bind fun a =>
      (heapStep a (.malloc 10)).bind fun b => (heapStep b (.free 0x20000008)).map fun c =>
        (b.live 0x20000008, c.live 0x2000001C, c.heap.FMBlist,
          (coKmalloc c.heap 30).map Prod.snd)) =
      some (some 10, some 10, 0x20000000, some 0x20000030) := by decide +kernel
  obtain ⟨a, ha, h⟩ := Option.bind_eq_some_iff.mp h
  obtain ⟨b, hb, h⟩ := Option.bind_eq_some_iff.mp h
  obtain ⟨c, hc, h⟩ := Option.map_eq_some_iff.mp h
  obtain ⟨h1, h⟩ := Prod.mk.inj h
  obtain ⟨h2, h⟩ := Prod.mk.inj h
  obtain ⟨h3, h4⟩ := Prod.mk.inj h
  exact ⟨a, b, c, ha, hb, hc, h1, h2, h3, h4⟩

theorem kheap_coherent_shipped :
    ∃ s bs, HeapReach shippedKheap (fun _ => 0) s ∧ s.live 0x20000008 = some 10 ∧
      HeapOk shippedKheap s bs := by
  obtain ⟨s, hr, hl⟩ := shippedKheap_first
  obtain ⟨bs, hok, -⟩ := kheap_coherent shippedKheap _ s hr
  exact ⟨s, bs, hr, hl, hok⟩

/-- **Frame.** A call of `CoKmalloc` or `CoKfree` changes only words of used headers, of free
    blocks and of the released block, and no word of a payload that stays live. -/
theorem kheap_frame (cfg : KheapCfg) (mem : Nat → Nat) (s s' : HeapSt) (op : HeapOp)
    (hr : HeapReach cfg mem s) (hcall : ∀ a v, op ≠ .write a v) (hv : op.Valid s)
    (hs : heapStep s op = some s') :
    ∃ bs, HeapOk cfg s bs ∧
      (∀ w, s'.heap.mem w ≠ s.heap.mem w → Writable bs w ∨
        ∃ b ∈ bs, op = .free (b.addr + 8) ∧ b.addr ≤ w ∧ w < b.addr + b.size) ∧
      (∀ b ∈ bs, b.used = true → s'.live (b.addr + 8) ≠ none →
        ∀ w, b.addr + 8 ≤ w → w < b.addr + b.size → s'.heap.mem w = s.heap.mem w) := by
  obtain ⟨bs, hi⟩ := heapReach_inv hr
  refine ⟨bs, hi.ok, ?_⟩
  cases op with
  | write a v => exact absurd rfl (hcall a v)
  | malloc size =>
    obtain ⟨s1, bs', h1, -, h3⟩ := hi.malloc hv.1 hv.2
    obtain rfl : s1 = s' := by simpa [h1] using hs
    refine ⟨fun w hw => .inl ?_, fun b hb hu _ w hw1 hw2 => ?_⟩
    · by_contra hnw
      exact hw (h3 w hnw)
    · exact h3 w (hi.1.payload_not_writable hb hu hw1 hw2)
  | free p =>
    obtain ⟨s1, bs', u, h1, -, hu, rfl, hlive, h3⟩ := hi.free hv
    obtain rfl : s1 = s' := by simpa [h1] using hs
    refine ⟨fun w hw => ?_, fun b hb hbu hlv w hw1 hw2 => ?_⟩
    · by_cases hnw : Writable bs w
      · exact .inl hnw
      · refine .inr ⟨u, hu, rfl, ?_⟩
        by_contra hout
        exact hw (h3 w hnw (by omega))
    · -- a payload that stays live is not the released one
      have hne : b ≠ u := by
        intro he
        simp [he, hlive] at hlv
      refine h3 w (hi.1.payload_not_writable hb hbu hw1 hw2) ?_
      rcases hi.1.tiled.disjoint hi.1.bounds.2.1 hb hu with he | h | h
      · exact absurd he hne
      · omega
      · omega

theorem kheap_frame_shipped :
    ∃ s s', HeapReach shippedKheap (fun _ => 0) s ∧ s.live 0x20000008 = some 10 ∧
      heapStep s (.malloc 1) = some s' ∧ ∃ bs, HeapOk shippedKheap s bs ∧
      ∀ b ∈ bs, b.used = true → s'.live (b.addr + 8) ≠ none →
        ∀ w, b.addr + 8 ≤ w → w < b.addr + b.size → s'.heap.mem w = s.heap.mem w := by
  obtain ⟨s, hr, hl⟩ := shippedKheap_first
  obtain ⟨bs', hi⟩ := heapReach_inv hr
  have hv : (HeapOp.malloc 1).Valid s := ⟨by decide, by decide⟩
  obtain ⟨s', hs⟩ := hi.progress hv
  obtain ⟨bs, hok, -, hkeep⟩ := kheap_frame shippedKheap _ s s' (.malloc 1) hr (by simp) hv hs
  exact ⟨s, s', hr, hl, hs, bs, hok, hkeep⟩

end CoOS
