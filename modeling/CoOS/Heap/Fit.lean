/-
  Which block `CoKmalloc` serves, and which sizes it serves honestly.

  Proved:
  * `first_fit_complete`: for every heap with a representation and every size that does not
    wrap, `Co_NULL` exactly when no free block is large enough, otherwise the payload of the
    lowest free block that is, which is carved in place.
  * `kmalloc_honest`: in every run, the bytes asked for lie in a block of the heap of their own,
    for exactly the sizes that do not wrap when the header is added, or without a free block.
    A size from `2 ^ 32 - 11` on becomes 0, 4 or 8 bytes (`blockSize_wraps`), which every free
    block has.
-/
import CoOS.Heap.Run

namespace CoOS

open Function (update)
open Word32 Blocks

/-! ## First fit -/

section FirstFit

variable {cfg : KheapCfg} {h : Heap} {bs l1 l2 : List Blk} {f : Blk} {size : Nat}

theorem freeAddrs_carve (f : Blk) (size : Nat) :
    freeAddrs (carve f size) = if f.size - size < 12 then [] else [f.addr + size] := by
  unfold carve
  split <;> rfl

/-- A block that is large enough and follows no other one has the lowest address of them. -/
theorem HeapRep.lowest (hr : HeapRep cfg h (l1 ++ f :: l2)) (hno : NoFit size l1) {g : Blk}
    (hg : g ∈ l1 ++ f :: l2) (hgf : g.used = false) (hgs : size ≤ g.size) : f.addr ≤ g.addr := by
  obtain ⟨-, -, t3, t4⟩ := hr.tiled.split
  have hf := hr.addr (b := f) (by simp)
  rcases List.mem_append.mp hg with hm | hm
  · have hlt := hno g hm hgf
    omega
  · rcases List.mem_cons.mp hm with rfl | hm
    · exact le_refl _
    · have hge := t4.mem (by omega) hm
      omega

/-- **First fit.** `Co_NULL`, and the heap as it was, exactly when every free block is too small;
    otherwise the payload of the lowest block that is not, which is carved where it stands, and
    keeps its place in the chain of the free blocks as long as something is left of it. -/
theorem first_fit_complete (hr : HeapRep cfg h bs) (h0 : size ≠ 0) (hs : need size < 2 ^ 32) :
    ∃ h' p, coKmalloc h size = some (h', p) ∧
      (p = 0 ↔ ∀ b ∈ bs, b.used = false → b.size < need size) ∧
      (p = 0 → h' = h) ∧
      (p ≠ 0 → ∃ l1 f l2, bs = l1 ++ f :: l2 ∧ f.used = false ∧ need size ≤ f.size ∧
        (∀ g ∈ bs, g.used = false → need size ≤ g.size → f.addr ≤ g.addr) ∧ p = f.addr + 8 ∧
        HeapRep cfg h' (l1 ++ (carve f (need size) ++ l2)) ∧
        DList.IsSList (toPtr h'.FMBlist) (fun p => toPtr (h'.nextFMB p))
          (freeAddrs l1 ++ ((if f.size - need size < 12 then [] else [f.addr + need size]) ++
            freeAddrs l2))) := by
  rcases coKmalloc_spec hr h0 hs with ⟨h1, h2⟩ | ⟨l1, f, l2, h', rfl, hf, hno, hfit, e, hr', -⟩
  · exact ⟨h, 0, h2, ⟨fun _ => h1, fun _ => rfl⟩, fun _ => rfl, fun hne => absurd rfl hne⟩
  · have hne : f.addr + 8 ≠ 0 := Nat.succ_ne_zero _
    refine ⟨h', f.addr + 8, e, ⟨fun hz => absurd hz hne, fun hall => ?_⟩, fun hz => absurd hz hne,
      fun _ => ?_⟩
    · have hlt := hall f (by simp) hf
      omega
    · refine ⟨l1, f, l2, rfl, hf, hfit, fun g hg => hr.lowest hno hg, rfl, hr', ?_⟩
      have hl := hr'.freeList
      rwa [freeAddrs_append, freeAddrs_append, freeAddrs_carve] at hl

/-- The first free block has 20 bytes, too few for 30: the one behind the used block is taken. -/
theorem first_fit_complete_shipped : ∃ s bs h', HeapReach shippedKheap (fun _ => 0) s ∧
    HeapRep shippedKheap s.heap bs ∧ s.heap.FMBlist = 0x20000000 ∧
    coKmalloc s.heap 30 = some (h', 0x20000030) ∧ ∃ f ∈ bs, f.used = false ∧ f.addr = 0x20000028 ∧
      ∀ g ∈ bs, g.used = false → need 30 ≤ g.size → f.addr ≤ g.addr := by
  obtain ⟨a, b, s, ha, hb, hs, hl, -, hf, hm⟩ := shippedKheap_hole
  have hr : HeapReach shippedKheap (fun _ => 0) s := by
    refine @HeapReach.step _ _ _ _ (.free 0x20000008) (@HeapReach.step _ _ _ _ (.malloc 10)
      (@HeapReach.step _ _ _ _ (.malloc 10) .create ?_ ha) ?_ hb) ?_ hs
    · exact ⟨by decide, by decide⟩
    · exact ⟨by decide, by decide⟩
    · exact fun e => nomatch hl.symm.trans e
  obtain ⟨bs, hi, -⟩ := heapReach_inv hr
  obtain ⟨h', p, e, -, -, hp⟩ := first_fit_complete hi (show 30 ≠ 0 by decide) (by decide)
  rw [e] at hm
  obtain rfl : p = 0x20000030 := Option.some.inj hm
  obtain ⟨l1, f, l2, rfl, hfree, -, hlow, hadr, -⟩ := hp (by decide)
  exact ⟨s, _, h', hr, hi, hf, e, f, by simp, hfree, by omega, hlow⟩

end FirstFit

/-! ## Sizes that wrap -/

section Wrap

variable {cfg : KheapCfg} {h : Heap} {bs : List Blk} {size : Nat}

theorem need_lt_iff : need size < 2 ^ 32 ↔ size + 12 ≤ 2 ^ 32 := by
  unfold need
  omega

/-- Rounding or the header wraps, and next to nothing is left of the size. -/
theorem blockSize_wraps (h32 : size < 2 ^ 32) (hs : 2 ^ 32 < size + 12) : blockSize size ≤ 8 := by
  unfold blockSize add32
  rw [Nat.shiftRight_eq_div_pow, Nat.shiftLeft_eq]
  omega

theorem coKmalloc_full (hz : h.FMBlist = 0) : coKmalloc h size = some (h, 0) := by
  unfold coKmalloc
  rw [hz, kmallocLoop, if_pos rfl]
  split <;> rfl

/-- Then the first free block is taken, whatever its size. -/
theorem HeapRep.malloc_wraps (hr : HeapRep cfg h bs) (h32 : size < 2 ^ 32) (hs : 2 ^ 32 < size + 12)
    (hf : h.FMBlist ≠ 0) : ∃ h', coKmalloc h size = some (h', h.FMBlist + 8) ∧ 4 ≤ h.FMBlist := by
  have hsmall := blockSize_wraps h32 hs
  have hfirst := hr.first
  rcases split_firstFree bs with hu | ⟨m, f, k, rfl, hm, hff⟩
  · rw [firstFree_used hu] at hfirst
    exact absurd hfirst hf
  · rw [firstFree_append, firstFree_used hm, firstFree, if_neg (by rw [hff]; decide)] at hfirst
    have ha := hr.addr (b := f) (by simp)
    have hbd := hr.bounds
    refine ⟨assignIn h f.addr 0 (blockSize size), ?_, by omega⟩
    unfold coKmalloc
    rw [if_neg (by omega), kmallocLoop, if_neg hf, hfirst, freeSize_eq hr hff, if_pos (by omega),
      add32_of_lt (by omega)]

end Wrap

/-! ## Honest service -/

/-- A call of a run: a size that does not wrap, or any size while there is no free block, the
    payload of a live allocation, a word of a live payload. -/
def HeapOp.Served (s : HeapSt) : HeapOp → Prop
  | .malloc size => size < 2 ^ 32 ∧ (size + 12 ≤ 2 ^ 32 ∨ s.heap.FMBlist = 0)
  | op => op.Valid s

/-- The states of the runs of such calls. -/
inductive HeapRun (cfg : KheapCfg) (mem : Nat → Nat) : HeapSt → Prop
  | create : HeapRun cfg mem ⟨coCreateKheap cfg mem, fun _ => none⟩
  | step {s s' : HeapSt} {op : HeapOp} : HeapRun cfg mem s → op.Served s →
      heapStep s op = some s' → HeapRun cfg mem s'

/-- What `CoKmalloc` promises: a null pointer and the heap as it was, or `size` bytes inside the
    heap and inside one used block that no other block of the heap overlaps. -/
def Honest (cfg : KheapCfg) (s : HeapSt) (size : Nat) : Prop :=
  ∃ h' p, coKmalloc s.heap size = some (h', p) ∧ (p = 0 → h' = s.heap) ∧
    (p ≠ 0 → cfg.KernelHeap ≤ p ∧ p + size ≤ cfg.KernelHeap + cfg.KHEAP_SIZE * 4 ∧
      ∃ bs b, HeapOk cfg ⟨h', update s.live p (some size)⟩ bs ∧ b ∈ bs ∧ b.used = true ∧
        b.addr ≤ p ∧ p + size ≤ b.addr + b.size ∧
        ∀ c ∈ bs, c ≠ b → c.addr + c.size ≤ b.addr ∨ b.addr + b.size ≤ c.addr)

section Service

variable {cfg : KheapCfg} {mem : Nat → Nat} {s s' : HeapSt} {bs : List Blk} {size : Nat}

/-- The calls that a valid run does not make leave everything as it was. -/
theorem HeapRun.reach (hr : HeapRun cfg mem s) : HeapReach cfg mem s := by
  induction hr with
  | create => exact HeapReach.create
  | @step s s' op _ hv e ih =>
    cases op with
    | malloc size =>
      have hstay : size = 0 ∨ s.heap.FMBlist = 0 → coKmalloc s.heap size = some (s.heap, 0) := by
        rintro (rfl | hz)
        · rfl
        · exact coKmalloc_full hz
      by_cases hq : size = 0 ∨ s.heap.FMBlist = 0
      · rw [heapStep, hstay hq] at e
        cases e
        exact ih
      · obtain ⟨h0, hz⟩ := not_or.mp hq
        have hvalid : (HeapOp.malloc size).Valid s := ⟨h0, need_lt_iff.mpr (hv.2.resolve_right hz)⟩
        exact HeapReach.step ih hvalid e
    | free p => exact HeapReach.step ih (show (HeapOp.free p).Valid s from hv) e
    | write a v => exact HeapReach.step ih (show (HeapOp.write a v).Valid s from hv) e

theorem HeapInv.honest (hi : HeapInv cfg s bs) (h0 : size ≠ 0) (hs : need size < 2 ^ 32) :
    Honest cfg s size := by
  obtain ⟨s', bs', e, hi', -⟩ := hi.malloc h0 hs
  obtain ⟨⟨h', p⟩, e1, e2⟩ := Option.bind_eq_some_iff.mp e
  cases e2
  refine ⟨h', p, e1, fun hz => ?_, fun hp => ?_⟩
  · rcases coKmalloc_spec hi.1 h0 hs with ⟨-, e3⟩ | ⟨_, f, _, _, -, -, -, -, e3, -⟩
    · rw [e3] at e1
      cases e1
      rfl
    · rw [e3] at e1
      cases e1
      exact absurd hz (Nat.succ_ne_zero _)
  · rw [if_neg hp] at hi'
    obtain ⟨b, hb, hu, rfl⟩ := hi'.2.live p size (Function.update_self ..)
    obtain ⟨n, hn, hsz⟩ := hi'.2.used b hb hu
    have hself : update s.live (b.addr + 8) (some size) (b.addr + 8) = some size :=
      Function.update_self ..
    obtain rfl : size = n := Option.some.inj (hself.symm.trans hn)
    have ha := hi'.1.addr hb
    have hend := (hi'.1.tiled.mem hi'.1.bounds.2.1 hb).2.1
    have h1 := hi'.1.startAddr
    have h2 := hi'.1.endAddr
    refine ⟨by omega, by omega, bs', b, hi'.ok, hb, hu, by omega, by omega, fun c hc hne => ?_⟩
    rcases hi'.1.tiled.disjoint hi'.1.bounds.2.1 hc hb with he | hl | hg
    · exact absurd he hne
    · exact Or.inl hl
    · exact Or.inr hg

/-- **Honest service.** In every run, exactly the sizes that do not wrap, and any size while the
    heap is full. -/
theorem kmalloc_honest (hr : HeapRun cfg mem s) (h0 : size ≠ 0) (h32 : size < 2 ^ 32) :
    Honest cfg s size ↔ size + 12 ≤ 2 ^ 32 ∨ s.heap.FMBlist = 0 := by
  obtain ⟨bs, hi⟩ := heapReach_inv hr.reach
  constructor
  · rintro ⟨h', p, e, -, hin⟩
    by_contra hno
    obtain ⟨hw, hf⟩ := not_or.mp hno
    obtain ⟨h1, e1, hlow⟩ := hi.1.malloc_wraps h32 (by omega) hf
    obtain rfl : s.heap.FMBlist + 8 = p := congrArg Prod.snd (Option.some.inj (e1.symm.trans e))
    obtain ⟨-, hend, -⟩ := hin (Nat.succ_ne_zero _)
    have hfits := cfg.fits
    omega
  · rintro (hs | hz)
    · exact hi.honest h0 (need_lt_iff.mpr hs)
    · exact ⟨s.heap, 0, coKmalloc_full hz, fun _ => rfl, fun hne => absurd rfl hne⟩

theorem kmalloc_honest_shipped :
    ∃ s, HeapRun shippedKheap (fun _ => 0) s ∧ s.live 0x2000001C = some 10 ∧
    s.heap.FMBlist = 0x20000000 ∧ Honest shippedKheap s 30 := by
  obtain ⟨a, b, s, ha, hb, hs, hl, hl', hf, -⟩ := shippedKheap_hole
  have hr : HeapRun shippedKheap (fun _ => 0) s := by
    refine @HeapRun.step _ _ _ _ (.free 0x20000008) (@HeapRun.step _ _ _ _ (.malloc 10)
      (@HeapRun.step _ _ _ _ (.malloc 10) .create ?_ ha) ?_ hb) ?_ hs
    · exact ⟨by decide, Or.inl (by decide)⟩
    · exact ⟨by decide, Or.inl (by decide)⟩
    · exact fun e => nomatch hl.symm.trans e
  exact ⟨s, hr, hl', hf, (kmalloc_honest hr (by decide) (by decide)).mpr (Or.inl (by decide))⟩

/-- The whole address space is asked of a new heap of 200 bytes: the request wraps to a block of 8
    bytes, and the heap gives a pointer behind which it does not have them. -/
theorem kmalloc_dishonest :
    (coKmalloc (coCreateKheap shippedKheap fun _ => 0) (2 ^ 32 - 1)).map Prod.snd =
      some 0x20000008 ∧
    ¬ Honest shippedKheap ⟨coCreateKheap shippedKheap fun _ => 0, fun _ => none⟩ (2 ^ 32 - 1) := by
  have e : (coKmalloc (coCreateKheap shippedKheap fun _ => 0) (2 ^ 32 - 1)).map Prod.snd =
    some 0x20000008 := rfl
  refine ⟨e, ?_⟩
  rintro ⟨h', p, e1, -, hin⟩
  have hp : p = 0x20000008 := by
    rw [show coKmalloc (coCreateKheap shippedKheap fun _ => 0) (2 ^ 32 - 1) = some (h',
      p) from e1] at e
    exact Option.some.inj e
  subst hp
  obtain ⟨-, hend, -⟩ := hin (by decide)
  exact absurd hend (by decide)

end Service

end CoOS
