/-
  `CoFreeMemoryBuffer` accepts an address that is no block exactly when it is the address behind
  the last block; without such a call nothing outside the partition is ever handed out
  (`free_stays_inside`).
-/
import CoOS.Mem.Conserve

namespace CoOS

open Function (update)
open Word32 DList

/-! ## Any address -/

/-- Partitions over buffers of their own, and frees of any address; nobody writes. -/
def MmOp.Calls (st : MmSt) : MmOp → Prop
  | .create memBuf blockSize blockNum => FreshBuffer st.s memBuf blockSize blockNum
  | .write _ _ => False
  | _ => True

/-- No address is freed that is the one behind the last block. -/
def MmOp.NotBehind (st : MmSt) (op : MmOp) : Prop :=
  op.Calls st ∧ ∀ i buf, op = .free i buf → buf ≠ (st.s.MemoryTbl i).limit

/-- The free chain that starts at `a`. -/
inductive OnChain (mem : Nat → Nat) (a : Nat) : Nat → Prop
  | first : a ≠ 0 → OnChain mem a a
  | next {b : Nat} : OnChain mem a b → mem b ≠ 0 → OnChain mem a (mem b)

/-- The first free block and the words of all blocks point to blocks. -/
structure Inside (st : MmSt) (i : Nat) : Prop where
  ok : (st.s.MemoryTbl i).Ok
  first : (st.s.MemoryTbl i).freeBlock ≠ 0 → (st.s.MemoryTbl i).freeBlock ∈
    (st.s.MemoryTbl i).blocks
  next : ∀ b ∈ (st.s.MemoryTbl i).blocks, st.s.mem b ≠ 0 → st.s.mem b ∈ (st.s.MemoryTbl i).blocks

section Any

variable {cfg : MmCfg} {st st' : MmSt} {i : Nat} {m : MM} {buf : Nat}

theorem MM.Ok.upper (h : m.Ok) :
    add32 m.memAddr (m.blockSize * m.blockNum % 2 ^ 32) =
      if m.limit < 2 ^ 32 then m.limit else 0 := by
  have h1 := h.pos
  have h2 := h.fits
  unfold MM.limit at h2 ⊢
  rw [Nat.mod_eq_of_lt (by omega : m.blockSize * m.blockNum < 2 ^ 32)]
  split
  · next hlt => exact add32_of_lt hlt
  · next hge =>
    unfold add32
    rw [show m.memAddr + m.blockSize * m.blockNum = 2 ^ 32 by omega, Nat.mod_self]

/-- The checks of `CoFreeMemoryBuffer` let through blocks and the address behind the last block. -/
theorem MM.Ok.accepted (h : m.Ok) (hb : ¬ badBuffer m buf) : buf ∈ m.blocks ∨ buf = m.limit := by
  obtain ⟨h0, hlo, hhi, hgrid⟩ : buf ≠ 0 ∧ ¬ buf < m.memAddr ∧
      ¬ add32 m.memAddr (m.blockSize * m.blockNum % 2 ^ 32) < buf ∧
      sub32 buf m.memAddr % m.blockSize = 0 := by
    simpa only [badBuffer, not_or, ne_eq, not_not] using hb
  rw [h.upper] at hhi
  split at hhi
  · next hlt =>
    have hle := Nat.le_of_not_lt hlo
    rw [sub32_of_le (by omega) hle] at hgrid
    obtain ⟨k, hk⟩ := Nat.dvd_of_mod_eq_zero hgrid
    have hbuf : buf = m.memAddr + m.blockSize * k := by omega
    have hkn : k ≤ m.blockNum := by
      refine Nat.le_of_mul_le_mul_left ?_ h.size
      unfold MM.limit at hhi
      omega
    rcases Nat.lt_or_eq_of_le hkn with hlt' | rfl
    · exact Or.inl (mem_blocksFrom.mpr ⟨k, hlt', by rw [hbuf, Nat.mul_comm]⟩)
    · exact Or.inr hbuf
  · omega

theorem MM.Ok.behind_accepted (h : m.Ok) (hlt : m.limit < 2 ^ 32) : ¬ badBuffer m m.limit := by
  have h1 := h.pos
  have hle : m.memAddr ≤ m.limit := Nat.le_add_right ..
  unfold badBuffer
  rw [h.upper, if_pos hlt, sub32_of_le hlt hle]
  refine not_or.mpr ⟨by omega, not_or.mpr ⟨by omega, not_or.mpr ⟨Nat.lt_irrefl _, ?_⟩⟩⟩
  rw [MM.limit, Nat.add_sub_cancel_left, Nat.mul_mod_right]
  exact fun e => e rfl

theorem MM.limit_not_mem (m : MM) (h : m.Ok) : m.limit ∉ m.blocks := fun hb => by
  have := (MM.block_inside hb).2
  have := h.size
  omega

/-- A word of the chain that the words of a new partition hold. -/
theorem slist_inside {l : List Nat} {hd : Option Nat} {mem : Nat → Nat} {b : Nat}
    (h : IsSList hd (fun a => ptr (mem a)) l) (hb : b ∈ l) (hne : mem b ≠ 0) : mem b ∈ l := by
  have := h.next b hb
  rw [ptr_pos (Nat.pos_of_ne_zero hne)] at this
  exact nextIn_mem this.symm

theorem inside_law : PartLaw Inside where
  ok h := h.ok
  congr {st st' i} h ht hh hm := by
    refine ⟨by rw [ht]; exact h.ok, by rw [ht]; exact h.first, fun b hb => ?_⟩
    rw [ht] at hb ⊢
    rw [hm b hb]
    exact h.next b hb
  new {st i} ok hh hl := by
    refine ⟨ok, fun hne => ?_, fun b hb => slist_inside hl hb⟩
    have := hl.head
    rw [ptr_pos (Nat.pos_of_ne_zero hne)] at this
    exact List.mem_of_mem_head? this.symm

theorem ok_law : PartLaw fun st i => (st.s.MemoryTbl i).Ok where
  ok h := h
  congr h ht _ _ := by rwa [ht]
  new ok _ _ := ok

/-- Buffers stay what they are, whatever is freed. -/
theorem Parts.calls (h : Parts (fun st i => (st.s.MemoryTbl i).Ok) st) {op : MmOp}
    (hv : op.Calls st)
    (e : mmStep cfg st op = some st') : Parts (fun st i => (st.s.MemoryTbl i).Ok) st' := by
  have hok : ∀ {i fb mem hl} (j : Nat), st.s.MemoryIDVessel j = true →
      ((st.rechain i fb mem hl).s.MemoryTbl j).Ok := fun {i fb mem hl} j hj => by
    by_cases hji : j = i
    · subst hji
      exact (h.part j hj).rechain
    · rw [rechain_of_ne hji]
      exact h.part j hj
  cases op with
  | create memBuf blockSize blockNum => exact h.create ok_law hv e
  | del i => exact h.del ok_law e
  | get i =>
    rcases get_step e with rfl | ⟨-, -, rfl⟩
    · exact h
    · exact h.rechain hok
  | free i buf =>
    rcases free_step e with rfl | ⟨-, -, rfl⟩
    · exact h
    · exact h.rechain hok
  | write a v => exact hv.elim

theorem Inside.get (h : Inside st i) (hf : 0 < (st.s.MemoryTbl i).freeBlock) {hl : List Nat} :
    Inside (st.rechain i (st.s.mem (st.s.MemoryTbl i).freeBlock) st.s.mem hl) i := by
  refine ⟨h.ok.rechain, ?_, ?_⟩ <;> rw [rechain_self]
  · exact h.next _ (h.first (Nat.ne_of_gt hf))
  · exact h.next

theorem Inside.free (h : Inside st i) (hb : buf ∈ (st.s.MemoryTbl i).blocks) {hl : List Nat} :
    Inside (st.rechain i buf (update st.s.mem buf (st.s.MemoryTbl i).freeBlock) hl) i := by
  refine ⟨h.ok.rechain, ?_, fun b => ?_⟩ <;> rw [rechain_self]
  · exact fun _ => hb
  · show b ∈ (st.s.MemoryTbl i).blocks → update st.s.mem buf _ b ≠ 0 →
      update st.s.mem buf _ b ∈ (st.s.MemoryTbl i).blocks
    by_cases e : b = buf
    · rw [e, Function.update_self]
      exact fun _ => h.first
    · rw [Function.update_of_ne e]
      exact h.next b

theorem Parts.notBehind (h : Parts Inside st) {op : MmOp} (hv : op.NotBehind st)
    (e : mmStep cfg st op = some st') : Parts Inside st' := by
  cases op with
  | create memBuf blockSize blockNum => exact h.create inside_law hv.1 e
  | del i => exact h.del inside_law e
  | get i =>
    rcases get_step e with rfl | ⟨hi, hf, rfl⟩
    · exact h
    · exact inside_law.rechain h hi (fun _ _ => rfl) ((h.part i hi).get hf)
  | free i buf =>
    rcases free_step e with rfl | ⟨hi, hb, rfl⟩
    · exact h
    · have hmem := ((h.part i hi).ok.accepted hb).resolve_right (hv.2 i buf rfl)
      have hw : ∀ a, a ∉ (st.s.MemoryTbl i).blocks → a ≠ buf := fun a ha e => ha (e ▸ hmem)
      exact inside_law.rechain h hi (fun a ha => Function.update_of_ne (hw a ha) ..)
        ((h.part i hi).free hmem)
  | write a v => exact hv.1.elim

theorem Inside.chain (h : Inside st i) {b : Nat}
    (hb : OnChain st.s.mem (st.s.MemoryTbl i).freeBlock b) :
    b ∈ (st.s.MemoryTbl i).blocks := by
  induction hb with
  | first hne => exact h.first hne
  | next _ hne ih => exact h.next _ ih hne

/-- **Partitions hand out their own blocks.** In a state of any run, `CoFreeMemoryBuffer` accepts
    only blocks for an address exactly when it is not the one behind the last block. In a run
    without such a free, the free chain and every address that `CoGetMemoryBuffer` returns are
    blocks. -/
theorem free_stays_inside (cfg : MmCfg) (mem : Nat → Nat) :
    (∀ st, MmReach cfg (fun st op => op.Calls st) mem st → ∀ i buf, ¬ badMm cfg st.s i →
      buf < 2 ^ 32 →
      (((coFreeMemoryBuffer cfg st.s i buf).2 = .E_OK → buf ∈ (st.s.MemoryTbl i).blocks) ↔
        buf ≠ (st.s.MemoryTbl i).limit)) ∧
    (∀ st, MmReach cfg (fun st op => op.NotBehind st) mem st → ∀ i, ¬ badMm cfg st.s i →
      (∀ b, OnChain st.s.mem (st.s.MemoryTbl i).freeBlock b → b ∈ (st.s.MemoryTbl i).blocks) ∧
      ((coGetMemoryBuffer cfg st.s i).2 ≠ 0 →
        (coGetMemoryBuffer cfg st.s i).2 ∈ (st.s.MemoryTbl i).blocks)) := by
  refine ⟨fun st h i buf hb hbuf => ?_, fun st h i hb => ?_⟩
  · have inv : Parts _ st := h.induct fun _ _ _ hp hv e => hp.calls hv e
    have ok := inv.part i (badMm_not hb)
    unfold coFreeMemoryBuffer
    rw [if_neg hb]
    constructor
    · rintro hin rfl
      rw [if_neg (ok.behind_accepted hbuf)] at hin
      exact MM.limit_not_mem _ ok (hin rfl)
    · intro hne
      split
      · exact fun e => nomatch e
      · next hacc => exact fun _ => (ok.accepted hacc).resolve_right hne
  · have inv : Parts Inside st := h.induct fun _ _ _ hp hv e => hp.notBehind hv e
    have part := inv.part i (badMm_not hb)
    refine ⟨fun b => part.chain, ?_⟩
    rcases @get_cases cfg st.s i with ⟨-, e⟩ | ⟨-, hf, e⟩
    · rw [e]
      exact fun hne => absurd rfl hne
    · rw [e]
      exact part.first

end Any

/-- Two blocks of 8 bytes at 4096: 4112 is accepted, and handed out. -/
theorem behind_handed_out :
    ∃ st, MmReach ⟨2, by decide⟩ (fun st op => op.Calls st) (fun _ => 0) st ∧
    ¬ badMm ⟨2, by decide⟩ st.s 0 ∧ (st.s.MemoryTbl 0).blocks = [4096, 4104] ∧
    (coFreeMemoryBuffer ⟨2, by decide⟩ st.s 0 4112).2 = .E_OK ∧
    (coGetMemoryBuffer ⟨2, by decide⟩ (coFreeMemoryBuffer ⟨2, by decide⟩ st.s 0 4112).1 0).2 =
      4112 := by
  have h1 :=
    MmReach.step (.start : MmReach ⟨2, by decide⟩ (fun st op => op.Calls st) (fun _ => 0) _)
    (show MmOp.Calls _ (.create 4096 8 2) from ⟨by decide, fun _ e => nomatch e⟩) rfl
  exact ⟨_, h1, by decide, rfl, rfl, rfl⟩

end CoOS
