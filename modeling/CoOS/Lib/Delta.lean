/-
  Delta lists: a doubly linked list in which each item stores the ticks that remain after
  the item before it. Nothing here is about a kernel.

  `Delta` adds a 32-bit counter column to `DList.Links`. `insert` and `remove` are the C
  code for such lists, with the comparison `deltaTicks < 0` on a signed 32-bit difference.
  `IsDelta D l` says that `D` holds the list `l` of pairs (item, remaining ticks), each
  below `2 ^ 31`. On that view the operations are plain:

  * `insert_spec`: insertion puts the item after all items with at most as many ticks;
  * `remove_spec`: removal drops the item;
  * `tick_spec`: lowering the first counter by one lowers every remaining count by one.

  Pairs are inserted in the order of their counts (`KeyOrder.insertKey`), and a tick
  commutes with that order (`sortKey_tick`).
-/
import CoOS.Lib.DList
import CoOS.Lib.Word
import CoOS.Lib.KeyOrder

namespace DList

open Function (update)
open Word32 KeyOrder

variable {α : Type} [DecidableEq α]

/-! ## The code -/

/-- A linked list with a counter for each item. -/
structure Delta (α : Type) extends Links α where
  cnt : α → Nat

/-- Where the search of an insertion ends, and `deltaTicks` there. -/
inductive Place (α : Type) where
  | before (q : α) (d : Nat)
  | after (p : α) (d : Nat)

/-- The search: subtract counters until the difference is negative or the list ends. -/
def findPlace (next : α → Option α) (cnt : α → Nat) : Nat → α → Nat → Option (Place α)
  | 0, _, _ => none
  | fuel + 1, cur, d =>
    if 2 ^ 31 ≤ sub32 d (cnt cur) then some (.before cur (sub32 d (cnt cur)))
    else
      match next cur with
      | none => some (.after cur (sub32 d (cnt cur)))
      | some n => findPlace next cnt fuel n (sub32 d (cnt cur))

/-- Insert `t` with `ticks` to go. -/
def Delta.insert (D : Delta α) (fuel : Nat) (t : α) (ticks : Nat) : Option (Delta α) :=
  match D.head with
  | none => some ⟨D.toLinks.pushFront t, update D.cnt t ticks⟩
  | some h =>
    match findPlace D.next D.cnt fuel h ticks with
    | none => none
    | some (.before q d) =>
      let L := D.toLinks.insertBefore q t
      let n := (L.next t).getD q
      let cnt := update D.cnt t (add32 (D.cnt n) d)
      some ⟨L, update cnt n (sub32 (cnt n) (cnt t))⟩
    | some (.after p d) => some ⟨D.toLinks.append p t, update D.cnt t d⟩

/-- Remove `t`: its count goes to the item after it. -/
def Delta.remove (D : Delta α) (t : α) : Delta α :=
  ⟨D.toLinks.unlink t,
    match D.next t with
    | none => D.cnt
    | some n => update D.cnt n (add32 (D.cnt n) (D.cnt t))⟩

/-! ## The remaining ticks -/

/-- The counters of `l`, an item `base` ticks away standing before it. -/
def Deltas (cnt : α → Nat) : Nat → List (α × Nat) → Prop
  | _, [] => True
  | base, (a, r) :: l => base ≤ r ∧ cnt a = r - base ∧ Deltas cnt r l

/-- `D` holds the items of `l`, each with its remaining ticks. -/
structure IsDelta (D : Delta α) (l : List (α × Nat)) : Prop where
  links : IsDList D.toLinks (l.map Prod.fst)
  cnts : Deltas D.cnt 0 l
  lt : ∀ x ∈ l, x.2 < 2 ^ 31

omit [DecidableEq α] in
theorem Deltas.congr {cnt cnt' : α → Nat} {base : Nat} {l : List (α × Nat)}
    (h : Deltas cnt base l) (hc : ∀ x ∈ l, cnt' x.1 = cnt x.1) : Deltas cnt' base l := by
  induction l generalizing base with
  | nil => trivial
  | cons x l ih =>
    obtain ⟨h1, h2, h3⟩ := h
    exact ⟨h1, (hc x (by simp)).trans h2, ih h3 fun y hy => hc y (by simp [hy])⟩

omit [DecidableEq α] in
theorem Deltas.base_le {cnt : α → Nat} {base : Nat} {l : List (α × Nat)}
    (h : Deltas cnt base l) : ∀ x ∈ l, base ≤ x.2 := by
  induction l generalizing base with
  | nil => simp
  | cons x l ih =>
    obtain ⟨h1, _, h3⟩ := h
    intro y hy
    rcases List.mem_cons.mp hy with rfl | hy
    · exact h1
    · exact h1.trans (ih h3 y hy)

/-- The remaining ticks of the last item of `l`, or `base`. -/
def lastRem (base : Nat) : List (α × Nat) → Nat
  | [] => base
  | x :: l => lastRem x.2 l

omit [DecidableEq α] in
theorem lastRem_concat (base : Nat) (l : List (α × Nat)) (x : α × Nat) :
    lastRem base (l ++ [x]) = x.2 := by
  induction l generalizing base with
  | nil => rfl
  | cons y l ih => exact ih y.2

omit [DecidableEq α] in
theorem lastRem_le {base n : Nat} {l : List (α × Nat)} (hb : base ≤ n)
    (h : ∀ x ∈ l, x.2 ≤ n) : lastRem base l ≤ n := by
  induction l generalizing base with
  | nil => exact hb
  | cons x l ih => exact ih (h x (by simp)) fun y hy => h y (by simp [hy])

omit [DecidableEq α] in
theorem deltas_append {cnt : α → Nat} {base : Nat} {l1 l2 : List (α × Nat)} :
    Deltas cnt base (l1 ++ l2) ↔ Deltas cnt base l1 ∧ Deltas cnt (lastRem base l1) l2 := by
  induction l1 generalizing base with
  | nil => simp [Deltas, lastRem]
  | cons x l1 ih => simp only [List.cons_append, Deltas, ih, lastRem, and_assoc]

omit [DecidableEq α] in
/-- Only the counter of the first item depends on the ticks before it. -/
theorem Deltas.rebase {cnt cnt' : α → Nat} {base base' : Nat} {x : α × Nat}
    {l : List (α × Nat)} (h : Deltas cnt base (x :: l)) (hb : base' ≤ x.2)
    (hx : cnt' x.1 = x.2 - base') (hc : ∀ y ∈ l, cnt' y.1 = cnt y.1) :
    Deltas cnt' base' (x :: l) :=
  ⟨hb, hx, h.2.2.congr hc⟩

omit [DecidableEq α] in
/-- Lowering the first counter by one lowers every remaining count by one. -/
theorem deltas_tick {cnt cnt' : α → Nat} {base : Nat} {l : List (α × Nat)}
    (h : Deltas cnt (base + 1) l) (hc : ∀ x ∈ l, cnt' x.1 = cnt x.1) :
    Deltas cnt' base (l.map fun x => (x.1, x.2 - 1)) := by
  induction l generalizing base with
  | nil => trivial
  | cons x l ih =>
    obtain ⟨h1, h2, h3⟩ := h
    have hx := hc x (by simp)
    refine ⟨by omega, by omega, ?_⟩
    have e : x.2 - 1 + 1 = x.2 := by omega
    exact ih (by rw [e]; exact h3) fun y hy => hc y (by simp [hy])

/-! ## Insertion -/

/-- The search from an item of the list: `n` ticks are asked for, and `base` of them are
    behind. -/
theorem findPlace_spec {D : Delta α} {n : Nat} (hn : n < 2 ^ 31) :
    ∀ (l2 : List (α × Nat)) (l1 : List (α × Nat)) (x : α × Nat) (base fuel : Nat),
      IsDList D.toLinks ((l1 ++ x :: l2).map Prod.fst) → Deltas D.cnt base (x :: l2) →
      (∀ y ∈ x :: l2, y.2 < 2 ^ 31) → base ≤ n → l2.length < fuel →
      (∃ k y k', x :: l2 = k ++ y :: k' ∧ (∀ z ∈ k, z.2 ≤ n) ∧ n < y.2 ∧
        findPlace D.next D.cnt fuel x.1 (n - base) =
          some (.before y.1 (2 ^ 32 - (y.2 - n)))) ∨
      (∃ k p, x :: l2 = k ++ [p] ∧ (∀ z ∈ x :: l2, z.2 ≤ n) ∧
        findPlace D.next D.cnt fuel x.1 (n - base) = some (.after p.1 (n - p.2))) := by
  intro l2
  induction l2 with
  | nil =>
    intro l1 x base fuel hl hd hlt hb hf
    obtain ⟨h1, h2, -⟩ := hd
    have hx := hlt x (by simp)
    have hnext : D.next x.1 = none := by
      rw [List.map_append, List.map_cons] at hl
      simpa using hl.next_split
    obtain ⟨f, rfl⟩ := Nat.exists_eq_succ_of_ne_zero (by omega : fuel ≠ 0)
    by_cases hxn : x.2 ≤ n
    · right
      have hs : sub32 (n - base) (D.cnt x.1) = n - x.2 := by
        rw [h2, sub32_of_le (by omega) (by omega)]; omega
      refine ⟨[], x, rfl, by simpa using hxn, ?_⟩
      simp [findPlace, hs, hnext, show ¬ (2147483648 ≤ n - x.2) by omega]
    · left
      have hs : sub32 (n - base) (D.cnt x.1) = 2 ^ 32 - (x.2 - n) := by
        rw [h2, sub32_of_lt (by omega) (by omega)]; omega
      refine ⟨[], x, [], rfl, by simp, by omega, ?_⟩
      rw [findPlace, hs, if_pos (by omega)]
  | cons y l2 ih =>
    intro l1 x base fuel hl hd hlt hb hf
    obtain ⟨h1, h2, h3⟩ := hd
    have hx := hlt x (by simp)
    have hnext : D.next x.1 = some y.1 := by
      rw [List.map_append, List.map_cons] at hl
      simpa using hl.next_split
    obtain ⟨f, rfl⟩ := Nat.exists_eq_succ_of_ne_zero (by omega : fuel ≠ 0)
    by_cases hxn : x.2 ≤ n
    · have hs : sub32 (n - base) (D.cnt x.1) = n - x.2 := by
        rw [h2, sub32_of_le (by omega) (by omega)]; omega
      have hstep : findPlace D.next D.cnt (f + 1) x.1 (n - base) =
          findPlace D.next D.cnt f y.1 (n - x.2) := by
        rw [findPlace, hs, if_neg (by omega), hnext]
      simp only [List.length_cons] at hf
      rcases ih (l1 ++ [x]) y x.2 f (by simpa using hl) h3
        (fun z hz => hlt z (List.mem_cons_of_mem _ hz)) hxn (by omega) with
        ⟨k, z, k', he, hk, hz, hf'⟩ | ⟨k, p, he, hk, hf'⟩
      · left
        refine ⟨x :: k, z, k', by rw [he]; rfl, ?_, hz, by rw [Nat.succ_eq_add_one, hstep, hf']⟩
        intro w hw
        rcases List.mem_cons.mp hw with rfl | hw
        · exact hxn
        · exact hk w hw
      · right
        refine ⟨x :: k, p, by rw [he]; rfl, ?_, by rw [Nat.succ_eq_add_one, hstep, hf']⟩
        intro w hw
        rcases List.mem_cons.mp hw with rfl | hw
        · exact hxn
        · exact hk w hw
    · left
      have hs : sub32 (n - base) (D.cnt x.1) = 2 ^ 32 - (x.2 - n) := by
        rw [h2, sub32_of_lt (by omega) (by omega)]; omega
      refine ⟨[], x, y :: l2, rfl, by simp, by omega, ?_⟩
      rw [findPlace, hs, if_pos (by omega)]

/-- What an edit of the list `l` around `t` leaves alone. -/
structure Frame (D D' : Delta α) (l : List (α × Nat)) (t : α) : Prop where
  next : ∀ a, a ∉ l.map Prod.fst → a ≠ t → D'.next a = D.next a
  prev : ∀ a, a ∉ l.map Prod.fst → a ≠ t → D'.prev a = D.prev a
  cnt : ∀ a, a ∉ l.map Prod.fst → a ≠ t → D'.cnt a = D.cnt a

/-- The list reads the same up to the item whose counter is split or extended. -/
theorem insert_before {D : Delta α} {t h0 : α} {n fuel : Nat} {k k' : List (α × Nat)}
    {y : α × Nat} (h : IsDelta D (k ++ y :: k')) (ht : t ∉ (k ++ y :: k').map Prod.fst)
    (hnx : D.next t = none) (hpv : D.prev t = none) (hk : ∀ z ∈ k, z.2 ≤ n) (hy : n < y.2)
    (hhead : D.head = some h0)
    (hp : findPlace D.next D.cnt fuel h0 n = some (.before y.1 (2 ^ 32 - (y.2 - n)))) :
    ∃ D', D.insert fuel t n = some D' ∧ IsDelta D' (insertKey Prod.snd (t, n) (k ++ y :: k')) ∧
      Frame D D' (k ++ y :: k') t := by
  have hl : IsDList D.toLinks (k.map Prod.fst ++ y.1 :: k'.map Prod.fst) := by
    simpa using h.links
  have ht' : t ∉ k.map Prod.fst ++ y.1 :: k'.map Prod.fst := by simpa using ht
  have hL := isDList_insertBefore hl ht' hnx hpv
  have hLn : (D.toLinks.insertBefore y.1 t).next t = some y.1 := hL.next_split
  have hty : t ≠ y.1 := by rintro rfl; simp at ht'
  have hylt := h.lt y (by simp)
  have hb : lastRem 0 k ≤ n := lastRem_le (Nat.zero_le _) hk
  obtain ⟨hd1, hd2⟩ := deltas_append.mp h.cnts
  obtain ⟨hd3, hd4, hd5⟩ := hd2
  -- the counter split between `t` and the item after it
  have hct : add32 (D.cnt y.1) (2 ^ 32 - (y.2 - n)) = n - lastRem 0 k := by
    unfold add32
    rw [hd4]
    have e : y.2 - lastRem 0 k + (2 ^ 32 - (y.2 - n)) = n - lastRem 0 k + 2 ^ 32 := by omega
    rw [e, Nat.add_mod_right, Nat.mod_eq_of_lt (by omega)]
  have hcy : sub32 (D.cnt y.1) (n - lastRem 0 k) = y.2 - n := by
    rw [hd4, sub32_of_le (by omega) (by omega)]; omega
  refine ⟨_, by simp only [Delta.insert, hhead, hp]; rfl, ?_, ?_⟩
  · rw [insertKey_of_before hk hy]
    refine ⟨by simpa using hL, ?_, ?_⟩
    · simp only [hLn, Option.getD_some, hct]
      have hne : ∀ z ∈ k, z.1 ≠ y.1 ∧ z.1 ≠ t := by
        intro z hz
        refine ⟨?_, ?_⟩
        · intro e
          exact nodup_split_left hl.nodup (e ▸ List.mem_map_of_mem hz)
        · rintro rfl
          exact ht' (List.mem_append_left _ (List.mem_map_of_mem hz))
      have hne' : ∀ z ∈ k', z.1 ≠ y.1 ∧ z.1 ≠ t := by
        intro z hz
        refine ⟨?_, ?_⟩
        · intro e
          exact nodup_split_right hl.nodup (e ▸ List.mem_map_of_mem hz)
        · rintro rfl
          exact ht' (List.mem_append_right _ (List.mem_cons_of_mem _ (List.mem_map_of_mem hz)))
      refine deltas_append.mpr ⟨hd1.congr ?_, hb, ?_, hy.le, ?_, hd5.congr ?_⟩
      · intro z hz
        rw [Function.update_of_ne (hne z hz).1, Function.update_of_ne (hne z hz).2]
      · rw [Function.update_of_ne hty, Function.update_self]
      · rw [Function.update_self, Function.update_of_ne (Ne.symm hty), Function.update_self, hcy]
      · intro z hz
        rw [Function.update_of_ne (hne' z hz).1, Function.update_of_ne (hne' z hz).2]
    · intro z hz
      rcases (by simpa using hz : z ∈ k ∨ z = (t, n) ∨ z = y ∨ z ∈ k') with hz | rfl | rfl | hz
      · exact h.lt z (by simp [hz])
      · exact hy.trans hylt
      · exact hylt
      · exact h.lt z (by simp [hz])
  · have hfr : ∀ a, a ∉ (k ++ y :: k').map Prod.fst → a ≠ t →
        a ∉ k.map Prod.fst ++ y.1 :: k'.map Prod.fst := by
      intro a ha _
      simpa using ha
    refine ⟨fun a ha hat => (insertBefore_frame hl (hfr a ha hat) hat ht').1,
      fun a ha hat => (insertBefore_frame hl (hfr a ha hat) hat ht').2, ?_⟩
    intro a ha hat
    have hay : a ≠ y.1 := by rintro rfl; simp at ha
    simp only [hLn, Option.getD_some]
    rw [Function.update_of_ne hay, Function.update_of_ne hat]

theorem insert_after {D : Delta α} {t h0 : α} {n fuel : Nat} {k : List (α × Nat)}
    {p : α × Nat} (h : IsDelta D (k ++ [p])) (ht : t ∉ (k ++ [p]).map Prod.fst)
    (hnx : D.next t = none) (hk : ∀ z ∈ k ++ [p], z.2 ≤ n) (hhead : D.head = some h0)
    (hp : findPlace D.next D.cnt fuel h0 n = some (.after p.1 (n - p.2))) (hn : n < 2 ^ 31) :
    ∃ D', D.insert fuel t n = some D' ∧ IsDelta D' (insertKey Prod.snd (t, n) (k ++ [p])) ∧
      Frame D D' (k ++ [p]) t := by
  have hl : IsDList D.toLinks (k.map Prod.fst ++ [p.1]) := by simpa using h.links
  have ht' : t ∉ k.map Prod.fst ++ [p.1] := by simpa using ht
  have hpn := hk p (by simp)
  refine ⟨_, by simp only [Delta.insert, hhead, hp]; rfl, ?_, ?_⟩
  · rw [insertKey_of_last hk]
    refine ⟨by simpa using isDList_append hl ht' hnx, ?_, ?_⟩
    · refine deltas_append.mpr ⟨h.cnts.congr ?_, ?_⟩
      · intro z hz
        refine Function.update_of_ne ?_ _ _
        rintro rfl
        exact ht (List.mem_map_of_mem hz)
      · rw [lastRem_concat]
        exact ⟨hpn, Function.update_self _ _ _, trivial⟩
    · intro z hz
      rcases List.mem_append.mp hz with hz | hz
      · exact h.lt z hz
      · obtain rfl := List.mem_singleton.mp hz
        exact hn
  · have hap : ∀ a, a ∉ (k ++ [p]).map Prod.fst → a ≠ p.1 := by
      intro a ha e
      exact ha (by simp [e])
    exact ⟨fun a ha hat => (append_frame (hap a ha) hat).1,
      fun a ha hat => (append_frame (hap a ha) hat).2,
      fun a _ hat => Function.update_of_ne hat _ _⟩

/-- **Insertion.** With its links null, an item that is not in the list is inserted with its
    ticks, and no other item's remaining ticks change. -/
theorem insert_spec {D : Delta α} {l : List (α × Nat)} {t : α} {n fuel : Nat}
    (h : IsDelta D l) (ht : t ∉ l.map Prod.fst) (hnx : D.next t = none)
    (hpv : D.prev t = none) (hn : n < 2 ^ 31) (hf : l.length ≤ fuel) :
    ∃ D', D.insert fuel t n = some D' ∧ IsDelta D' (insertKey Prod.snd (t, n) l) ∧
    Frame D D' l t := by
  have hlt : ∀ x ∈ insertKey Prod.snd (t, n) l, x.2 < 2 ^ 31 := by
    intro x hx
    rcases mem_insertKey.mp hx with rfl | hx
    · exact hn
    · exact h.lt x hx
  have hhead := h.links.head
  cases l with
  | nil =>
    simp only [List.map_nil, List.head?_nil] at hhead
    refine ⟨_, by simp only [Delta.insert, hhead]; rfl, ?_, ?_⟩
    · exact ⟨isDList_pushFront h.links ht hnx hpv, by simp [insertKey, Deltas], hlt⟩
    · simp only [Links.pushFront, hhead]
      exact ⟨fun _ _ _ => rfl, fun _ _ _ => rfl, fun a _ ha => Function.update_of_ne ha _ _⟩
  | cons x l =>
    simp only [List.map_cons, List.head?_cons] at hhead
    rcases findPlace_spec hn l [] x 0 fuel (by simpa using h.links) h.cnts h.lt (Nat.zero_le _)
      (by simp only [List.length_cons] at hf; omega) with
      ⟨k, y, k', he, hk, hy, hp⟩ | ⟨k, p, he, hk, hp⟩
    · simp only [Nat.sub_zero] at hp
      rw [he] at h ht hlt ⊢
      exact insert_before h ht hnx hpv hk hy hhead hp
    · simp only [Nat.sub_zero] at hp
      rw [he] at h ht hk ⊢
      exact insert_after h ht hnx hk hhead hp hn

/-! ## Removal -/

/-- **Removal.** The item is dropped, and no other item's remaining ticks change. -/
theorem remove_spec {D : Delta α} {l1 l2 : List (α × Nat)} {t : α} {r : Nat}
    (h : IsDelta D (l1 ++ (t, r) :: l2)) : IsDelta (D.remove t) (l1 ++ l2) := by
  have hl : IsDList D.toLinks (l1.map Prod.fst ++ t :: l2.map Prod.fst) := by
    simpa using h.links
  have hnext := hl.next_split
  obtain ⟨hd1, hr, hct, hd2⟩ := deltas_append.mp h.cnts
  have hlt : ∀ x ∈ l1 ++ l2, x.2 < 2 ^ 31 := by
    intro x hx
    rcases List.mem_append.mp hx with hx | hx
    · exact h.lt x (by simp [hx])
    · exact h.lt x (by simp [hx])
  refine ⟨by simpa [Delta.remove] using isDList_unlink hl, ?_, hlt⟩
  cases l2 with
  | nil =>
    simp only [List.map_nil, List.head?_nil] at hnext
    simpa [Delta.remove, hnext] using hd1
  | cons y l2 =>
    simp only [List.map_cons, List.head?_cons] at hnext
    obtain ⟨hry, hcy, hd3⟩ := hd2
    have hylt := h.lt y (by simp)
    have hsum : add32 (D.cnt y.1) (D.cnt t) = y.2 - lastRem 0 l1 := by
      unfold add32
      rw [hcy, hct, Nat.mod_eq_of_lt (by omega)]
      omega
    have hnd : ((l1.map Prod.fst ++ [t]) ++ y.1 :: l2.map Prod.fst).Nodup := by
      simpa using hl.nodup
    simp only [Delta.remove, hnext, hsum]
    refine deltas_append.mpr ⟨hd1.congr ?_, by omega, Function.update_self _ _ _, hd3.congr ?_⟩
    · intro z hz
      refine Function.update_of_ne ?_ _ _
      intro e
      exact nodup_split_left hnd (List.mem_append_left _ (e ▸ List.mem_map_of_mem hz))
    · intro z hz
      refine Function.update_of_ne ?_ _ _
      intro e
      exact nodup_split_right hnd (e ▸ List.mem_map_of_mem hz)

theorem remove_frame {D : Delta α} {l1 l2 : List (α × Nat)} {t : α} {r : Nat}
    (h : IsDList D.toLinks ((l1 ++ (t, r) :: l2).map Prod.fst)) :
    Frame D (D.remove t) (l1 ++ (t, r) :: l2) t := by
  have hl : IsDList D.toLinks (l1.map Prod.fst ++ t :: l2.map Prod.fst) := by
    simpa using h
  have hmem : ∀ a, a ∉ (l1 ++ (t, r) :: l2).map Prod.fst →
      a ∉ l1.map Prod.fst ++ t :: l2.map Prod.fst := fun a ha => by simpa using ha
  refine ⟨fun a ha _ => (unlink_frame hl (hmem a ha)).1,
    fun a ha _ => (unlink_frame hl (hmem a ha)).2, ?_⟩
  intro a ha _
  have hnext := hl.next_split
  cases l2 with
  | nil =>
    simp only [List.map_nil, List.head?_nil] at hnext
    simp [Delta.remove, hnext]
  | cons y l2 =>
    simp only [List.map_cons, List.head?_cons] at hnext
    have hay : a ≠ y.1 := by rintro rfl; simp at ha
    simp [Delta.remove, hnext, Function.update_of_ne hay]

/-- The removed item's own counter is not written. -/
theorem remove_cnt_self {D : Delta α} {l1 l2 : List (α × Nat)} {t : α} {r : Nat}
    (h : IsDList D.toLinks ((l1 ++ (t, r) :: l2).map Prod.fst)) : (D.remove t).cnt t = D.cnt t := by
  have hl : IsDList D.toLinks (l1.map Prod.fst ++ t :: l2.map Prod.fst) := by
    simpa using h
  have hnext := hl.next_split
  unfold Delta.remove
  cases l2 with
  | nil =>
    simp only [List.map_nil, List.head?_nil] at hnext
    simp [hnext]
  | cons y l2 =>
    simp only [List.map_cons, List.head?_cons] at hnext
    have hty : t ≠ y.1 := by
      intro e
      exact nodup_split_right hl.nodup (by simp [e])
    simp [hnext, Function.update_of_ne hty]

/-- **Tick.** Lowering the first counter by one lowers every remaining count by one. -/
theorem tick_spec {D : Delta α} {x : α × Nat} {l : List (α × Nat)} (h : IsDelta D (x :: l))
    (hpos : 0 < x.2) :
    IsDelta ⟨D.toLinks, update D.cnt x.1 (D.cnt x.1 - 1)⟩
      ((x :: l).map fun y => (y.1, y.2 - 1)) := by
  obtain ⟨_, hcx, hd⟩ := h.cnts
  have hnd := h.links.nodup
  simp only [List.map_cons, List.nodup_cons] at hnd
  refine ⟨by simpa [Function.comp_def] using h.links, ?_, ?_⟩
  · refine ⟨Nat.zero_le _, by simp only [Function.update_self]; omega, ?_⟩
    have e : x.2 - 1 + 1 = x.2 := by omega
    refine deltas_tick (by rw [e]; exact hd) ?_
    intro y hy
    refine Function.update_of_ne ?_ _ _
    intro e
    exact hnd.1 (e ▸ List.mem_map_of_mem hy)
  · intro y hy
    obtain ⟨z, hz, rfl⟩ := List.mem_map.mp hy
    have := h.lt z hz
    simp only; omega

/-! ## Reading the remaining ticks -/

/-- The items of a list, each with its counter added to those before it. -/
def sums (cnt : α → Nat) : Nat → List α → List (α × Nat)
  | _, [] => []
  | base, a :: l => (a, base + cnt a) :: sums cnt (base + cnt a) l

omit [DecidableEq α] in
theorem Deltas.sums_eq {cnt : α → Nat} {base : Nat} {l : List (α × Nat)} (h : Deltas cnt base l) :
    sums cnt base (l.map Prod.fst) = l := by
  induction l generalizing base with
  | nil => rfl
  | cons x l ih =>
    obtain ⟨h1, h2, h3⟩ := h
    have hr : base + cnt x.1 = x.2 := by
      rw [h2]
      omega
    rw [List.map_cons, sums, hr, ih h3]

/-! ## Order of insertion -/

section Order

omit [DecidableEq α]

theorem Deltas.sorted {cnt : α → Nat} {base : Nat} {l : List (α × Nat)}
    (h : Deltas cnt base l) : SortedKey Prod.snd l := by
  induction l generalizing base with
  | nil => exact List.Pairwise.nil
  | cons x l ih => exact List.Pairwise.cons h.2.2.base_le (ih h.2.2)

theorem sortKey_tick {A : List (α × Nat)} (h : ∀ x ∈ A, 0 < x.2) :
    sortKey Prod.snd (A.map fun x => (x.1, x.2 - 1)) = (sortKey Prod.snd A).map fun x => (x.1,
      x.2 - 1) := by
  induction A using List.reverseRecOn with
  | nil => rfl
  | append_singleton A x ih =>
    rw [List.map_append, List.map_singleton, sortKey_concat, sortKey_concat,
      ih fun y hy => h y (by simp [hy]), map_insertKey]
    intro y hy
    have h1 := h y (by simp [mem_sortKey.mp hy])
    have h2 := h x (by simp)
    simp only
    omega

end Order

end DList
