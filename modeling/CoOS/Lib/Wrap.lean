/-
  Delta lists whose counters are any 32-bit words. Nothing here is about a kernel.

  `Counted D l` says that `D` holds the list `l` of pairs (item, sum of the counters up to it),
  with no bound on the sums. The search of an insertion stops at the first item from which the
  signed difference is negative (`Stops`); that is the right place exactly when the differences
  that matter fit in 31 bits (`Near`):

  * `insert_wrap`: insertion keeps the list well linked; `Near` says when it keeps the sums;
  * `remove_wrap`: so does removal, whose addition may wrap around.
-/
import CoOS.Lib.Delta

namespace DList

open Function (update)
open Word32 KeyOrder

variable {α : Type} [DecidableEq α]

/-- `D` holds the items of `l`, each with the sum of the counters up to it. -/
structure Counted (D : Delta α) (l : List (α × Nat)) : Prop where
  links : IsDList D.toLinks (l.map Prod.fst)
  cnts : Deltas D.cnt 0 l
  word : ∀ x ∈ l, D.cnt x.1 < 2 ^ 32

/-- The signed difference from `r` to `n` is negative. -/
def Stops (n r : Nat) : Prop := (2 ^ 31 : Int) ≤ ((n : Int) - r) % 2 ^ 32

instance (n r : Nat) : Decidable (Stops n r) := inferInstanceAs (Decidable (_ ≤ _))

/-- The items with at most `n` are fewer than `2 ^ 31` behind it, the first one with more at
    most `2 ^ 31` ahead. -/
def Near (n : Nat) : List (α × Nat) → Prop
  | [] => True
  | x :: l => if x.2 ≤ n then n - x.2 < 2 ^ 31 ∧ Near n l else x.2 - n ≤ 2 ^ 31

instance decidableNear (n : Nat) : ∀ l : List (α × Nat), Decidable (Near n l)
  | [] => isTrue trivial
  | x :: l =>
    have := decidableNear n l
    inferInstanceAs (Decidable (if x.2 ≤ n then n - x.2 < 2 ^ 31 ∧ Near n l else x.2 - n ≤ 2 ^ 31))

/-- An item with `d` more to go. -/
def laterBy (d : Nat) (x : α × Nat) : α × Nat := (x.1, x.2 + d)

section Pure

omit [DecidableEq α]

theorem later_zero : (laterBy 0 : α × Nat → α × Nat) = id := rfl

theorem map_later_fst (d : Nat) (l : List (α × Nat)) : (l.map (laterBy d)).map Prod.fst =
    l.map Prod.fst := by
  rw [List.map_map]
  rfl

/-- A whole list with `d` more before it. -/
theorem Deltas.later {cnt : α → Nat} {base : Nat} {l : List (α × Nat)}
    (h : Deltas cnt base l) (d : Nat) :
    Deltas cnt (base + d) (l.map (laterBy d)) := by
  induction l generalizing base with
  | nil => trivial
  | cons x l ih =>
    obtain ⟨h1, h2, h3⟩ := h
    refine ⟨Nat.add_le_add_right h1 d, ?_, ih h3⟩
    omega

/-- And with `d` fewer. -/
theorem Deltas.earlier {cnt : α → Nat} {base d : Nat} {l : List (α × Nat)}
    (h : Deltas cnt (base + d) l) :
    ∃ l', l = l'.map (DList.laterBy d) ∧ Deltas cnt base l' := by
  induction l generalizing base with
  | nil => exact ⟨[], rfl, trivial⟩
  | cons x l ih =>
    obtain ⟨h1, h2, h3⟩ := h
    have hx : x.2 - d + d = x.2 := by omega
    obtain ⟨l', rfl, hl'⟩ := ih (by rw [hx]; exact h3)
    refine ⟨(x.1, x.2 - d) :: l', ?_, by omega, by omega, hl'⟩
    rw [List.map_cons]
    exact congrArg (· :: _) (Prod.ext rfl hx.symm)

theorem Deltas.cnt_le {cnt : α → Nat} {base : Nat} {l : List (α × Nat)} (h : Deltas cnt base l) :
    ∀ x ∈ l, cnt x.1 ≤ x.2 := by
  induction l generalizing base with
  | nil => exact fun _ hx => nomatch hx
  | cons y l ih =>
    obtain ⟨-, h2, h3⟩ := h
    intro x hx
    rcases List.mem_cons.mp hx with rfl | hx
    · rw [h2]
      exact Nat.sub_le ..
    · exact ih h3 x hx

/-- Below `2 ^ 31` all differences fit. -/
theorem near_of_lt {n : Nat} (hn : n < 2 ^ 31) {l : List (α × Nat)} (h : ∀ x ∈ l, x.2 < 2 ^ 31) :
    Near n l := by
  induction l with
  | nil => trivial
  | cons x l ih =>
    have hx := h x List.mem_cons_self
    unfold Near
    split
    · exact ⟨by omega, ih fun y hy => h y (List.mem_cons_of_mem _ hy)⟩
    · omega

/-- What `Near` says of the item at which the search stops. -/
theorem near_before {cnt : α → Nat} {n base : Nat} {k k' : List (α × Nat)} {y : α × Nat}
    (hd : Deltas cnt base (k ++ y :: k')) (hw : ∀ x ∈ k ++ y :: k', cnt x.1 < 2 ^ 32)
    (hb : base ≤ n)
    (hk : ∀ z ∈ k, ¬ Stops n z.2) (hy : Stops n y.2) (hn : n < 2 ^ 32) :
    Near n (k ++ y :: k') ↔ lastRem base k ≤ n ∧ n ≤ y.2 := by
  induction k generalizing base with
  | nil =>
    obtain ⟨h1, h2, -⟩ := hd
    have hwy := hw y (by simp)
    unfold Stops at hy
    simp only [List.nil_append, Near, lastRem]
    split
    · next hle =>
      refine iff_of_false (fun h => ?_) (fun h => ?_)
      · omega
      · -- equal counts do not stop the search
        have he : (n : Int) - y.2 = 0 := by omega
        rw [he] at hy
        omega
    · refine iff_of_true ?_ ⟨hb, by omega⟩
      omega
  | cons x k ih =>
    obtain ⟨h1, h2, h3⟩ := hd
    have hwx := hw x (by simp)
    have hx := hk x List.mem_cons_self
    unfold Stops at hx
    simp only [List.cons_append, Near, lastRem]
    split
    · next hle =>
      rw [ih h3 (fun z hz => hw z (List.mem_cons_of_mem _ hz)) hle
        (fun z hz => hk z (List.mem_cons_of_mem _ hz))]
      exact and_iff_right (by omega)
    · next hgt =>
      have hlast : x.2 ≤ lastRem x.2 k := by
        rcases List.eq_nil_or_concat k with rfl | ⟨k1, z, rfl⟩
        · exact Nat.le_refl _
        · rw [List.concat_eq_append, lastRem_concat]
          exact h3.base_le z (by simp)
      exact iff_of_false (by omega) (by omega)

/-- What `Near` says of a search that reaches the end. -/
theorem near_after {cnt : α → Nat} {n base : Nat} {l : List (α × Nat)} (hd : Deltas cnt base l)
    (hw : ∀ x ∈ l, cnt x.1 < 2 ^ 32) (hb : base ≤ n) (hl : ∀ z ∈ l, ¬ Stops n z.2)
    (hn : n < 2 ^ 32) :
    Near n l ↔ lastRem base l ≤ n := by
  induction l generalizing base with
  | nil => exact iff_of_true trivial hb
  | cons x l ih =>
    obtain ⟨h1, h2, h3⟩ := hd
    have hwx := hw x List.mem_cons_self
    have hx := hl x List.mem_cons_self
    unfold Stops at hx
    simp only [Near, lastRem]
    split
    · next hle =>
      rw [ih h3 (fun z hz => hw z (List.mem_cons_of_mem _ hz)) hle
        (fun z hz => hl z (List.mem_cons_of_mem _ hz))]
      exact and_iff_right (by omega)
    · have hlast : x.2 ≤ lastRem x.2 l := by
        rcases List.eq_nil_or_concat l with rfl | ⟨k1, z, rfl⟩
        · exact Nat.le_refl _
        · rw [List.concat_eq_append, lastRem_concat]
          exact h3.base_le z (by simp)
      exact iff_of_false (by omega) (by omega)

/-- The items met along the list, each with the sum of the counters up to it. -/
def Delta.read (D : Delta α) (fuel : Nat) : List (α × Nat) := sums D.cnt 0 (walk D.next fuel D.head)

end Pure

theorem Counted.read_eq {D : Delta α} {l : List (α × Nat)} {fuel : Nat} (h : Counted D l)
    (hf : l.length ≤ fuel) : D.read fuel = l := by
  unfold Delta.read
  rw [h.links.toSList.walk_eq (by rwa [List.length_map]), h.cnts.sums_eq]

theorem IsDelta.counted {D : Delta α} {l : List (α × Nat)} (h : IsDelta D l) : Counted D l where
  links := h.links
  cnts := h.cnts
  word x hx := by
    have h1 := h.cnts.cnt_le x hx
    have h2 := h.lt x hx
    omega

/-! ## Insertion -/

/-- The search, where `d` is the difference to `n` after the `base` ticks behind. -/
theorem findPlace_wrap {D : Delta α} {n : Nat} :
    ∀ (l2 : List (α × Nat)) (l1 : List (α × Nat)) (x : α × Nat) (base d fuel : Nat),
      IsDList D.toLinks ((l1 ++ x :: l2).map Prod.fst) → Deltas D.cnt base (x :: l2) →
      (∀ y ∈ x :: l2, D.cnt y.1 < 2 ^ 32) → d < 2 ^ 32 → (d + base) % 2 ^ 32 = n →
      l2.length < fuel →
      (∃ k y k' d', x :: l2 = k ++ y :: k' ∧ (∀ z ∈ k, ¬ Stops n z.2) ∧ Stops n y.2 ∧
        findPlace D.next D.cnt fuel x.1 d = some (.before y.1 d') ∧ d' < 2 ^ 32 ∧
        (d' + y.2) % 2 ^ 32 = n) ∨
      (∃ k p d', x :: l2 = k ++ [p] ∧ (∀ z ∈ x :: l2, ¬ Stops n z.2) ∧
        findPlace D.next D.cnt fuel x.1 d = some (.after p.1 d') ∧ d' < 2 ^ 32 ∧
        (d' + p.2) % 2 ^ 32 = n) := by
  have hsub : ∀ {base d c r : Nat}, c = r - base → base ≤ r → c < 2 ^ 32 → d < 2 ^ 32 →
      (d + base) % 2 ^ 32 = n →
      sub32 d c < 2 ^ 32 ∧ (sub32 d c + r) % 2 ^ 32 = n ∧ (2 ^ 31 ≤ sub32 d c ↔ Stops n r) := by
    intro base d c r hc hb hc2 hd hn
    unfold sub32 Stops
    exact ⟨by omega, by omega, by omega⟩
  intro l2
  induction l2 with
  | nil =>
    intro l1 x base d fuel hl hd hw hd2 hdn hf
    obtain ⟨h1, h2, -⟩ := hd
    obtain ⟨e1, e2, e3⟩ := hsub h2 h1 (hw x (by simp)) hd2 hdn
    have hnext : D.next x.1 = none := by
      rw [List.map_append, List.map_cons] at hl
      simpa using hl.next_split
    obtain ⟨f, rfl⟩ := Nat.exists_eq_succ_of_ne_zero (by omega : fuel ≠ 0)
    by_cases hs : Stops n x.2
    · refine Or.inl ⟨[], x, [], _, rfl, by simp, hs, ?_, e1, e2⟩
      rw [findPlace, if_pos (e3.mpr hs)]
    · refine Or.inr ⟨[], x, _, rfl, by simpa using hs, ?_, e1, e2⟩
      rw [findPlace, if_neg (fun h => hs (e3.mp h)), hnext]
  | cons y l2 ih =>
    intro l1 x base d fuel hl hd hw hd2 hdn hf
    obtain ⟨h1, h2, h3⟩ := hd
    obtain ⟨e1, e2, e3⟩ := hsub h2 h1 (hw x (by simp)) hd2 hdn
    have hnext : D.next x.1 = some y.1 := by
      rw [List.map_append, List.map_cons] at hl
      simpa using hl.next_split
    obtain ⟨f, rfl⟩ := Nat.exists_eq_succ_of_ne_zero (by omega : fuel ≠ 0)
    by_cases hs : Stops n x.2
    · refine Or.inl ⟨[], x, y :: l2, _, rfl, by simp, hs, ?_, e1, e2⟩
      rw [findPlace, if_pos (e3.mpr hs)]
    · have hstep : findPlace D.next D.cnt (f + 1) x.1 d =
          findPlace D.next D.cnt f y.1 (sub32 d (D.cnt x.1)) := by
        rw [findPlace, if_neg (fun h => hs (e3.mp h)), hnext]
      simp only [List.length_cons] at hf
      have hcons : ∀ {k : List (α × Nat)}, (∀ z ∈ k, ¬ Stops n z.2) → ∀ z ∈ x :: k,
        ¬ Stops n z.2 := by
        intro k hk z hz
        rcases List.mem_cons.mp hz with rfl | hz
        · exact hs
        · exact hk z hz
      rcases ih (l1 ++ [x]) y x.2 (sub32 d (D.cnt x.1)) f (by simpa using hl) h3
        (fun z hz => hw z (List.mem_cons_of_mem _ hz)) e1 e2 (by omega) with
        ⟨k, z, k', d', he, hk, hz, hp, hd', hdn'⟩ | ⟨k, p, d', he, hk, hp, hd', hdn'⟩
      · refine Or.inl ⟨x :: k, z, k', d', by rw [he]; rfl, hcons hk, hz, ?_, hd', hdn'⟩
        rw [Nat.succ_eq_add_one, hstep, hp]
      · refine Or.inr ⟨x :: k, p, d', by rw [he]; rfl, hcons hk, ?_, hd', hdn'⟩
        rw [Nat.succ_eq_add_one, hstep, hp]

/-- What an insertion of `t` with `n` ticks made of `l`: the items from its place on have `d`
    more than before. -/
structure Inserted (D D' : Delta α) (l k k' : List (α × Nat)) (t : α) (n m d : Nat) : Prop where
  split : l = k ++ k'
  counted : Counted D' (k ++ (t, m) :: k'.map (laterBy d))
  wrapped : d = 0 ∨ d = 2 ^ 32
  frame : Frame D D' l t
  near : Near n l ↔ m = n ∧ (d = 0 ∨ k' = [])

theorem wrap_before {D : Delta α} {t h0 : α} {n fuel d' : Nat} {k k' : List (α × Nat)} {y : α × Nat}
    (h : Counted D (k ++ y :: k')) (ht : t ∉ (k ++ y :: k').map Prod.fst)
    (hnx : D.next t = none) (hpv : D.prev t = none) (hn : n < 2 ^ 32) (hhead : D.head = some h0)
    (hk : ∀ z ∈ k, ¬ Stops n z.2) (hy : Stops n y.2)
    (hp : findPlace D.next D.cnt fuel h0 n = some (.before y.1 d'))
    (hdn : (d' + y.2) % 2 ^ 32 = n) :
    ∃ D' m d, D.insert fuel t n = some D' ∧ Inserted D D' (k ++ y :: k') k (y :: k') t n m d := by
  have hl : IsDList D.toLinks (k.map Prod.fst ++ y.1 :: k'.map Prod.fst) := by
    simpa using h.links
  have ht' : t ∉ k.map Prod.fst ++ y.1 :: k'.map Prod.fst := by simpa using ht
  have hL := isDList_insertBefore hl ht' hnx hpv
  have hLn : (D.toLinks.insertBefore y.1 t).next t = some y.1 := hL.next_split
  have hty : t ≠ y.1 := by
    rintro rfl
    simp at ht'
  have hwy := h.word y (by simp)
  have hnear := near_before h.cnts h.word (Nat.zero_le n) hk hy hn
  obtain ⟨hd1, hd2⟩ := deltas_append.mp h.cnts
  obtain ⟨hd3, hd4, hd5⟩ := hd2
  generalize hb : lastRem 0 k = b at hnear hd3 hd4
  -- the counter of `t` and what is left of that of `y`
  obtain ⟨e, he⟩ : ∃ e, e = add32 (D.cnt y.1) d' := ⟨_, rfl⟩
  have heb : e < 2 ^ 32 ∧ (e + b) % 2 ^ 32 = n := by
    rw [he]
    unfold add32
    omega
  obtain ⟨f, hf⟩ : ∃ f, f = sub32 (D.cnt y.1) e := ⟨_, rfl⟩
  obtain ⟨d, hd⟩ : ∃ d, d = if e ≤ D.cnt y.1 then 0 else 2 ^ 32 := ⟨_, rfl⟩
  have hfe : f < 2 ^ 32 ∧ e + f = D.cnt y.1 + d := by
    rw [hf, hd]
    unfold sub32
    split <;> omega
  refine ⟨_, b + e, d, by simp only [Delta.insert, hhead, hp]; rfl, rfl, ?_, ?_, ?_, ?_⟩
  · have hne : ∀ z ∈ k, z.1 ≠ y.1 ∧ z.1 ≠ t := by
      intro z hz
      refine ⟨fun e => ?_, ?_⟩
      · exact nodup_split_left hl.nodup (e ▸ List.mem_map_of_mem hz)
      · rintro rfl
        exact ht' (List.mem_append_left _ (List.mem_map_of_mem hz))
    have hne' : ∀ z ∈ k', z.1 ≠ y.1 ∧ z.1 ≠ t := by
      intro z hz
      refine ⟨fun e => ?_, ?_⟩
      · exact nodup_split_right hl.nodup (e ▸ List.mem_map_of_mem hz)
      · rintro rfl
        exact ht' (List.mem_append_right _ (List.mem_cons_of_mem _ (List.mem_map_of_mem hz)))
    have hct : update (update D.cnt t e) y.1 f t = e := by
      rw [Function.update_of_ne hty, Function.update_self]
    have hcy : update (update D.cnt t e) y.1 f y.1 = f := Function.update_self ..
    have hcz : ∀ z, z ≠ y.1 ∧ z ≠ t → update (update D.cnt t e) y.1 f z = D.cnt z := by
      intro z hz
      rw [Function.update_of_ne hz.1, Function.update_of_ne hz.2]
    have hcnt : ∀ {c : α → Nat}, c = update (update D.cnt t e) y.1 f → Counted
        ⟨D.toLinks.insertBefore y.1 t, c⟩
        (k ++ (t, b + e) :: (y :: k').map (laterBy d)) := by
      rintro c rfl
      refine ⟨?_, ?_, ?_⟩
      · rw [List.map_append, List.map_cons, map_later_fst]
        exact hL
      · refine deltas_append.mpr ⟨hd1.congr fun z hz => hcz _ (hne z hz), ?_⟩
        rw [hb]
        refine ⟨Nat.le_add_right b e, by simp only [hct]; omega, ?_⟩
        refine ⟨?_, ?_, (hd5.later _).congr fun z hz => ?_⟩
        · omega
        · change update (update D.cnt t e) y.1 f y.1 = y.2 + d - (b + e)
          rw [hcy]
          omega
        · obtain ⟨w, hw, rfl⟩ := List.mem_map.mp hz
          exact hcz _ (hne' w hw)
      · intro z hz
        change update (update D.cnt t e) y.1 f z.1 < 2 ^ 32
        rcases List.mem_append.mp hz with hz | hz
        · rw [hcz _ (hne z hz)]
          exact h.word z (by simp [hz])
        · rcases List.mem_cons.mp hz with rfl | hz
          · rw [hct]
            exact heb.1
          · obtain ⟨w, hw, rfl⟩ := List.mem_map.mp hz
            change update (update D.cnt t e) y.1 f w.1 < 2 ^ 32
            rcases List.mem_cons.mp hw with rfl | hw
            · rw [hcy]
              exact hfe.1
            · rw [hcz _ (hne' w hw)]
              exact h.word w (by simp [hw])
    refine hcnt ?_
    simp only [hLn, Option.getD_some, Function.update_of_ne (Ne.symm hty),
      Function.update_self, ← he, ← hf]
  · rw [hd]
    split
    · exact Or.inl rfl
    · exact Or.inr rfl
  · have hfr : ∀ a, a ∉ (k ++ y :: k').map Prod.fst → a ∉ k.map Prod.fst ++ y.1 ::
      k'.map Prod.fst :=
      fun a ha => by simpa using ha
    refine ⟨fun a ha hat => (insertBefore_frame hl (hfr a ha) hat ht').1,
      fun a ha hat => (insertBefore_frame hl (hfr a ha) hat ht').2, ?_⟩
    intro a ha hat
    have hay : a ≠ y.1 := by
      rintro rfl
      simp at ha
    simp only [hLn, Option.getD_some]
    rw [Function.update_of_ne hay, Function.update_of_ne hat]
  · rw [hnear, hd]
    split
    · exact ⟨fun _ => ⟨by omega, Or.inl rfl⟩, fun _ => by omega⟩
    · refine ⟨fun _ => by omega, fun h => ?_⟩
      rcases h.2 with h0 | h0
      · exact absurd h0 (by decide)
      · exact absurd h0 (by simp)

theorem wrap_after {D : Delta α} {t h0 : α} {n fuel d' : Nat} {k : List (α × Nat)} {p : α × Nat}
    (h : Counted D (k ++ [p])) (ht : t ∉ (k ++ [p]).map Prod.fst) (hnx : D.next t = none)
    (hn : n < 2 ^ 32) (hhead : D.head = some h0) (hk : ∀ z ∈ k ++ [p], ¬ Stops n z.2)
    (hp : findPlace D.next D.cnt fuel h0 n = some (.after p.1 d')) (hd' : d' < 2 ^ 32)
    (hdn : (d' + p.2) % 2 ^ 32 = n) :
    ∃ D' m, D.insert fuel t n = some D' ∧ Inserted D D' (k ++ [p]) (k ++ [p]) [] t n m 0 := by
  have hl : IsDList D.toLinks (k.map Prod.fst ++ [p.1]) := by simpa using h.links
  have ht' : t ∉ k.map Prod.fst ++ [p.1] := by simpa using ht
  have hnear := near_after h.cnts h.word (Nat.zero_le n) hk hn
  rw [lastRem_concat] at hnear
  have hct : update D.cnt t d' t = d' := Function.update_self ..
  have hcz : ∀ z ∈ k ++ [p], update D.cnt t d' z.1 = D.cnt z.1 := by
    intro z hz
    refine Function.update_of_ne ?_ _ _
    rintro rfl
    exact ht (List.mem_map_of_mem hz)
  have hap : ∀ a, a ∉ (k ++ [p]).map Prod.fst → a ≠ p.1 := by
    intro a ha e
    exact ha (by simp [e])
  refine ⟨_, p.2 + d', by simp only [Delta.insert, hhead, hp]; rfl, (List.append_nil _).symm, ?_,
    Or.inl rfl, ?_, ?_⟩
  · refine ⟨by simpa using isDList_append hl ht' hnx, ?_, ?_⟩
    · refine deltas_append.mpr ⟨h.cnts.congr hcz, ?_⟩
      rw [lastRem_concat]
      exact ⟨Nat.le_add_right _ _, by simp only [hct]; omega, trivial⟩
    · intro z hz
      rcases List.mem_append.mp hz with hz | hz
      · exact (hcz z hz).trans_lt (h.word z hz)
      · rw [List.mem_singleton.mp hz]
        exact hct.trans_lt hd'
  · exact ⟨fun a ha hat => (append_frame (hap a ha) hat).1,
      fun a ha hat => (append_frame (hap a ha) hat).2,
      fun a _ hat => Function.update_of_ne hat _ _⟩
  · rw [hnear]
    exact ⟨fun _ => ⟨by omega, Or.inl rfl⟩, fun h => by omega⟩

/-- **Insertion.** The list stays well linked, whatever its counters; the sums are right when
    the differences fit, and only then. -/
theorem insert_wrap {D : Delta α} {l : List (α × Nat)} {t : α} {n fuel : Nat} (h : Counted D l)
    (ht : t ∉ l.map Prod.fst) (hnx : D.next t = none) (hpv : D.prev t = none) (hn : n < 2 ^ 32)
    (hf : l.length ≤ fuel) :
    ∃ D' k k' m d, D.insert fuel t n = some D' ∧ Inserted D D' l k k' t n m d := by
  have hhead := h.links.head
  cases l with
  | nil =>
    simp only [List.map_nil, List.head?_nil] at hhead
    refine ⟨_, [], [], n, 0, by simp only [Delta.insert, hhead]; rfl, rfl, ?_, Or.inl rfl, ?_, ?_⟩
    · refine ⟨isDList_pushFront h.links ht hnx hpv, ⟨Nat.zero_le n, Function.update_self ..,
        trivial⟩, ?_⟩
      intro z hz
      rw [List.mem_singleton.mp hz]
      exact (Function.update_self t n D.cnt).trans_lt hn
    · simp only [Links.pushFront, hhead]
      exact ⟨fun _ _ _ => rfl, fun _ _ _ => rfl, fun a _ ha => Function.update_of_ne ha _ _⟩
    · exact iff_of_true trivial ⟨rfl, Or.inl rfl⟩
  | cons x l =>
    simp only [List.map_cons, List.head?_cons] at hhead
    rcases findPlace_wrap l [] x 0 n fuel (by simpa using h.links) h.cnts h.word hn
      (Nat.mod_eq_of_lt hn) (by simp only [List.length_cons] at hf; omega) with
      ⟨k, y, k', d', he, hk, hy, hp, hd', hdn⟩ | ⟨k, p, d', he, hk, hp, hd', hdn⟩
    · rw [he] at h ht ⊢
      obtain ⟨D', m, d, h1, h2⟩ := wrap_before h ht hnx hpv hn hhead hk hy hp hdn
      exact ⟨D', k, y :: k', m, d, h1, h2⟩
    · rw [he] at h ht hk ⊢
      obtain ⟨D', m, h1, h2⟩ := wrap_after h ht hnx hn hhead hk hp hd' hdn
      exact ⟨D', k ++ [p], [], m, 0, h1, h2⟩

section Inserted

variable {D D' : Delta α} {l k k' : List (α × Nat)} {t : α} {n m d : Nat}

theorem Inserted.keys (h : Inserted D D' l k k' t n m d) :
    t ∉ l.map Prod.fst ∧ (l.map Prod.fst).Nodup := by
  have hn := h.counted.links.nodup
  rw [List.map_append, List.map_cons, map_later_fst] at hn
  obtain ⟨h1, h2⟩ := List.nodup_middle.mp hn |> List.nodup_cons.mp
  rw [← List.map_append, ← h.split] at h1 h2
  exact ⟨h1, h2⟩

omit [DecidableEq α] in
theorem map_later_eq {l : List (α × Nat)} : l.map (laterBy d) = l ↔ d = 0 ∨ l = [] := by
  constructor
  · intro h
    cases l with
    | nil => exact Or.inr rfl
    | cons x l =>
      have e : x.2 + d = x.2 := congrArg Prod.snd (List.cons.inj h).1
      exact Or.inl (Nat.add_eq_left.mp e)
  · rintro (rfl | rfl)
    · exact List.map_id l
    · rfl

theorem filter_ne_self {l : List (α × Nat)} (h : t ∉ l.map Prod.fst) : l.filter (·.1 ≠ t) = l := by
  refine List.filter_eq_self.mpr fun x hx => decide_eq_true fun e => h ?_
  rw [← e]
  exact List.mem_map_of_mem hx

/-- The items other than `t` after the insertion. -/
theorem Inserted.others (h : Inserted D D' l k k' t n m d) :
    (k ++ (t, m) :: k'.map (laterBy d)).filter (·.1 ≠ t) = k ++ k'.map (laterBy d) := by
  have ht := h.keys.1
  rw [h.split, List.map_append, List.mem_append, not_or] at ht
  rw [List.filter_append, List.filter_cons_of_neg (by simp), filter_ne_self ht.1, filter_ne_self]
  rw [map_later_fst]
  exact ht.2

/-- The insertion did what it should: `t` has `n` ticks, and the other items stand in their
    order with what they had. -/
theorem Inserted.good_iff (h : Inserted D D' l k k' t n m d) :
    ((t, n) ∈ k ++ (t, m) :: k'.map (laterBy d) ∧
      (k ++ (t, m) :: k'.map (laterBy d)).filter (·.1 ≠ t) = l) ↔ Near n l := by
  have hmem : (t, n) ∈ k ++ (t, m) :: k'.map (laterBy d) ↔ m = n := by
    constructor
    · intro hm
      have e : (t, m) = (t, n) := List.inj_on_of_nodup_map h.counted.links.nodup (by simp) hm rfl
      exact congrArg Prod.snd e
    · rintro rfl
      simp
  rw [h.near, h.others, hmem, and_congr_right_iff]
  intro _
  rw [h.split, List.append_cancel_left_eq]
  exact map_later_eq

end Inserted

/-! ## Removal -/

/-- **Removal.** The items behind `t` keep their sums, unless the addition of the counter of `t`
    to the next one wraps around. -/
theorem remove_wrap {D : Delta α} {l1 l2 : List (α × Nat)} {t : α} {r : Nat}
    (h : Counted D (l1 ++ (t, r) :: l2)) :
    ∃ l2' d, Counted (D.remove t) (l1 ++ l2') ∧ (d = 0 ∨ d = 2 ^ 32) ∧ l2 = l2'.map (laterBy d) ∧
      (d = 0 ∨ l2 = [] ↔ ∀ y ∈ l2.head?, D.cnt y.1 + D.cnt t < 2 ^ 32) := by
  have hl : IsDList D.toLinks (l1.map Prod.fst ++ t :: l2.map Prod.fst) := by
    simpa using h.links
  have hnext := hl.next_split
  have hlinks := isDList_unlink hl
  obtain ⟨hd1, hr, hct, hd2⟩ := deltas_append.mp h.cnts
  cases l2 with
  | nil =>
    simp only [List.map_nil, List.head?_nil] at hnext
    refine ⟨[], 0, ⟨by simpa [Delta.remove] using hlinks, ?_, ?_⟩, Or.inl rfl, rfl, ?_⟩
    · simpa [Delta.remove, hnext] using hd1
    · simpa [Delta.remove, hnext] using fun x hx => h.word x (by simp [hx])
    · exact iff_of_true (Or.inl rfl) (fun _ hy => absurd hy (by simp))
  | cons y l2 =>
    simp only [List.map_cons, List.head?_cons] at hnext
    obtain ⟨hry, hcy, hd3⟩ := hd2
    have hwy := h.word y (by simp)
    have hwt : D.cnt t < 2 ^ 32 := h.word (t, r) (by simp)
    have hnd : ((l1.map Prod.fst ++ [t]) ++ y.1 :: l2.map Prod.fst).Nodup := by
      simpa using hl.nodup
    obtain ⟨d, hd⟩ : ∃ d, d = if D.cnt y.1 + D.cnt t < 2 ^ 32 then 0 else 2 ^ 32 := ⟨_, rfl⟩
    have hyd : d ≤ y.2 - lastRem 0 l1 := by
      rw [hd]
      split
      · exact Nat.zero_le _
      · omega
    have hsum : add32 (D.cnt y.1) (D.cnt t) = y.2 - d - lastRem 0 l1 := by
      rw [hd]
      unfold add32
      split <;> omega
    have hyd' : y.2 - d + d = y.2 := by omega
    obtain ⟨l2', hl2', hd4⟩ := (show Deltas D.cnt (y.2 - d + d) l2 by rw [hyd']; exact hd3).earlier
    have hne : ∀ z ∈ l1, z.1 ≠ y.1 := fun z hz e =>
      nodup_split_left hnd (List.mem_append_left _ (e ▸ List.mem_map_of_mem hz))
    have hne' : ∀ z ∈ l2', z.1 ≠ y.1 := fun z hz e => by
      refine nodup_split_right hnd ?_
      rw [hl2', map_later_fst]
      exact e ▸ List.mem_map_of_mem hz
    refine ⟨(y.1, y.2 - d) :: l2', d, ⟨?_, ?_, ?_⟩, ?_, ?_, ?_⟩
    · have e : (l2.map Prod.fst) = l2'.map Prod.fst := by rw [hl2', map_later_fst]
      simpa [Delta.remove, e] using hlinks
    · simp only [Delta.remove, hnext, hsum]
      refine deltas_append.mpr ⟨hd1.congr fun z hz => Function.update_of_ne (hne z hz) _ _, ?_, ?_,
        ?_⟩
      · omega
      · exact Function.update_self ..
      · exact hd4.congr fun z hz => Function.update_of_ne (hne' z hz) _ _
    · intro z hz
      simp only [Delta.remove, hnext]
      rcases List.mem_append.mp hz with hz | hz
      · rw [Function.update_of_ne (hne z hz)]
        exact h.word z (by simp [hz])
      · rcases List.mem_cons.mp hz with rfl | hz
        · rw [Function.update_self]
          exact Nat.mod_lt _ (by decide)
        · rw [Function.update_of_ne (hne' z hz)]
          refine h.word (laterBy d z) ?_
          rw [hl2']
          simp [List.mem_map_of_mem hz]
    · rw [hd]
      split
      · exact Or.inl rfl
      · exact Or.inr rfl
    · rw [List.map_cons, ← hl2']
      exact congrArg (· :: _) (Prod.ext rfl hyd'.symm)
    · rw [hd]
      constructor
      · rintro (h | h) z hz
        · rw [← Option.some.inj hz]
          split at h
          · next hc => exact hc
          · exact absurd h (by decide)
        · exact absurd h (by simp)
      · intro h
        exact Or.inl (if_pos (h y rfl))

/-! ## A counter that is set -/

/-- Setting the counter of an item moves the sums of all items behind it. -/
theorem setCnt_wrap {D : Delta α} {l1 l2 : List (α × Nat)} {t : α} {r c : Nat}
    (h : Counted D (l1 ++ (t, r) :: l2)) (hc : c < 2 ^ 32) :
    ∃ l2' : List (α × Nat), l2 = l2'.map (laterBy (D.cnt t)) ∧
      Counted ⟨D.toLinks,
        update D.cnt t c⟩ (l1 ++ (t, lastRem 0 l1 + c) :: l2'.map (laterBy c)) := by
  have hnd : (l1.map Prod.fst ++ t :: l2.map Prod.fst).Nodup := by simpa using h.links.nodup
  obtain ⟨hd1, hr, hct, hd2⟩ := deltas_append.mp h.cnts
  have hr' : lastRem 0 l1 + D.cnt t = r := by
    have e : D.cnt t = r - lastRem 0 l1 := hct
    omega
  rw [← hr'] at hd2
  obtain ⟨l2', rfl, hd3⟩ := hd2.earlier
  have hne : ∀ z ∈ l1, z.1 ≠ t := fun z hz e => nodup_split_left hnd (e ▸ List.mem_map_of_mem hz)
  have hne' : ∀ z ∈ l2', z.1 ≠ t := fun z hz e => by
    refine nodup_split_right hnd ?_
    rw [map_later_fst]
    exact e ▸ List.mem_map_of_mem hz
  refine ⟨l2', rfl, ?_, ?_, ?_⟩
  · have e : (l1 ++ (t, lastRem 0 l1 + c) :: l2'.map (laterBy c)).map Prod.fst =
        (l1 ++ (t, r) :: l2'.map (laterBy (D.cnt t))).map Prod.fst := by
      simp only [List.map_append, List.map_cons, map_later_fst]
    rw [e]
    exact h.links
  · refine deltas_append.mpr ⟨hd1.congr fun z hz => Function.update_of_ne (hne z hz) _ _,
      Nat.le_add_right _ _, ?_, (hd3.later c).congr fun z hz => ?_⟩
    · rw [Nat.add_sub_cancel_left]
      exact Function.update_self ..
    · obtain ⟨w, hw, rfl⟩ := List.mem_map.mp hz
      exact Function.update_of_ne (hne' w hw) _ _
  · intro z hz
    change update D.cnt t c z.1 < 2 ^ 32
    by_cases hzt : z.1 = t
    · rw [hzt, Function.update_self]
      exact hc
    · rw [Function.update_of_ne hzt]
      simp only [List.mem_append, List.mem_cons] at hz
      rcases hz with hz | rfl | hz
      · exact h.word z (by simp [hz])
      · exact absurd rfl hzt
      · obtain ⟨w, hw, rfl⟩ := List.mem_map.mp hz
        exact h.word (laterBy (D.cnt t) w) (by simp [List.mem_map_of_mem hw])

/-- **A counter that is set before its item moves.** Setting the counter of `t` to `c`, removing
    `t` and inserting it with `c` ticks is right when `t` was last or `c` is the old counter:
    otherwise the items behind `t` move by the difference. -/
theorem reinsert_wrap {D : Delta α} {l1 l2 : List (α × Nat)} {t : α} {r c fuel : Nat}
    (h : Counted D (l1 ++ (t, r) :: l2)) (hlt : ∀ x ∈ l2, x.2 < 2 ^ 32) (hc : c < 2 ^ 31)
    (hf : (l1 ++ (t, r) :: l2).length ≤ fuel) :
    ∃ D' l', (Delta.remove ⟨D.toLinks, update D.cnt t c⟩ t).insert fuel t c = some D' ∧
    Counted D' l' ∧
      ((t, c) ∈ l' ∧ l'.filter (·.1 ≠ t) = l1 ++ l2 ↔
        (l2 = [] ∨ c = D.cnt t) ∧ Near c (l1 ++ l2)) := by
  have hl : IsDList D.toLinks (l1.map Prod.fst ++ t :: l2.map Prod.fst) := by
    simpa using h.links
  obtain ⟨l2b, e2b, h1⟩ := setCnt_wrap h (hc.trans (by decide))
  obtain ⟨l2', d, h2, hd, e2', hcarry⟩ := remove_wrap h1
  have hkeys : (l1 ++ l2').map Prod.fst = l1.map Prod.fst ++ l2.map Prod.fst := by
    have e : l2'.map Prod.fst = l2b.map Prod.fst := by
      rw [← map_later_fst d l2', ← e2', map_later_fst]
    rw [List.map_append, e, e2b, map_later_fst]
  have ht : t ∉ (l1 ++ l2').map Prod.fst := by
    rw [hkeys, List.mem_append, not_or]
    exact ⟨nodup_split_left hl.nodup, nodup_split_right hl.nodup⟩
  have hnull := unlink_links hl
  have hlen : (l1 ++ l2').length ≤ fuel := by
    have e := congrArg List.length hkeys
    simp only [List.length_map, List.length_append] at e
    simp only [List.length_append, List.length_cons] at hf ⊢
    omega
  obtain ⟨D', k, k', m, d', h3, h4⟩ := insert_wrap h2 ht hnull.1 hnull.2 (hc.trans (by decide)) hlen
  refine ⟨D', _, h3, h4.counted, ?_⟩
  -- when the items behind `t` do not move, what is left is the insertion
  obtain ⟨-, hr, hct, hd2⟩ := deltas_append.mp h.cnts
  have hct' : D.cnt t = r - lastRem 0 l1 := hct
  have hword : D.cnt t < 2 ^ 32 := h.word (t, r) (by simp)
  have hsame : l2 = [] ∨ c = D.cnt t → l2' = l2 := by
    rintro (h0 | rfl)
    · rw [h0] at e2b ⊢
      rw [List.map_eq_nil_iff.mp e2b.symm] at e2'
      exact List.map_eq_nil_iff.mp e2'.symm
    · rw [← e2b] at e2' hcarry
      have hno : d = 0 ∨ l2 = [] := hcarry.mpr fun y hy => by
        obtain ⟨k2, rfl⟩ := List.head?_eq_some_iff.mp hy
        obtain ⟨h5, h6, -⟩ := hd2
        have h7 := hlt y List.mem_cons_self
        have hyt : y.1 ≠ t := fun e => nodup_split_right hl.nodup (by simp [e])
        simp only [Function.update_of_ne hyt, Function.update_self]
        omega
      rcases hno with rfl | h0
      · rw [e2', later_zero, List.map_id]
      · rw [h0] at e2' ⊢
        exact List.map_eq_nil_iff.mp e2'.symm
  constructor
  · rintro ⟨hm, hoth⟩
    have hcond : l2 = [] ∨ c = D.cnt t := by
      cases l2b with
      | nil => exact Or.inl e2b
      | cons yb l2b =>
        right
        cases l2' with
        | nil => exact absurd e2' (by simp)
        | cons y' l2' =>
          have ey : laterBy c yb = laterBy d y' := (List.cons.inj e2').1
          have ey1 : (laterBy c yb).1 = (laterBy d y').1 := congrArg Prod.fst ey
          have ey2 : yb.2 + c = y'.2 + d := congrArg Prod.snd ey
          have hnd := h4.keys.2
          have hy' : y' ∈ l1 ++ y' :: l2' := by simp
          -- the first item behind `t`, before and after
          have hy : laterBy (D.cnt t) yb ∈ k ++ k'.map (laterBy d') := by
            rw [← h4.others, hoth, e2b]
            simp
          rcases List.mem_append.mp hy with hy | hy
          · have hm : laterBy (D.cnt t) yb ∈ l1 ++ y' :: l2' := by
              rw [h4.split]
              exact List.mem_append_left _ hy
            have e : laterBy (D.cnt t) yb = y' := List.inj_on_of_nodup_map hnd hm hy' ey1
            have e2 : yb.2 + D.cnt t = y'.2 := congrArg Prod.snd e
            omega
          · obtain ⟨w, hw, e⟩ := List.mem_map.mp hy
            have e1 : (laterBy d' w).1 = (laterBy (D.cnt t) yb).1 := congrArg Prod.fst e
            have e2 : w.2 + d' = yb.2 + D.cnt t := congrArg Prod.snd e
            have hm : w ∈ l1 ++ y' :: l2' := by
              rw [h4.split]
              exact List.mem_append_right _ hw
            have e3 : w = y' := List.inj_on_of_nodup_map hnd hm hy' (e1.trans ey1)
            rw [e3] at e2
            have hd' := h4.wrapped
            omega
    rw [hsame hcond] at h4
    exact ⟨hcond, h4.good_iff.mp ⟨hm, hoth⟩⟩
  · rintro ⟨hcond, hn⟩
    rw [hsame hcond] at h4
    exact h4.good_iff.mpr hn

end DList
