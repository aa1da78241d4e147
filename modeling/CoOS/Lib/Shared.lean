/-
  A family of linked lists in the same link columns. Nothing here is about a kernel.

  An item is in at most one list of the family at a time: `loc a` names it. `Shared dbl C F`
  says that the columns `C` hold the lists `F`, that the lists with `dbl k` are doubly linked,
  and that an item in no list has null links.

  The one rule is `Shared.edit`: when an item enters or leaves the list `k`, and no link of an
  item outside `k` is written, the rest of the family stays as it is. `Shared.put` and
  `Shared.take` are its two uses.
-/
import CoOS.Lib.DList

namespace DList

open Function (update)

variable {κ α : Type} [DecidableEq κ] [DecidableEq α]

/-- The heads of the lists, and the link columns. -/
structure Cols (κ α : Type) where
  head : κ → Option α
  next : α → Option α
  prev : α → Option α

def Cols.links (C : Cols κ α) (k : κ) : Links α := ⟨C.head k, C.next, C.prev⟩

/-- The columns after an edit of the list `k`. -/
def Cols.set (C : Cols κ α) (k : κ) (L : Links α) : Cols κ α :=
  ⟨update C.head k L.head, L.next, L.prev⟩

/-- The lists, and where each item is. -/
structure Family (κ α : Type) where
  lst : κ → List α
  loc : α → Option κ

def Family.put (F : Family κ α) (k : κ) (a : α) (l : List α) : Family κ α :=
  ⟨update F.lst k l, update F.loc a (some k)⟩

def Family.take (F : Family κ α) (k : κ) (a : α) (l : List α) : Family κ α :=
  ⟨update F.lst k l, update F.loc a none⟩

section Family

variable (F : Family κ α) {k k' : κ} {a b : α} (l : List α)

@[simp] theorem Family.put_loc_self : (F.put k a l).loc a = some k := Function.update_self ..

@[simp] theorem Family.take_loc_self : (F.take k a l).loc a = none := Function.update_self ..

@[simp] theorem Family.put_lst_self : (F.put k a l).lst k = l := Function.update_self ..

@[simp] theorem Family.take_lst_self : (F.take k a l).lst k = l := Function.update_self ..

@[simp] theorem Family.put_loc_ne (h : b ≠ a) : (F.put k a l).loc b = F.loc b :=
  Function.update_of_ne h ..

@[simp] theorem Family.take_loc_ne (h : b ≠ a) : (F.take k a l).loc b = F.loc b :=
  Function.update_of_ne h ..

@[simp] theorem Family.put_lst_ne (h : k' ≠ k) : (F.put k a l).lst k' = F.lst k' :=
  Function.update_of_ne h ..

@[simp] theorem Family.take_lst_ne (h : k' ≠ k) : (F.take k a l).lst k' = F.lst k' :=
  Function.update_of_ne h ..

end Family

structure Shared (dbl : κ → Bool) (C : Cols κ α) (F : Family κ α) : Prop where
  single : ∀ k, IsSList (C.head k) C.next (F.lst k)
  double : ∀ k, dbl k = true → IsDList (C.links k) (F.lst k)
  mem : ∀ k a, a ∈ F.lst k ↔ F.loc a = some k
  off : ∀ a, F.loc a = none → C.next a = none ∧ C.prev a = none

section Edit

variable {dbl : κ → Bool} {C : Cols κ α} {F : Family κ α} {k : κ} {a : α} {L : Links α}
  {l : List α}

/-- The item `a` enters or leaves the list `k`. -/
theorem Shared.edit (h : Shared dbl C F) {o : Option κ} (ha : F.loc a = none ∨ F.loc a = some k)
    (hS : IsSList L.head L.next l) (hD : dbl k = true → IsDList L l)
    (hmem : ∀ x, x ∈ l ↔ update F.loc a o x = some k) (ho : o = none ∨ o = some k)
    (hfr : ∀ b, F.loc b ≠ some k → b ≠ a → L.next b = C.next b ∧ L.prev b = C.prev b)
    (hnull : o = none → L.next a = none ∧ L.prev a = none) :
    Shared dbl (C.set k L) ⟨update F.lst k l, update F.loc a o⟩ := by
  -- the items of another list
  have hother : ∀ k', k' ≠ k → ∀ b ∈ F.lst k', F.loc b ≠ some k ∧ b ≠ a := by
    intro k' hk b hb
    have hloc := (h.mem k' b).mp hb
    refine ⟨fun e => hk (Option.some.inj (hloc.symm.trans e)), fun e => ?_⟩
    rw [e] at hloc
    rcases ha with ha | ha
    · rw [ha] at hloc
      exact nomatch hloc
    · exact hk (Option.some.inj (hloc.symm.trans ha))
  refine ⟨?_, ?_, ?_, ?_⟩
  · intro k'
    by_cases hk : k' = k
    · subst hk
      simp only [Cols.set, Function.update_self]
      exact hS
    · simp only [Cols.set, Function.update_of_ne hk]
      refine (h.single k').congr rfl fun b hb => ?_
      obtain ⟨h1, h2⟩ := hother k' hk b hb
      exact (hfr b h1 h2).1
  · intro k' hd
    by_cases hk : k' = k
    · subst hk
      simp only [Cols.set, Cols.links, Function.update_self]
      exact hD hd
    · simp only [Cols.set, Cols.links, Function.update_of_ne hk]
      refine (h.double k' hd).congr rfl (fun b hb => ?_) (fun b hb => ?_)
      · obtain ⟨h1, h2⟩ := hother k' hk b hb
        exact (hfr b h1 h2).1
      · obtain ⟨h1, h2⟩ := hother k' hk b hb
        exact (hfr b h1 h2).2
  · intro k' x
    by_cases hk : k' = k
    · subst hk
      simp only [Function.update_self]
      exact hmem x
    · simp only [Function.update_of_ne hk]
      rw [h.mem k' x]
      by_cases hx : x = a
      · rw [hx, Function.update_self]
        constructor
        · intro e
          rcases ha with ha | ha
          · rw [ha] at e
            exact nomatch e
          · exact absurd (Option.some.inj (e.symm.trans ha)) hk
        · intro e
          rcases ho with ho | ho
          · rw [ho] at e
            exact nomatch e
          · exact absurd (Option.some.inj (e.symm.trans ho)) hk
      · rw [Function.update_of_ne hx]
  · intro x hx
    change L.next x = none ∧ L.prev x = none
    by_cases hxa : x = a
    · subst hxa
      simp only [Function.update_self] at hx
      exact hnull hx
    · simp only [Function.update_of_ne hxa] at hx
      rw [(hfr x (by rw [hx]; exact fun e => nomatch e) hxa).1,
        (hfr x (by rw [hx]; exact fun e => nomatch e) hxa).2]
      exact h.off x hx

/-- An item without a list enters the list `k`. -/
theorem Shared.put (h : Shared dbl C F) (ha : F.loc a = none) (hS : IsSList L.head L.next l)
    (hD : dbl k = true → IsDList L l) (hmem : ∀ x, x ∈ l ↔ x = a ∨ x ∈ F.lst k)
    (hfr : ∀ b, F.loc b ≠ some k → b ≠ a → L.next b = C.next b ∧ L.prev b = C.prev b) :
    Shared dbl (C.set k L) (F.put k a l) := by
  refine h.edit (Or.inl ha) hS hD (fun x => ?_) (Or.inr rfl) hfr (fun e => nomatch e)
  rw [hmem x, h.mem k x]
  by_cases hx : x = a
  · simp [hx]
  · simp [hx]

/-- An item leaves the list `k`, with null links. -/
theorem Shared.take (h : Shared dbl C F) (ha : F.loc a = some k) (hS : IsSList L.head L.next l)
    (hD : dbl k = true → IsDList L l) (hmem : ∀ x, x ∈ l ↔ x ≠ a ∧ x ∈ F.lst k)
    (hfr : ∀ b, F.loc b ≠ some k → b ≠ a → L.next b = C.next b ∧ L.prev b = C.prev b)
    (hnull : L.next a = none ∧ L.prev a = none) : Shared dbl (C.set k L) (F.take k a l) := by
  refine h.edit (Or.inr ha) hS hD (fun x => ?_) (Or.inl rfl) hfr (fun _ => hnull)
  rw [hmem x, h.mem k x]
  by_cases hx : x = a
  · simp [hx]
  · simp [hx]

omit [DecidableEq κ] in
/-- An item is in one list only. -/
theorem Shared.not_mem (h : Shared dbl C F) {k' : κ} (ha : F.loc a = some k') (hk : k' ≠ k) :
    a ∉ F.lst k := by
  rw [h.mem k a, ha]
  exact fun e => hk (Option.some.inj e)

omit [DecidableEq κ] in
theorem Shared.not_mem_of_off (h : Shared dbl C F) (ha : F.loc a = none) : a ∉ F.lst k := by
  rw [h.mem k a, ha]
  exact fun e => nomatch e

end Edit

/-! ## Singly linked lists -/

section Single

variable {hd : Option α} {next : α → Option α} {l : List α} {t p : α}

/-- The head leaves. -/
theorem isSList_tail (h : IsSList hd next (t :: l)) : IsSList (next t) (update next t none) l := by
  obtain ⟨ht, hnd⟩ := List.nodup_cons.mp h.nodup
  refine ⟨?_, hnd, ?_⟩
  · rw [h.next t (by simp), nextIn_cons_self]
  · intro a ha
    have hat : a ≠ t := fun e => ht (e ▸ ha)
    rw [Function.update_of_ne hat, h.next a (by simp [ha]), nextIn, if_neg hat]

/-- An item becomes the head. -/
theorem isSList_push (h : IsSList hd next l) (ht : t ∉ l) :
    IsSList (some t) (update next t hd) (t :: l) := by
  refine ⟨rfl, List.nodup_cons.mpr ⟨ht, h.nodup⟩, ?_⟩
  intro a ha
  by_cases hat : a = t
  · rw [hat, Function.update_self, nextIn_cons_self, h.head]
  · have hal : a ∈ l := by simpa [hat] using ha
    rw [Function.update_of_ne hat, nextIn, if_neg hat, h.next a hal]

/-- An item is put after the last one. -/
theorem isSList_append (h : IsSList hd next (l ++ [p])) (ht : t ∉ l ++ [p]) :
    IsSList hd (update (update next p (some t)) t none) (l ++ [p, t]) := by
  have hnd : (l ++ [p] ++ []).Nodup := by simpa using h.nodup
  have e : l ++ [p, t] = (l ++ [p]) ++ t :: [] := by simp
  have htp : t ≠ p := fun e => ht (by simp [e])
  rw [e]
  refine ⟨?_, nodup_insert hnd (by simpa using ht), ?_⟩
  · rw [h.head]
    cases l with
    | nil => rfl
    | cons x l => rfl
  · refine next_insert hnd (by simpa using ht) (by simpa using h.next) ?_ ?_ ?_
    · intro q hq
      obtain rfl : p = q := by simpa using hq
      rw [Function.update_of_ne htp.symm, Function.update_self]
    · rw [Function.update_self]
      rfl
    · intro a ha hap
      have hat : a ≠ t := by
        rintro rfl
        exact ht (by simpa using ha)
      rw [Function.update_of_ne hat, Function.update_of_ne (ne_last hap)]

end Single

end DList
