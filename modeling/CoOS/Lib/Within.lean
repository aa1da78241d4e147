/-
  Links that stay in a set. When a set is closed under `next` and `prev` and holds the head, the
  edits at items of the set keep it closed and do not touch the items outside. Nothing here is about
  a kernel, and the links need not form a list.
-/
import CoOS.Lib.Delta

namespace DList

open Function (update)

variable {α : Type} [DecidableEq α]

/-- The head and the links of the items of `S` lead into `S`. -/
structure Links.Within (S : α → Prop) (L : Links α) : Prop where
  head : ∀ a, L.head = some a → S a
  next : ∀ a b, S a → L.next a = some b → S b
  prev : ∀ a b, S a → L.prev a = some b → S b

/-- The items outside `S` have the same links. -/
def Links.SameOff (S : α → Prop) (L L' : Links α) : Prop :=
  ∀ a, ¬ S a → L'.next a = L.next a ∧ L'.prev a = L.prev a

section Within

variable {S : α → Prop} {L L' L'' : Links α} {p t : α}

omit [DecidableEq α] in
theorem Links.SameOff.trans (h : L.SameOff S L') (h' : L'.SameOff S L'') : L.SameOff S L'' :=
  fun a ha => ⟨(h' a ha).1.trans (h a ha).1, (h' a ha).2.trans (h a ha).2⟩

theorem update_within {f : α → Option α} {x : α} {v : Option α}
    (hf : ∀ a b, S a → f a = some b → S b) (hv : ∀ b, v = some b → S b) :
    ∀ a b, S a → update f x v a = some b → S b := by
  intro a b ha hb
  by_cases hax : a = x
  · rw [hax, Function.update_self] at hb
    exact hv b hb
  · rw [Function.update_of_ne hax] at hb
    exact hf a b ha hb

theorem update_off {f : α → Option α} {x a : α} (hx : S x) (ha : ¬ S a) (v : Option α) :
    update f x v a = f a := by
  have hne : a ≠ x := fun e => ha (e.symm ▸ hx)
  exact Function.update_of_ne hne ..

omit [DecidableEq α] in
theorem within_none : ∀ b, (none : Option α) = some b → S b := fun _ e => nomatch e

omit [DecidableEq α] in
theorem within_some (h : S t) : ∀ b, some t = some b → S b := fun _ e => Option.some.inj e ▸ h

theorem Links.Within.unlink (h : L.Within S) (ht : S t) :
    (L.unlink t).Within S ∧ L.SameOff S (L.unlink t) := by
  unfold Links.unlink
  split
  · exact ⟨⟨within_none, h.next, h.prev⟩, fun _ _ => ⟨rfl, rfl⟩⟩
  · next n hn _ =>
    have hSn : S n := h.next t n ht hn
    exact ⟨⟨within_some hSn, update_within h.next within_none, update_within h.prev within_none⟩,
      fun a ha => ⟨update_off ht ha _, update_off hSn ha _⟩⟩
  · next p _ hp =>
    have hSp : S p := h.prev t p ht hp
    exact ⟨⟨h.head, update_within h.next within_none, update_within h.prev within_none⟩,
      fun a ha => ⟨update_off hSp ha _, update_off ht ha _⟩⟩
  · next n p hn hp =>
    have hSn : S n := h.next t n ht hn
    have hSp : S p := h.prev t p ht hp
    refine ⟨⟨h.head, update_within (update_within h.next (within_some hSn)) within_none,
      update_within (update_within h.prev (within_some hSp)) within_none⟩, fun a ha => ⟨?_, ?_⟩⟩
    · exact (update_off ht ha _).trans (update_off hSp ha _)
    · exact (update_off ht ha _).trans (update_off hSn ha _)

theorem Links.Within.pushFront (h : L.Within S) (ht : S t) :
    (L.pushFront t).Within S ∧ L.SameOff S (L.pushFront t) := by
  unfold Links.pushFront
  split
  · exact ⟨⟨within_some ht, h.next, h.prev⟩, fun _ _ => ⟨rfl, rfl⟩⟩
  · next x hx =>
    have hSx : S x := h.head x hx
    exact ⟨⟨within_some ht, update_within h.next (within_some hSx),
      update_within h.prev (within_some ht)⟩, fun a ha => ⟨update_off ht ha _, update_off hSx ha _⟩⟩

theorem Links.Within.insertAfter (h : L.Within S) (hp : S p) (ht : S t) :
    (L.insertAfter p t).Within S ∧ L.SameOff S (L.insertAfter p t) := by
  have hn : ∀ b, L.next p = some b → S b := fun b hb => h.next p b hp hb
  have hnext : ∀ a b, S a → (L.insertAfter p t).next a = some b → S b :=
    update_within (update_within h.next hn) (within_some ht)
  have hprev : ∀ a b, S a → update L.prev t (some p) a = some b → S b :=
    update_within h.prev (within_some hp)
  have hoff : ∀ a, ¬ S a → (L.insertAfter p t).next a = L.next a := fun a ha =>
    (update_off hp ha _).trans (update_off ht ha _)
  unfold Links.insertAfter at hnext hoff ⊢
  dsimp only at hnext hoff ⊢
  split
  · exact ⟨⟨h.head, hnext, hprev⟩, fun a ha => ⟨hoff a ha, update_off ht ha _⟩⟩
  · next n e =>
    have hSn : S n := hn n e
    exact ⟨⟨h.head, hnext, update_within hprev (within_some ht)⟩,
      fun a ha => ⟨hoff a ha, (update_off hSn ha _).trans (update_off ht ha _)⟩⟩

theorem Links.Within.append (h : L.Within S) (hp : S p) (ht : S t) :
    (L.append p t).Within S ∧ L.SameOff S (L.append p t) :=
  ⟨⟨h.head, update_within h.next (within_some ht), update_within h.prev (within_some hp)⟩,
    fun _ ha => ⟨update_off hp ha _, update_off ht ha _⟩⟩

theorem Links.Within.insertBefore {q : α} (h : L.Within S) (hq : S q) (ht : S t) :
    (L.insertBefore q t).Within S ∧ L.SameOff S (L.insertBefore q t) := by
  unfold Links.insertBefore
  split
  · next p e =>
    have hp : S p := h.prev q p hq e
    refine ⟨⟨h.head, update_within (update_within h.next (within_some ht)) (within_some hq),
      update_within (update_within h.prev (within_some hp)) (within_some ht)⟩, fun a ha => ⟨?_, ?_⟩⟩
    · exact (update_off ht ha _).trans (update_off hp ha _)
    · exact (update_off hq ha _).trans (update_off ht ha _)
  · exact h.pushFront ht

/-! ## Delta lists -/

/-- The item where the search ends. -/
def Place.item : Place α → α
  | .before q _ => q
  | .after p _ => p

omit [DecidableEq α] in
theorem findPlace_within {next : α → Option α} {cnt : α → Nat} {r : Place α}
    (hn : ∀ a b, S a → next a = some b → S b) (fuel : Nat) :
    ∀ {cur : α} {k : Nat}, S cur → findPlace next cnt fuel cur k = some r → S r.item := by
  induction fuel with
  | zero => exact fun _ e => nomatch e
  | succ fuel ih =>
    intro cur k hc e
    unfold findPlace at e
    split at e
    · rw [← Option.some.inj e]
      exact hc
    · split at e
      · rw [← Option.some.inj e]
        exact hc
      · next n he => exact ih (hn cur n hc he) e

variable {D D' : Delta α}

theorem Delta.insert_within {fuel ticks : Nat} (h : D.toLinks.Within S) (ht : S t)
    (e : D.insert fuel t ticks = some D') :
    D'.toLinks.Within S ∧ D.toLinks.SameOff S D'.toLinks := by
  unfold Delta.insert at e
  split at e
  · rw [← Option.some.inj e]
    exact h.pushFront ht
  · next hd he =>
    split at e
    · exact nomatch e
    · next q k hq =>
      rw [← Option.some.inj e]
      exact h.insertBefore (findPlace_within h.next fuel (h.head hd he) hq) ht
    · next q k hq =>
      rw [← Option.some.inj e]
      exact h.append (findPlace_within h.next fuel (h.head hd he) hq) ht

end Within

end DList
