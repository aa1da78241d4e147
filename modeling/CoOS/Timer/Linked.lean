/-
  The timer list whatever the counts are: 0, which `InsertTmrList` declines to link, and sums
  that no longer fit in 32 bits.

  `TmrLinked` says which timers are linked; every call keeps it, as long as a running timer that
  is stopped, deleted or set is linked. `RemoveTmrList` of a running timer that is not linked
  empties the list.
-/
import CoOS.Lib.Wrap
import CoOS.Timer.Run

namespace CoOS

open Function (update)
open DList KeyOrder

/-- No request waits for the lock to be released. -/
def NoneDeferred (s : Kernel) : Prop := s.OSSchedLock = 0 → s.IsrReq = false

/-- The timers of `l` are linked with their ticks to go, running and created. -/
structure TmrLinked (cfg : Env) (m : Tmr) (l : List (Nat × Nat)) : Prop where
  counted : Counted m.delta l
  lt : ∀ t ∈ l.map Prod.fst, t < cfg.maxTmr
  run : ∀ t ∈ l.map Prod.fst, m.tmrRunning t = true ∧ m.TmrIDVessel t = true
  off : ∀ t, t ∉ l.map Prod.fst → m.tmrNext t = none ∧ m.tmrPrev t = none
  word : ∀ t, m.tmrCnt t < 2 ^ 32
  reload : ∀ t, m.tmrReload t < 2 ^ 31

/-- The timer `t` is linked. -/
def Tmr.Linked (m : Tmr) (t : Nat) : Prop := m.TmrList = some t ∨ m.tmrPrev t ≠ none

instance (m : Tmr) (t : Nat) : Decidable (m.Linked t) := inferInstanceAs (Decidable (_ ∨ _))

/-! ## Edits of the list -/

section Edits

variable {cfg : Env} {m m' : Tmr} {l l1 l2 : List (Nat × Nat)} {t u r n : Nat}

theorem TmrLinked.linked_iff (h : TmrLinked cfg m l) : m.Linked t ↔ t ∈ l.map Prod.fst := by
  constructor
  · intro ht
    by_contra hn
    obtain ⟨-, hp⟩ := h.off t hn
    rcases ht with ht | ht
    · have hh : m.TmrList = (l.map Prod.fst).head? := h.counted.links.head
      rw [ht] at hh
      exact hn (List.mem_of_mem_head? hh.symm)
    · exact ht hp
  · intro ht
    obtain ⟨x, hx, rfl⟩ := List.mem_map.mp ht
    obtain ⟨l1, l2, rfl⟩ := List.append_of_mem hx
    have hl : IsDList m.delta.toLinks (l1.map Prod.fst ++ x.1 :: l2.map Prod.fst) := by
      simpa using h.counted.links
    cases hl1 : l1.map Prod.fst with
    | nil =>
      rw [hl1] at hl
      exact Or.inl hl.head
    | cons a k =>
      have hp := hl.prev_split
      rw [hl1] at hp
      have hp' : m.tmrPrev x.1 = (a :: k).getLast? := hp
      refine Or.inr fun e => ?_
      rw [e] at hp'
      exact absurd (List.getLast?_eq_none_iff.mp hp'.symm) (List.cons_ne_nil a k)

theorem TmrLinked.length_le (h : TmrLinked cfg m l) : l.length ≤ cfg.maxTmr := by
  have hle := length_le_of_lt h.counted.links.nodup h.lt
  rwa [List.length_map] at hle

/-- What is known of a timer outside the list may change. -/
theorem TmrLinked.outside (h : TmrLinked cfg m l) (hu : u ∉ l.map Prod.fst)
    (hh : m'.TmrList = m.TmrList)
    (ho : ∀ a, a ≠ u → m'.tmrNext a = m.tmrNext a ∧ m'.tmrPrev a = m.tmrPrev a ∧
      m'.tmrCnt a = m.tmrCnt a ∧ m'.tmrRunning a = m.tmrRunning a ∧
      m'.TmrIDVessel a = m.TmrIDVessel a)
    (hn : m'.tmrNext u = none ∧ m'.tmrPrev u = none) (hw : m'.tmrCnt u < 2 ^ 32)
    (hr : ∀ a, m'.tmrReload a < 2 ^ 31) : TmrLinked cfg m' l := by
  have hne : ∀ a ∈ l.map Prod.fst, a ≠ u := fun a ha e => hu (e ▸ ha)
  have hcnt : ∀ x ∈ l, m'.tmrCnt x.1 = m.tmrCnt x.1 := fun x hx =>
    (ho x.1 (hne x.1 (List.mem_map_of_mem hx))).2.2.1
  refine ⟨⟨?_, h.counted.cnts.congr hcnt, fun x hx => ?_⟩, h.lt, fun a ha => ?_, fun a ha => ?_,
    fun a => ?_, hr⟩
  · exact h.counted.links.congr hh (fun a ha => (ho a (hne a ha)).1)
      (fun a ha => (ho a (hne a ha)).2.1)
  · exact (hcnt x hx).trans_lt (h.counted.word x hx)
  · obtain ⟨-, -, -, h4, h5⟩ := ho a (hne a ha)
    rw [h4, h5]
    exact h.run a ha
  · by_cases hau : a = u
    · rw [hau]
      exact hn
    · obtain ⟨h1, h2, -⟩ := ho a hau
      rw [h1, h2]
      exact h.off a ha
  · by_cases hau : a = u
    · rw [hau]
      exact hw
    · rw [(ho a hau).2.2.1]
      exact h.word a

/-- A timer leaves the list. -/
theorem TmrLinked.remove (h : TmrLinked cfg m (l1 ++ (t, r) :: l2)) :
    ∃ l2' d, TmrLinked cfg (m.setDelta (m.delta.remove t)) (l1 ++ l2') ∧ l2 = l2'.map (laterBy d) ∧
      (d = 0 ∨ d = 2 ^ 32) ∧
      (d = 0 ∨ l2 = [] ↔ ∀ y ∈ l2.head?, m.tmrCnt y.1 + m.tmrCnt t < 2 ^ 32) ∧
      t ∉ (l1 ++ l2').map Prod.fst ∧ (m.delta.remove t).cnt t = m.tmrCnt t := by
  have hl : IsDList m.delta.toLinks (l1.map Prod.fst ++ t :: l2.map Prod.fst) := by
    simpa using h.counted.links
  have hfr := remove_frame h.counted.links
  obtain ⟨l2', d, h1, h2, h3, h4⟩ := remove_wrap h.counted
  have hkeys : (l1 ++ l2').map Prod.fst = l1.map Prod.fst ++ l2.map Prod.fst := by
    rw [List.map_append, h3, map_later_fst]
  have hsub : ∀ a ∈ (l1 ++ l2').map Prod.fst, a ∈ (l1 ++ (t, r) :: l2).map Prod.fst := by
    intro a ha
    rw [hkeys] at ha
    simp only [List.map_append, List.map_cons, List.mem_append, List.mem_cons] at ha ⊢
    tauto
  have ht : t ∉ (l1 ++ l2').map Prod.fst := by
    rw [hkeys, List.mem_append, not_or]
    exact ⟨nodup_split_left hl.nodup, nodup_split_right hl.nodup⟩
  have hself := remove_cnt_self h.counted.links
  refine ⟨l2', d, ⟨h1, fun a ha => h.lt a (hsub a ha), fun a ha => h.run a (hsub a ha), ?_, ?_,
    h.reload⟩, h3, h2, h4, ht, hself⟩
  · intro a ha
    change (m.delta.remove t).next a = none ∧ (m.delta.remove t).prev a = none
    by_cases hat : a = t
    · rw [hat]
      exact unlink_links hl
    · have ha' : a ∉ (l1 ++ (t, r) :: l2).map Prod.fst := by
        rw [hkeys] at ha
        simp only [List.map_append, List.map_cons, List.mem_append, List.mem_cons] at ha ⊢
        tauto
      rw [hfr.next a ha' hat, hfr.prev a ha' hat]
      exact h.off a ha'
  · intro a
    change (m.delta.remove t).cnt a < 2 ^ 32
    by_cases ha : a ∈ (l1 ++ l2').map Prod.fst
    · obtain ⟨x, hx, rfl⟩ := List.mem_map.mp ha
      exact h1.word x hx
    · by_cases hat : a = t
      · rw [hat, hself]
        exact h.word t
      · have ha' : a ∉ (l1 ++ (t, r) :: l2).map Prod.fst := by
          rw [hkeys] at ha
          simp only [List.map_append, List.map_cons, List.mem_append, List.mem_cons] at ha ⊢
          tauto
        rw [hfr.cnt a ha' hat]
        exact h.word a

/-- A running timer enters the list. -/
theorem TmrLinked.insert (h : TmrLinked cfg m l) (ht : t ∉ l.map Prod.fst) (htm : t < cfg.maxTmr)
    (hrun : m.tmrRunning t = true ∧ m.TmrIDVessel t = true) (hn : n < 2 ^ 32) :
    ∃ D k k' q d, m.delta.insert cfg.maxTmr t n = some D ∧ Inserted m.delta D l k k' t n q d ∧
      TmrLinked cfg (m.setDelta D) (k ++ (t, q) :: k'.map (laterBy d)) := by
  obtain ⟨hnx, hpv⟩ := h.off t ht
  obtain ⟨D, k, k', q, d, h1, h2⟩ := insert_wrap h.counted ht hnx hpv hn h.length_le
  have hmem : ∀ a, a ∈ (k ++ (t, q) :: k'.map (laterBy d)).map Prod.fst ↔ a = t ∨
    a ∈ l.map Prod.fst := by
    intro a
    rw [List.map_append, List.map_cons, map_later_fst, h2.split, List.map_append]
    simp only [List.mem_append, List.mem_cons]
    tauto
  refine ⟨D, k, k', q, d, h1, h2, h2.counted, fun a ha => ?_, fun a ha => ?_, fun a ha => ?_,
    fun a => ?_,
    h.reload⟩
  · rcases (hmem a).mp ha with rfl | ha
    · exact htm
    · exact h.lt a ha
  · rcases (hmem a).mp ha with rfl | ha
    · exact hrun
    · exact h.run a ha
  · obtain ⟨h3, h4⟩ := not_or.mp (mt (hmem a).mpr ha)
    change D.next a = none ∧ D.prev a = none
    rw [h2.frame.next a h4 h3, h2.frame.prev a h4 h3]
    exact h.off a h4
  · change D.cnt a < 2 ^ 32
    by_cases ha : a ∈ (k ++ (t, q) :: k'.map (laterBy d)).map Prod.fst
    · obtain ⟨x, hx, rfl⟩ := List.mem_map.mp ha
      exact h2.counted.word x hx
    · obtain ⟨h3, h4⟩ := not_or.mp (mt (hmem a).mpr ha)
      rw [h2.frame.cnt a h4 h3]
      exact h.word a

/-- Counters are written, and the links stay. -/
theorem TmrLinked.recount (h : TmrLinked cfg m l) {cnt reload : Nat → Nat}
    (hc : Counted ⟨m.delta.toLinks, cnt⟩ l2) (hkeys : l2.map Prod.fst = l.map Prod.fst)
    (hw : ∀ a, cnt a < 2 ^ 32) (hr : ∀ a, reload a < 2 ^ 31) :
    TmrLinked cfg { m with tmrCnt := cnt, tmrReload := reload } l2 := by
  obtain ⟨-, h2, h3, h4, -, -⟩ := h
  rw [← hkeys] at h2 h3 h4
  exact ⟨hc, h2, h3, h4, hw, hr⟩

/-- The counter of a timer is set, in the list or not. -/
theorem TmrLinked.setCnt (h : TmrLinked cfg m l) (t : Nat) {c r : Nat} (hc : c < 2 ^ 32)
    (hr : r < 2 ^ 31) :
    ∃ l', TmrLinked cfg
    { m with tmrCnt := update m.tmrCnt t c, tmrReload := update m.tmrReload t r } l' ∧
      l'.map Prod.fst = l.map Prod.fst := by
  have hrl : ∀ a, update m.tmrReload t r a < 2 ^ 31 := fun a => by
    by_cases ha : a = t
    · rw [ha, Function.update_self]
      exact hr
    · rw [Function.update_of_ne ha]
      exact h.reload a
  have hcn : ∀ a, update m.tmrCnt t c a < 2 ^ 32 := fun a => by
    by_cases ha : a = t
    · rw [ha, Function.update_self]
      exact hc
    · rw [Function.update_of_ne ha]
      exact h.word a
  by_cases ht : t ∈ l.map Prod.fst
  · obtain ⟨x, hx, rfl⟩ := List.mem_map.mp ht
    obtain ⟨l1, l2, rfl⟩ := List.append_of_mem hx
    obtain ⟨l2', e, h1⟩ := setCnt_wrap (t := x.1) (r := x.2) h.counted hc
    have hkeys : (l1 ++ (x.1, lastRem 0 l1 + c) :: l2'.map (laterBy c)).map Prod.fst =
        (l1 ++ x :: l2).map Prod.fst := by
      rw [e]
      simp only [List.map_append, List.map_cons, map_later_fst]
    exact ⟨_, h.recount h1 hkeys hcn hrl, hkeys⟩
  · refine ⟨l, h.outside ht rfl (fun a ha => ⟨rfl, rfl, Function.update_of_ne ha .., rfl, rfl⟩)
      (h.off t ht)
      (hcn t) hrl, rfl⟩

/-- A tick: the first counter is lowered. -/
theorem TmrLinked.tick (h : TmrLinked cfg m ((t, r) :: l)) :
    ∃ l', TmrLinked cfg { m with tmrCnt := update m.tmrCnt t (m.tmrCnt t - 1) } l' ∧
      (0 < r → l' = ((t, r) :: l).map fun x => (x.1, x.2 - 1)) := by
  have hcr : m.tmrCnt t = r := h.counted.cnts.2.1
  have hc : m.tmrCnt t - 1 < 2 ^ 32 := (Nat.sub_le ..).trans_lt (h.word t)
  obtain ⟨l2, e, h1⟩ := setCnt_wrap (show Counted m.delta ([] ++ (t, r) :: l) from h.counted) hc
  have e' : l = l2.map (laterBy r) := by
    rw [← hcr]
    exact e
  refine ⟨(t, m.tmrCnt t - 1) :: l2.map (laterBy (m.tmrCnt t - 1)), ?_, fun hpos => ?_⟩
  · have hkeys : ((t, m.tmrCnt t - 1) :: l2.map (laterBy (m.tmrCnt t - 1))).map Prod.fst =
        ((t, r) :: l).map Prod.fst := by
      rw [e']
      simp only [List.map_cons, map_later_fst]
    refine h.recount ?_ hkeys (fun a => ?_) h.reload
    · have h2 : Counted ⟨m.delta.toLinks, update m.tmrCnt t (m.tmrCnt t - 1)⟩
          ([] ++ (t, 0 + (m.tmrCnt t - 1)) :: l2.map (laterBy (m.tmrCnt t - 1))) := h1
      rw [Nat.zero_add] at h2
      exact h2
    · by_cases ha : a = t
      · rw [ha, Function.update_self]
        exact hc
      · rw [Function.update_of_ne ha]
        exact h.word a
  · rw [e', hcr, List.map_cons, List.map_map]
    refine congrArg (_ :: ·) (List.map_congr_left fun x _ => Prod.ext rfl ?_)
    change x.2 + (r - 1) = x.2 + r - 1
    omega

end Edits

/-! ## The functions of timer.c -/

section Functions

variable {cfg : Env} {s s' : Kernel} {l : List (Nat × Nat)} {t : Nat}

theorem NoneDeferred.view (hq : NoneDeferred s) {m : Tmr}
    (h : s'.tmrView = { s.tmrView with tmr := m }) : NoneDeferred s' := by
  have h1 : s'.OSSchedLock = s.OSSchedLock := congrArg TmrView.lock h
  have h2 : s'.IsrReq = s.IsrReq := congrArg TmrView.isr h
  unfold NoneDeferred
  rw [h1, h2]
  exact hq

theorem written_view {m : Tmr} (h : s'.tmrView = { s.tmrView with tmr := m }) (m' : Tmr) :
    Kernel.tmrView { s' with tmr := m' } = { s.tmrView with tmr := m' } := by
  change { s'.tmrView with tmr := m' } = _
  rw [h]

/-- A section of `timer.c`: the timers are written under the lock. -/
theorem section_view (hq : NoneDeferred s) {m : Tmr}
    (h : osSchedUnlock cfg { osSchedLock s with tmr := m } = some s') :
    s'.tmrView = { s.tmrView with tmr := m } := by
  by_cases hl : s.OSSchedLock = 0
  · exact osSchedUnlock_tmrView (s := { osSchedLock s with tmr := m }) (hq hl) h
  · have hl' : s.OSSchedLock + 1 ≠ 1 := fun e => hl (Nat.succ.inj e)
    rw [osSchedUnlock_nested cfg (s := { osSchedLock s with tmr := m }) hl'] at h
    rw [← Option.some.inj h]
    rfl

theorem removeTmrList_view (hq : NoneDeferred s) (h : removeTmrList cfg s t = some s') :
    s'.tmrView = { s.tmrView with tmr := s.tmr.setDelta (s.tmr.delta.remove t) } :=
  section_view hq h

theorem insertTmrList_view (hq : NoneDeferred s) (h : insertTmrList cfg s t = some s')
    (h0 : s.tmr.tmrCnt t ≠ 0) :
    ∃ D, s.tmr.delta.insert cfg.maxTmr t (s.tmr.tmrCnt t) = some D ∧
      s'.tmrView = { s.tmrView with tmr := s.tmr.setDelta D } := by
  unfold insertTmrList at h
  rw [if_neg h0] at h
  obtain ⟨D, hD, h1⟩ := Option.bind_eq_some_iff.mp h
  exact ⟨D, hD, section_view hq h1⟩

/-- `RemoveTmrList` of a linked timer. -/
theorem removeTmrList_linked (hq : NoneDeferred s) (hl : TmrLinked cfg s.tmr l)
    (ht : t ∈ l.map Prod.fst)
    (h : removeTmrList cfg s t = some s') :
    ∃ l1 l2 l2' r d, l = l1 ++ (t, r) :: l2 ∧ TmrLinked cfg s'.tmr (l1 ++ l2') ∧
    l2 = l2'.map (laterBy d) ∧
      (d = 0 ∨ d = 2 ^ 32) ∧
      (d = 0 ∨ l2 = [] ↔ ∀ y ∈ l2.head?, s.tmr.tmrCnt y.1 + s.tmr.tmrCnt t < 2 ^ 32) ∧
      t ∉ (l1 ++ l2').map Prod.fst ∧ s'.tmr.tmrCnt t = s.tmr.tmrCnt t ∧
      s'.tmrView = { s.tmrView with tmr := s.tmr.setDelta (s.tmr.delta.remove t) } := by
  obtain ⟨x, hx, rfl⟩ := List.mem_map.mp ht
  obtain ⟨l1, l2, rfl⟩ := List.append_of_mem hx
  have hv := removeTmrList_view hq h
  obtain ⟨l2', d, h1, h2, h3, h4, h5, h6⟩ := TmrLinked.remove (t := x.1) (r := x.2) hl
  have e : s'.tmr = s.tmr.setDelta (s.tmr.delta.remove x.1) := congrArg TmrView.tmr hv
  exact ⟨l1, l2, l2', x.2, d, rfl, by rw [e]; exact h1, h2, h3, h4, h5, by rw [e]; exact h6, hv⟩

/-- The timers other than `t` keep their place and their ticks. -/
def Undisturbed (t : Nat) (l l' : List (Nat × Nat)) : Prop :=
  ∀ b q, b ≠ t → (b, q) ∈ l → (b, q) ∈ l'

theorem Undisturbed.refl (t : Nat) (l : List (Nat × Nat)) : Undisturbed t l l := fun _ _ _ h => h

theorem mem_inserted {D D' : Delta Nat} {k k' : List (Nat × Nat)} {n q d : Nat}
    (h : Inserted D D' l k k' t n q d) (hn : Near n l) (x : Nat × Nat) :
    x ∈ k ++ (t, q) :: k'.map (laterBy d) ↔ x = (t, n) ∨ x ∈ l := by
  obtain ⟨hq, hd⟩ := h.near.mp hn
  rw [map_later_eq.mpr hd, h.split, hq]
  simp only [List.mem_append, List.mem_cons]
  tauto

/-- The addition of `RemoveTmrList` does not wrap around. -/
def NoCarry (m : Tmr) (t : Nat) : Prop :=
  ∀ n, m.tmrNext t = some n → m.tmrCnt n + m.tmrCnt t < 2 ^ 32

theorem removeTmrList_keeps (hq : NoneDeferred s) (hl : TmrLinked cfg s.tmr l)
    (ht : t ∈ l.map Prod.fst)
    (h : removeTmrList cfg s t = some s') :
    ∃ l', TmrLinked cfg s'.tmr l' ∧ t ∉ l'.map Prod.fst ∧ s'.tmr.tmrCnt t = s.tmr.tmrCnt t ∧
      (NoCarry s.tmr t → ∀ x, x ∈ l' ↔ x.1 ≠ t ∧ x ∈ l) ∧
      s'.tmrView = { s.tmrView with tmr := s.tmr.setDelta (s.tmr.delta.remove t) } := by
  obtain ⟨l1, l2, l2', r, d, e, h1, h2, -, h4, h5, h6, h7⟩ := removeTmrList_linked hq hl ht h
  refine ⟨l1 ++ l2', h1, h5, h6, fun hc => ?_, h7⟩
  have hd : d = 0 ∨ l2' = [] := by
    have hnext : s.tmr.tmrNext t = (l2.map Prod.fst).head? := by
      have hlinks := hl.counted.links
      rw [e, List.map_append, List.map_cons] at hlinks
      exact hlinks.next_split
    refine (h4.mpr fun y hy => hc y.1 ?_).imp id fun e2 => ?_
    · rw [hnext, List.head?_map, hy]
      rfl
    · rw [e2] at h2
      exact List.map_eq_nil_iff.mp h2.symm
  rw [map_later_eq.mpr hd] at h2
  intro x
  rw [e, h2]
  have hx : x ∈ l1 ++ l2' → x.1 ≠ t := fun hm ht => h5 (ht ▸ List.mem_map_of_mem hm)
  constructor
  · intro hm
    refine ⟨hx hm, ?_⟩
    simp only [List.mem_append, List.mem_cons] at hm ⊢
    tauto
  · rintro ⟨hne, hm⟩
    simp only [List.mem_append, List.mem_cons] at hm ⊢
    rcases hm with hm | rfl | hm
    · exact Or.inl hm
    · exact absurd rfl hne
    · exact Or.inr hm

/-- `InsertTmrList` of a running timer that is not linked. -/
theorem insertTmrList_keeps (hq : NoneDeferred s) (hl : TmrLinked cfg s.tmr l)
    (ht : t ∉ l.map Prod.fst)
    (htm : t < cfg.maxTmr) (hrun : s.tmr.tmrRunning t = true ∧ s.tmr.TmrIDVessel t = true)
    (h : insertTmrList cfg s t = some s') :
    ∃ l', TmrLinked cfg s'.tmr l' ∧ (Near (s.tmr.tmrCnt t) l →
        ∀ x, x ∈ l' ↔ (x = (t, s.tmr.tmrCnt t) ∧ s.tmr.tmrCnt t ≠ 0) ∨ x ∈ l) ∧
      (∃ D, s'.tmrView = { s.tmrView with tmr := s.tmr.setDelta D }) := by
  by_cases h0 : s.tmr.tmrCnt t = 0
  · unfold insertTmrList at h
    rw [if_pos h0] at h
    rw [← Option.some.inj h]
    exact ⟨l, hl, fun _ x => by simp [h0], s.tmr.delta, rfl⟩
  · obtain ⟨D, hD, hv⟩ := insertTmrList_view hq h h0
    obtain ⟨D', k, k', q, d, h1, h2, h3⟩ := hl.insert ht htm hrun (hl.word t)
    obtain rfl : D = D' := Option.some.inj (hD.symm.trans h1)
    have e : s'.tmr = s.tmr.setDelta D := congrArg TmrView.tmr hv
    refine ⟨_, by rw [e]; exact h3, fun hn x => ?_, D, hv⟩
    rw [mem_inserted h2 hn x, and_iff_left h0]

theorem not_badTmr (h : ¬ badTmr cfg s t) : t < cfg.maxTmr ∧ s.tmr.TmrIDVessel t = true := by
  obtain ⟨h1, h2⟩ := not_or.mp h
  exact ⟨Nat.lt_of_not_le h1, Bool.eq_true_of_not_eq_false h2⟩

theorem coStartTmr_keeps (hq : NoneDeferred s) (hl : TmrLinked cfg s.tmr l) {st : StatusType}
    (h : coStartTmr cfg s t = some (s', st)) :
    ∃ l', TmrLinked cfg s'.tmr l' ∧ (Near (s.tmr.tmrCnt t) l → ∀ x, x ∈ l' ↔
        (x = (t, s.tmr.tmrCnt t) ∧ s.tmr.tmrCnt t ≠ 0 ∧ ¬ badTmr cfg s t ∧
          s.tmr.tmrRunning t = false) ∨ x ∈ l) ∧
      s'.tmrView = { s.tmrView with tmr := s'.tmr } := by
  unfold coStartTmr at h
  split at h
  · next hb =>
    cases h
    exact ⟨l, hl, fun _ x => by simp [hb], rfl⟩
  · next hb =>
    obtain ⟨hb1, hb2⟩ := not_badTmr hb
    split at h
    · next hr =>
      cases h
      exact ⟨l, hl, fun _ x => by simp [hr], rfl⟩
    · next hr =>
      obtain ⟨s1, h1, h2⟩ := Option.bind_eq_some_iff.mp h
      cases h2
      have ht : t ∉ l.map Prod.fst := fun hm => hr (hl.run t hm).1
      have hl1 : TmrLinked cfg { s.tmr with tmrRunning := update s.tmr.tmrRunning t true } l :=
        hl.outside ht rfl (fun a ha => ⟨rfl, rfl, rfl, Function.update_of_ne ha .., rfl⟩)
          (hl.off t ht)
          (hl.word t) hl.reload
      obtain ⟨l', h3, h4, D, h5⟩ := insertTmrList_keeps
        (s := { s with tmr := { s.tmr with tmrRunning := update s.tmr.tmrRunning t true } })
          hq hl1 ht hb1
        ⟨Function.update_self .., hb2⟩ h1
      have e := congrArg TmrView.tmr h5
      refine ⟨l', h3, fun hn x => (h4 hn x).trans ?_, ?_⟩
      · exact or_congr_left
          (and_congr_right fun _ => (and_iff_left ⟨hb, Bool.eq_false_iff.mpr hr⟩).symm)
      · rw [h5]
        exact congrArg (fun m => { s.tmrView with tmr := m }) e.symm

/-- A running timer that a call takes out of the list is linked. -/
def Leavable (cfg : Env) (s : Kernel) (t : Nat) : Prop :=
  ¬ badTmr cfg s t → s.tmr.tmrRunning t = true → s.tmr.Linked t

instance (cfg : Env) (s : Kernel) (t : Nat) : Decidable (Leavable cfg s t) :=
  inferInstanceAs (Decidable (_ → _))

theorem coStopTmr_keeps (hq : NoneDeferred s) (hl : TmrLinked cfg s.tmr l) {st : StatusType}
    (hok : Leavable cfg s t) (h : coStopTmr cfg s t = some (s', st)) :
    ∃ l', TmrLinked cfg s'.tmr l' ∧ (NoCarry s.tmr t → Undisturbed t l l') ∧
      s'.tmrView = { s.tmrView with tmr := s'.tmr } := by
  unfold coStopTmr at h
  split at h
  · cases h
    exact ⟨l, hl, fun _ => .refl t l, rfl⟩
  · next hb =>
    split at h
    · cases h
      exact ⟨l, hl, fun _ => .refl t l, rfl⟩
    · next hr =>
      obtain ⟨s1, h1, h2⟩ := Option.bind_eq_some_iff.mp h
      cases h2
      have ht := hl.linked_iff.mp (hok hb (not_not.mp hr))
      obtain ⟨l', h3, h4, -, h6, h7⟩ := removeTmrList_keeps hq hl ht h1
      refine ⟨l', ?_, fun hc b q hb hm => (h6 hc _).mpr ⟨hb, hm⟩, ?_⟩
      · exact h3.outside h4 rfl (fun a ha => ⟨rfl, rfl, rfl, Function.update_of_ne ha .., rfl⟩)
          (h3.off t h4)
          (h3.word t) h3.reload
      · exact written_view h7 _

theorem coDelTmr_keeps (hq : NoneDeferred s) (hl : TmrLinked cfg s.tmr l) {st : StatusType}
    (hok : Leavable cfg s t) (h : coDelTmr cfg s t = some (s', st)) :
    ∃ l', TmrLinked cfg s'.tmr l' ∧ (NoCarry s.tmr t → Undisturbed t l l') ∧
      s'.tmrView = { s.tmrView with tmr := s'.tmr } := by
  unfold coDelTmr at h
  split at h
  · cases h
    exact ⟨l, hl, fun _ => .refl t l, rfl⟩
  · next hb =>
    by_cases hr : s.tmr.tmrRunning t = true
    · simp only [hr, if_true] at h
      obtain ⟨s1, h1, h2⟩ := Option.bind_eq_some_iff.mp h
      cases h2
      have ht := hl.linked_iff.mp (hok hb hr)
      obtain ⟨l', h3, h4, -, h6, h7⟩ := removeTmrList_keeps hq hl ht h1
      refine ⟨l', ?_, fun hc b q hb hm => (h6 hc _).mpr ⟨hb, hm⟩, ?_⟩
      · exact h3.outside h4 rfl (fun a ha => ⟨rfl, rfl, rfl, rfl, Function.update_of_ne ha ..⟩)
          (h3.off t h4)
          (h3.word t) h3.reload
      · exact written_view h7 _
    · simp only [hr, Bool.false_eq_true, if_false, Option.bind_eq_bind, Option.bind_some] at h
      cases h
      have ht : t ∉ l.map Prod.fst := fun hm => hr (hl.run t hm).1
      refine ⟨l, ?_, fun _ => .refl t l, rfl⟩
      exact hl.outside ht rfl (fun a ha => ⟨rfl, rfl, rfl, rfl, Function.update_of_ne ha ..⟩)
        (hl.off t ht)
        (hl.word t) hl.reload

theorem coSetTmrCnt_keeps (hq : NoneDeferred s) (hl : TmrLinked cfg s.tmr l) {c r : Nat}
    (hc : c < 2 ^ 31)
    (hr : r < 2 ^ 31) {st : StatusType} (hok : Leavable cfg s t)
    (h : coSetTmrCnt cfg s t c r = some (s', st)) :
    ∃ l', TmrLinked cfg s'.tmr l' ∧ s'.tmrView = { s.tmrView with tmr := s'.tmr } := by
  unfold coSetTmrCnt at h
  split at h
  · cases h
    exact ⟨l, hl, rfl⟩
  · next hb =>
    obtain ⟨l1, hl1, hkeys⟩ := hl.setCnt t (hc.trans (by decide)) hr
    dsimp only at h
    split at h
    · next hrun =>
      obtain ⟨s1, h1, h⟩ := Option.bind_eq_some_iff.mp h
      obtain ⟨s2, h2, h⟩ := Option.bind_eq_some_iff.mp h
      cases h
      have ht : t ∈ l1.map Prod.fst := by
        rw [hkeys]
        exact hl.linked_iff.mp (hok hb hrun)
      let m1 : Tmr := { s.tmr with
        tmrCnt := update s.tmr.tmrCnt t c, tmrReload := update s.tmr.tmrReload t r }
      obtain ⟨l2, h3, h4, -, -, h5⟩ := removeTmrList_keeps (s := { s with tmr := m1 }) hq hl1 ht h1
      have e1 : s1.tmr = m1.setDelta (m1.delta.remove t) := congrArg TmrView.tmr h5
      have hq1 : NoneDeferred s1 := NoneDeferred.view (s := { s with tmr := m1 }) hq h5
      have hrun1 : s1.tmr.tmrRunning t = true ∧ s1.tmr.TmrIDVessel t = true := by
        rw [e1]
        exact ⟨hrun, (not_badTmr hb).2⟩
      obtain ⟨l3, h6, -, D, h7⟩ := insertTmrList_keeps hq1 h3 h4 (not_badTmr hb).1 hrun1 h2
      refine ⟨l3, h6, ?_⟩
      have e := congrArg TmrView.tmr h7
      rw [h7, h5]
      exact congrArg (fun m => { s.tmrView with tmr := m }) e.symm
    · cases h
      exact ⟨l1, hl1, rfl⟩

theorem coCreateTmr_keeps (hq : NoneDeferred s) (hl : TmrLinked cfg s.tmr l)
    {tmrType c r func id : Nat}
    (hc : c < 2 ^ 31) (hr : r < 2 ^ 31) (h : coCreateTmr cfg s tmrType c r func = some (s', id)) :
    TmrLinked cfg s'.tmr l ∧ s'.tmrView = { s.tmrView with tmr := s'.tmr } := by
  unfold coCreateTmr at h
  split at h
  · cases h
    exact ⟨hl, rfl⟩
  · dsimp only at h
    split at h
    · obtain ⟨s1, h1, h⟩ := Option.bind_eq_some_iff.mp h
      cases h
      have hv := section_view (m := s.tmr) hq h1
      have e : s'.tmr = s.tmr := congrArg TmrView.tmr hv
      rw [e]
      exact ⟨hl, hv⟩
    · next i hi =>
      obtain ⟨s1, h1, h⟩ := Option.bind_eq_some_iff.mp h
      cases h
      have hv :=
        section_view (m := { s.tmr with TmrIDVessel := update s.tmr.TmrIDVessel id true }) hq h1
      have e := congrArg TmrView.tmr hv
      have e' : s1.tmr = { s.tmr with TmrIDVessel := update s.tmr.TmrIDVessel id true } := e
      have hid : id ∉ l.map Prod.fst := fun hm => by
        have e1 : s.tmr.TmrIDVessel id = false := freeTmr_spec hi
        rw [(hl.run id hm).2] at e1
        exact nomatch e1
      refine ⟨?_, written_view hv _⟩
      rw [e']
      refine hl.outside hid rfl (fun a ha => ?_) ⟨Function.update_self ..,
        Function.update_self ..⟩ ?_ fun a => ?_
      · simp only [Function.update_of_ne ha, and_self]
      · change update s.tmr.tmrCnt id c id < 2 ^ 32
        rw [Function.update_self]
        exact hc.trans (by decide)
      · change update s.tmr.tmrReload id r a < 2 ^ 31
        by_cases ha : a = id
        · rw [ha, Function.update_self]
          exact hr
        · rw [Function.update_of_ne ha]
          exact hl.reload a

end Functions

end CoOS
