/-
  How the kernel's list functions move a task from one list to another. Each lemma gives the
  state that the function leaves, as an update of the state before, and the ghost state that
  the links then hold. Nothing is said here about the states of tasks.
-/
import CoOS.Coh.Base

namespace CoOS

open Function (update)
open DList KeyOrder

/-! ## Moves of the ghost state -/

def Ghost.mkReady (g : Ghost) (prio : Nat → Nat) (t : Nat) : Ghost :=
  { g with tcb := g.tcb.put .rdy t (insertKey prio t (g.tcb.lst .rdy)) }

def Ghost.unready (g : Ghost) (t : Nat) : Ghost :=
  { g with tcb := g.tcb.take .rdy t ((g.tcb.lst .rdy).erase t) }

def Ghost.delay (g : Ghost) (t n : Nat) : Ghost :=
  { g with
    tcb := g.tcb.put .dly t ((insertKey Prod.snd (t, n) g.dly).map Prod.fst)
    dly := insertKey Prod.snd (t, n) g.dly }

/-- The delay list without `t`. -/
def without (l : List (Nat × Nat)) (t : Nat) : List (Nat × Nat) := l.filter fun x => x.1 != t

def Ghost.undelay (g : Ghost) (t : Nat) : Ghost :=
  { g with
    tcb := g.tcb.take .dly t ((without g.dly t).map Prod.fst)
    dly := without g.dly t }

def Ghost.joinEvent (g : Ghost) (e t : Nat) (l : List Nat) : Ghost :=
  { g with evt := g.evt.put e t l }

def Ghost.leaveEvent (g : Ghost) (e t : Nat) : Ghost :=
  { g with evt := g.evt.take e t ((g.evt.lst e).erase t) }

/-- Where a task goes in a waiting list: to the end, or to the place of its priority. -/
def waitInsert (sort : Nat) (prio : Nat → Nat) (t : Nat) (l : List Nat) : List Nat :=
  if sort = sortFifo then l ++ [t] else insertKey prio t l

/-- The task joins the waiting list of `e` as the sort type says. -/
def Ghost.wait (g : Ghost) (s : Kernel) (e t : Nat) : Ghost :=
  g.joinEvent e t (waitInsert (s.eventSortType e) s.prio t (g.evt.lst e))

section Ghost

variable {cfg : Env} {g : Ghost} {t a : Nat} {k : Kind} {l : List Nat}

theorem free_put (hk : k ≠ .free) (ht : g.tcb.loc t ≠ some .free) (a : Nat) :
    (g.tcb.put k t l).loc a = some .free ↔ g.tcb.loc a = some .free := by
  by_cases hat : a = t
  · rw [hat]
    simp [Family.put, ht, hk]
  · simp [Family.put, Function.update_of_ne hat]

theorem free_take (ht : g.tcb.loc t ≠ some .free) (a : Nat) :
    (g.tcb.take k t l).loc a = some .free ↔ g.tcb.loc a = some .free := by
  by_cases hat : a = t
  · rw [hat]
    simp [Family.take, ht]
  · simp [Family.take, Function.update_of_ne hat]

theorem erase_split {l1 l2 : List Nat} (h : (l1 ++ t :: l2).Nodup) :
    (l1 ++ t :: l2).erase t = l1 ++ l2 := by
  rw [List.erase_append_right _ (nodup_split_left h), List.erase_cons_head]

theorem without_split {l1 l2 : List (Nat × Nat)} {r : Nat}
    (h : ((l1 ++ (t, r) :: l2).map Prod.fst).Nodup) :
    without (l1 ++ (t, r) :: l2) t = l1 ++ l2 := by
  have h' : (l1.map Prod.fst ++ t :: l2.map Prod.fst).Nodup := by simpa using h
  have h1 := nodup_split_left h'
  have h2 := nodup_split_right h'
  unfold without
  rw [List.filter_append, List.filter_cons_of_neg (by simp)]
  rw [List.filter_eq_self.mpr, List.filter_eq_self.mpr]
  · intro x hx
    have : x.1 ≠ t := fun e => h2 (e ▸ List.mem_map_of_mem hx)
    simpa using this
  · intro x hx
    have : x.1 ≠ t := fun e => h1 (e ▸ List.mem_map_of_mem hx)
    simpa using this

end Ghost

/-! ## The columns after an update -/

section Cols

variable {s : Kernel} {L : Links Nat}

theorem tcbCols_set_rdy : (s.setRdyLinks L).tcbCols = s.tcbCols.set .rdy L := by
  unfold Kernel.tcbCols Cols.set
  congr 1
  funext k
  cases k with
  | rdy => rfl
  | dly => rfl
  | free => rfl
  | mtx m => rfl

theorem tcbCols_set_dly : (s.setDlyLinks L).tcbCols = s.tcbCols.set .dly L := by
  unfold Kernel.tcbCols Cols.set
  congr 1
  funext k
  cases k with
  | rdy => rfl
  | dly => rfl
  | free => rfl
  | mtx m => rfl

end Cols

/-! ## The ready list -/

section Ready

variable {cfg : Env} {s : Kernel} {g : Ghost} {t : Nat}

/-- A task in no list becomes ready. -/
theorem Rep.mkReady (h : Rep cfg s g) (ht : t < cfg.tasks) (ho : g.tcb.loc t = none) :
    ∃ L T ct, insertToTCBRdyList cfg s t = some (s.readied t L T ct
        (s.TaskSchedReq || decide ((insertKey s.prio t (g.tcb.lst .rdy)).head? = some t))) ∧
      ∀ req, Rep cfg (s.readied t L T ct req) (g.mkReady s.prio t) := by
  have hlive : Live cfg g t := ⟨ht, by rw [ho]; exact fun e => nomatch e⟩
  obtain ⟨hn, hp⟩ := h.tcb.off t ho
  have hmem : t ∉ g.tcb.lst .rdy := h.tcb.not_mem_of_off ho
  obtain ⟨L, T, ct, h1, h2, h3, h4⟩ := insertToTCBRdyList_spec h.ready h.fits ht
    (g.count_pos hlive s.prio) hmem hn hp
  refine ⟨L, T, ct, h1, fun req => ?_⟩
  have hlt : g.tcb.loc t ≠ some .free := hlive.2
  refine ⟨?_, h.evt, ?_, ?_, h.dly, h.deltas, h.dlyLt, ?_, h.evLt⟩
  · have hcols : (s.readied t L T ct req).tcbCols = s.tcbCols.set .rdy L :=
      @tcbCols_set_rdy s L
    rw [hcols]
    refine h.tcb.put ho h2.toSList (fun _ => h2) (fun x => mem_insertKey) ?_
    intro b hb hbt
    refine h3 b ?_ hbt
    intro e
    exact hb ((h.tcb.mem .rdy b).mp e)
  · exact h.sorted.insertKey t
  · rw [Ghost.count_congr (free_put (by decide) hlt)]
    exact h4.congr rfl rfl
  · intro a k hk
    by_cases hat : a = t
    · rw [hat]
      exact ht
    · have : g.tcb.loc a = some k := by
        simpa [Ghost.mkReady, Family.put, Function.update_of_ne hat] using hk
      exact h.lt a k this

/-- A ready task leaves the ready list. -/
theorem Rep.unready (h : Rep cfg s g) (ho : g.tcb.loc t = some .rdy) :
    ∃ T, removeFromTCBRdyList cfg s t = some (s.unreadied (s.rdyLinks.unlink t) T) ∧
      Rep cfg (s.unreadied (s.rdyLinks.unlink t) T) (g.unready t) := by
  obtain ⟨l1, l2, hl⟩ := List.append_of_mem ((h.tcb.mem .rdy t).mpr ho)
  have hr := h.ready
  have hf := h.fits
  rw [hl] at hr hf
  obtain ⟨T, h1, h2⟩ := removeFromTCBRdyList_spec hr hf
  have he : (g.tcb.lst .rdy).erase t = l1 ++ l2 := by
    rw [hl]
    exact erase_split hr.links.nodup
  have hr' : Ready cfg (s.unreadied (s.rdyLinks.unlink t) T) (l1 ++ l2) := hr.unreadied
  refine ⟨T, h1, ?_⟩
  have hlf : g.tcb.loc t ≠ some .free := by
    rw [ho]
    exact fun e => nomatch e
  refine ⟨?_, h.evt, ?_, ?_, ?_, h.deltas, h.dlyLt, ?_, h.evLt⟩
  · have hcols : (s.unreadied (s.rdyLinks.unlink t) T).tcbCols =
        s.tcbCols.set .rdy (s.rdyLinks.unlink t) := @tcbCols_set_rdy s _
    rw [hcols]
    have hD : IsDList (s.rdyLinks.unlink t) ((g.tcb.lst .rdy).erase t) := by
      rw [he]
      exact isDList_unlink hr.links
    refine h.tcb.take ho hD.toSList (fun _ => hD) ?_ ?_ (unlink_links hr.links)
    · intro x
      exact (h.tcb.double .rdy rfl).nodup.mem_erase_iff
    · intro b hb _
      refine unlink_frame hr.links ?_
      rw [← hl, h.tcb.mem .rdy b]
      exact hb
  · change SortedKey s.prio ((g.unready t).tcb.lst .rdy)
    simp only [Ghost.unready, Family.take, Function.update_self, he]
    exact hr'.sorted
  · rw [Ghost.count_congr (free_take hlf)]
    simp only [Ghost.unready, Family.take, Function.update_self, he]
    exact h2.congr rfl rfl
  · simp only [Ghost.unready, Family.take]
    rw [Function.update_of_ne (by decide)]
    exact h.dly
  · intro a k hk
    by_cases hat : a = t
    · rw [hat]
      exact h.lt t .rdy ho
    · have : g.tcb.loc a = some k := by
        simpa [Ghost.unready, Family.take, Function.update_of_ne hat] using hk
      exact h.lt a k this

end Ready

/-! ## The delay list -/

section Delay

variable {cfg : Env} {s : Kernel} {g : Ghost} {t n : Nat}

/-- A task in no list is delayed. -/
theorem Rep.delay (h : Rep cfg s g) (ht : t < cfg.tasks) (ho : g.tcb.loc t = none) (hn : n ≠ 0)
    (hlt : n < 2 ^ 31) :
    ∃ D, insertDelayList cfg s t n =
        some { s.setDly D with state := update s.state t .WAITING, TaskSchedReq := true } ∧
      Rep cfg (s.setDly D) (g.delay t n) ∧
      ∀ a, g.tcb.loc a ≠ some .dly → a ≠ t → D.cnt a = s.delayTick a := by
  have hlf : g.tcb.loc t ≠ some .free := by
    rw [ho]
    exact fun e => nomatch e
  obtain ⟨hnx, hpv⟩ := h.tcb.off t ho
  have hmem : t ∉ g.dly.map Prod.fst := by
    rw [h.mem_dly, ho]
    exact fun e => nomatch e
  obtain ⟨D, h1, h2, h3⟩ := insert_spec h.isDelta hmem hnx hpv hlt h.dly_length
  have hout : ∀ a, g.tcb.loc a ≠ some .dly → a ∉ g.dly.map Prod.fst := fun a ha e =>
    ha (h.mem_dly.mp e)
  refine ⟨D, ?_, ?_, fun a ha hat => h3.cnt a (hout a ha) hat⟩
  · unfold insertDelayList
    rw [if_neg hn]
    change (s.dly.insert cfg.tasks t n).bind _ = _
    rw [h1]
    rfl
  · refine ⟨?_, h.evt, ?_, ?_, ?_, h2.cnts, h2.lt, ?_, h.evLt⟩
    · have hcols : (s.setDly D).tcbCols = s.tcbCols.set .dly D.toLinks := @tcbCols_set_dly s _
      rw [hcols]
      refine h.tcb.put ho h2.links.toSList (fun _ => h2.links) ?_ ?_
      · intro x
        rw [h.dly]
        simp only [List.mem_map, mem_insertKey]
        constructor
        · intro hx
          obtain ⟨y, hy | hy, e⟩ := hx
          · exact Or.inl (by rw [← e, hy])
          · exact Or.inr ⟨y, hy, e⟩
        · intro hx
          rcases hx with hx | hx
          · exact ⟨_, Or.inl rfl, hx.symm⟩
          · obtain ⟨y, hy, e⟩ := hx
            exact ⟨y, Or.inr hy, e⟩
      · intro b hb hbt
        exact ⟨h3.next b (hout b hb) hbt, h3.prev b (hout b hb) hbt⟩
    · simp only [Ghost.delay, Family.put]
      rw [Function.update_of_ne (by decide)]
      exact h.sorted
    · rw [Ghost.count_congr (free_put (by decide) hlf)]
      simp only [Ghost.delay, Family.put]
      rw [Function.update_of_ne (by decide)]
      exact h.fits.congr rfl rfl
    · simp only [Ghost.delay, Family.put, Function.update_self]
    · intro a k hk
      by_cases hat : a = t
      · rw [hat]
        exact ht
      · have : g.tcb.loc a = some k := by
          simpa [Ghost.delay, Family.put, Function.update_of_ne hat] using hk
        exact h.lt a k this

/-- A delayed task leaves the delay list. -/
theorem Rep.undelay (h : Rep cfg s g) (ho : g.tcb.loc t = some .dly) :
    Rep cfg (removeDelayList s t) (g.undelay t) ∧
      ∀ a, g.tcb.loc a ≠ some .dly → a ≠ t → (removeDelayList s t).delayTick a = s.delayTick a := by
  obtain ⟨⟨t', r⟩, hx, rfl⟩ := List.mem_map.mp (h.mem_dly.mpr ho)
  obtain ⟨l1, l2, hl⟩ := List.append_of_mem hx
  have hd := h.isDelta
  rw [hl] at hd
  have h2 := remove_spec hd
  have h3 := remove_frame hd.links
  have hlk : IsDList s.dly.toLinks (l1.map Prod.fst ++ t' :: l2.map Prod.fst) := by
    simpa using hd.links
  have hw : without g.dly t' = l1 ++ l2 := by
    rw [hl]
    exact without_split hd.links.nodup
  have hout : ∀ a, g.tcb.loc a ≠ some .dly → a ∉ (l1 ++ (t', r) :: l2).map Prod.fst := by
    intro a ha e
    rw [← hl] at e
    exact ha (h.mem_dly.mp e)
  have htl : t' ∉ (l1 ++ l2).map Prod.fst := by
    rw [List.map_append, List.mem_append, not_or]
    exact ⟨nodup_split_left hlk.nodup, nodup_split_right hlk.nodup⟩
  refine ⟨?_, ?_⟩
  · refine ⟨?_, h.evt, ?_, ?_, ?_, ?_, ?_, ?_, h.evLt⟩
    · have hcols : (removeDelayList s t').tcbCols = s.tcbCols.set .dly (s.dly.remove t').toLinks :=
        @tcbCols_set_dly s _
      rw [hcols]
      have hD : IsDList (s.dly.remove t').toLinks ((without g.dly t').map Prod.fst) := by
        rw [hw]
        exact h2.links
      refine h.tcb.take ho hD.toSList (fun _ => hD) ?_ ?_ (unlink_links hlk)
      · intro x
        rw [h.dly]
        unfold without
        simp only [List.mem_map, List.mem_filter, bne_iff_ne]
        constructor
        · intro e
          obtain ⟨y, ⟨hy, hne⟩, rfl⟩ := e
          exact ⟨hne, y, hy, rfl⟩
        · intro e
          obtain ⟨hne, y, hy, rfl⟩ := e
          exact ⟨y, ⟨hy, hne⟩, rfl⟩
      · intro b hb hbt
        exact ⟨h3.next b (hout b hb) hbt, h3.prev b (hout b hb) hbt⟩
    · simp only [Ghost.undelay, Family.take]
      rw [Function.update_of_ne (by decide)]
      exact h.sorted
    · rw [Ghost.count_congr (free_take (by rw [ho]; decide))]
      simp only [Ghost.undelay, Family.take]
      rw [Function.update_of_ne (by decide)]
      exact h.fits.congr rfl rfl
    · simp only [Ghost.undelay, Family.take, Function.update_self]
    · simp only [Ghost.undelay, hw]
      refine h2.cnts.congr fun x hx => ?_
      have hne : x.1 ≠ t' := fun e => htl (e ▸ List.mem_map_of_mem hx)
      exact Function.update_of_ne hne ..
    · simp only [Ghost.undelay, hw]
      exact h2.lt
    · intro a k hk
      by_cases hat : a = t'
      · rw [hat]
        exact h.lt t' .dly ho
      · have : g.tcb.loc a = some k := by
          simpa [Ghost.undelay, Family.take, Function.update_of_ne hat] using hk
        exact h.lt a k this
  · intro a ha hat
    exact (Function.update_of_ne hat ..).trans (h3.cnt a (hout a ha) hat)

end Delay

/-! ## The waiting lists of events -/

section Event

variable {cfg : Env} {s : Kernel} {g : Ghost} {e t : Nat}

theorem lastWaiting_spec :
    ∀ (l2 l1 : List Nat) (p fuel : Nat), IsDList (s.evtLinks e) (l1 ++ p :: l2) → l2.length < fuel →
      ∃ q k, lastWaiting s fuel p = some q ∧ p :: l2 = k ++ [q] := by
  intro l2
  induction l2 with
  | nil =>
    intro l1 p fuel hl hf
    have hn : s.waitNext p = none := hl.next_split
    obtain ⟨n, rfl⟩ := Nat.exists_eq_succ_of_ne_zero (by omega : fuel ≠ 0)
    refine ⟨p, [], ?_, rfl⟩
    rw [Nat.succ_eq_add_one, lastWaiting, hn]
  | cons x l2 ih =>
    intro l1 p fuel hl hf
    have hn : s.waitNext p = some x := hl.next_split
    rw [List.length_cons] at hf
    obtain ⟨n, rfl⟩ := Nat.exists_eq_succ_of_ne_zero (by omega : fuel ≠ 0)
    obtain ⟨q, k, h1, h2⟩ := ih (l1 ++ [p]) x n (by simpa using hl) (by omega)
    refine ⟨q, p :: k, ?_, by rw [h2]; rfl⟩
    rw [Nat.succ_eq_add_one, lastWaiting, hn]
    exact h1

theorem findWaitPlace_spec (t : Nat) :
    ∀ (l2 l1 : List Nat) (p fuel : Nat), IsDList (s.evtLinks e) (l1 ++ p :: l2) → l2.length ≤ fuel →
      ∃ q k k', findWaitPlace s (s.prio t) fuel p (s.waitNext p) = some q ∧
        l1 ++ p :: l2 = k ++ q :: k' ∧ l1 ++ p :: insertKey s.prio t l2 = k ++ q :: t :: k' := by
  intro l2
  induction l2 with
  | nil =>
    intro l1 p fuel hl _
    have hn : s.waitNext p = none := hl.next_split
    refine ⟨p, l1, [], ?_, rfl, rfl⟩
    rw [hn]
    cases fuel <;> rfl
  | cons x l2 ih =>
    intro l1 p fuel hl hf
    have hn : s.waitNext p = some x := hl.next_split
    rw [List.length_cons] at hf
    obtain ⟨n, rfl⟩ := Nat.exists_eq_succ_of_ne_zero (by omega : fuel ≠ 0)
    rw [hn, Nat.succ_eq_add_one, findWaitPlace]
    by_cases hx : s.prio t < s.prio x
    · refine ⟨p, l1, x :: l2, if_pos hx, rfl, ?_⟩
      have hins : insertKey s.prio t (x :: l2) = t :: x :: l2 :=
        @insertKey_of_before _ s.prio t x [] l2 (by simp) hx
      rw [hins]
    · obtain ⟨q, k, k', h1, h2, h3⟩ := ih (l1 ++ [p]) x n (by simpa using hl) (by omega)
      have hins : insertKey s.prio t (x :: l2) = x :: insertKey s.prio t l2 :=
        @insertKey_append _ s.prio t [x] l2 (by simpa using Nat.le_of_not_lt hx)
      refine ⟨q, k, k', by rw [if_neg hx]; exact h1, ?_, ?_⟩
      · rw [← h2]
        simp
      · rw [← h3, hins]
        simp

theorem Rep.evt_length (h : Rep cfg s g) (e : Nat) : (g.evt.lst e).length ≤ cfg.tasks :=
  length_le_of_lt (h.evt.double e rfl).nodup fun t ht => (h.evLt t e ((h.evt.mem e t).mp ht)).1

theorem mem_waitInsert {sort : Nat} {prio : Nat → Nat} {x : Nat} {l : List Nat} :
    x ∈ waitInsert sort prio t l ↔ x = t ∨ x ∈ l := by
  unfold waitInsert
  split
  · rw [List.mem_append, List.mem_singleton]
    exact or_comm
  · exact mem_insertKey

/-- The list part of `EventTaskToWait`: the task is in the list, all other links are kept. -/
theorem linkWaiting_spec (h : Rep cfg s g) (ho : g.evt.loc t = none)
    (hsort : s.eventSortType e = sortFifo ∨ s.eventSortType e = sortPrio) :
    ∃ L, linkWaiting cfg s e t = some (s.setEvtLinks e L) ∧
      IsDList L (waitInsert (s.eventSortType e) s.prio t (g.evt.lst e)) ∧
      ∀ b, g.evt.loc b ≠ some e → b ≠ t → L.next b = s.waitNext b ∧ L.prev b = s.waitPrev b := by
  have hl : IsDList (s.evtLinks e) (g.evt.lst e) := h.evt.double e rfl
  have hhead := hl.head
  have hlen := h.evt_length e
  obtain ⟨hn, hp⟩ := h.evt.off t ho
  have hmem : t ∉ g.evt.lst e := h.evt.not_mem_of_off ho
  have hout : ∀ b, g.evt.loc b ≠ some e → b ∉ g.evt.lst e :=
    fun b hb hm => hb ((h.evt.mem e b).mp hm)
  unfold linkWaiting
  cases hlst : g.evt.lst e with
  | nil =>
    rw [hlst] at hhead hl hmem
    have hw : waitInsert (s.eventSortType e) s.prio t [] = [t] := by
      unfold waitInsert
      split
      · rfl
      · rfl
    simp only [hhead, List.head?_nil]
    refine ⟨(s.evtLinks e).pushFront t, ?_, ?_, ?_⟩
    · rcases hsort with hs | hs
      · rw [if_pos hs]
      · rw [if_neg (by rw [hs]; decide), if_pos hs]
    · rw [hw]
      exact isDList_pushFront hl hmem hn hp
    · intro b hb hbt
      exact pushFront_frame hl (by simp) hbt
  | cons x l =>
    rw [hlst] at hhead hl hlen hmem
    rw [List.length_cons] at hlen
    simp only [hhead, List.head?_cons]
    rcases hsort with hs | hs
    · -- by arrival: after the last
      obtain ⟨q, k, h1, h2⟩ := lastWaiting_spec l [] x cfg.tasks hl (by omega)
      rw [h2] at hl hmem
      refine ⟨(s.evtLinks e).append q t, ?_, ?_, ?_⟩
      · rw [if_pos hs, h1]
        rfl
      · unfold waitInsert
        rw [if_pos hs, h2, List.append_assoc]
        exact isDList_append hl hmem hn
      · intro b hb hbt
        refine append_frame ?_ hbt
        rintro rfl
        exact hout b hb (by rw [hlst, h2]; simp)
    · -- by priority
      have hne : ¬ s.eventSortType e = sortFifo := by
        rw [hs]
        decide
      unfold waitInsert
      rw [if_neg hne, if_pos hs, if_neg hne]
      by_cases hlt : s.prio t < s.prio x
      · refine ⟨(s.evtLinks e).pushFront t, if_pos hlt, ?_, ?_⟩
        · have hins : insertKey s.prio t (x :: l) = t :: x :: l :=
            @insertKey_of_before _ s.prio t x [] l (by simp) hlt
          rw [hins]
          exact isDList_pushFront hl hmem hn hp
        · intro b hb hbt
          exact pushFront_frame hl (by rw [← hlst]; exact hout b hb) hbt
      · obtain ⟨q, k, k', h1, h2, h3⟩ := findWaitPlace_spec t l [] x cfg.tasks hl (by omega)
        rw [List.nil_append] at h2 h3
        rw [h2] at hl hmem
        refine ⟨(s.evtLinks e).insertAfter q t, ?_, ?_, ?_⟩
        · rw [if_neg hlt, h1]
          rfl
        · have hins : insertKey s.prio t (x :: l) = x :: insertKey s.prio t l :=
            @insertKey_append _ s.prio t [x] l (by simpa using Nat.le_of_not_lt hlt)
          rw [hins, h3]
          exact isDList_insertAfter hl hmem
        · intro b hb hbt
          refine insertAfter_frame hl ?_ hbt
          rw [← h2, ← hlst]
          exact hout b hb

theorem Rep.joinEvent (h : Rep cfg s g) (ht : t < cfg.tasks) (he : e < cfg.maxEvent)
    (ho : g.evt.loc t = none)
    (hsort : s.eventSortType e = sortFifo ∨ s.eventSortType e = sortPrio) :
    ∃ L, linkWaiting cfg s e t = some (s.setEvtLinks e L) ∧
      Rep cfg (s.setEvtLinks e L)
        (g.wait s e t) := by
  obtain ⟨L, h1, h2, h4⟩ := linkWaiting_spec h ho hsort
  refine ⟨L, h1, h.tcb, h.evt.put ho h2.toSList (fun _ => h2) (fun _ => mem_waitInsert) h4,
    h.sorted, h.fits.congr rfl rfl, h.dly, h.deltas, h.dlyLt, h.lt, ?_⟩
  intro a k hk
  by_cases hat : a = t
  · rw [hat] at hk ⊢
    obtain rfl : e = k := by simpa [Ghost.wait, Ghost.joinEvent, Family.put] using hk
    exact ⟨ht, he⟩
  · have : g.evt.loc a = some k := by
      simpa [Ghost.wait, Ghost.joinEvent, Family.put, Function.update_of_ne hat] using hk
    exact h.evLt a k this

/-- A task leaves the waiting list of its event. -/
theorem Rep.leaveEvent (h : Rep cfg s g) (hid : s.eventID t = e) (ho : g.evt.loc t = some e) :
    Rep cfg (removeEventWaittingList s t) (g.leaveEvent e t) := by
  obtain ⟨l1, l2, hl⟩ := List.append_of_mem ((h.evt.mem e t).mpr ho)
  have hlk : IsDList (s.evtLinks e) (l1 ++ t :: l2) := by
    rw [← hl]
    exact h.evt.double e rfl
  have hD : IsDList ((s.evtLinks e).unlink t) ((g.evt.lst e).erase t) := by
    rw [hl, erase_split hlk.nodup]
    exact isDList_unlink hlk
  have hcols : (removeEventWaittingList s t).evtCols =
    s.evtCols.set e ((s.evtLinks e).unlink t) := by
    rw [← hid]
    rfl
  refine ⟨h.tcb, ?_, h.sorted, h.fits.congr rfl rfl, h.dly, h.deltas, h.dlyLt, h.lt, ?_⟩
  · rw [hcols]
    refine h.evt.take ho hD.toSList (fun _ => hD) ?_ ?_ (unlink_links hlk)
    · intro x
      exact (h.evt.double e rfl).nodup.mem_erase_iff
    · intro b hb _
      refine unlink_frame hlk ?_
      rw [← hl, h.evt.mem e b]
      exact hb
  · intro a k hk
    by_cases hat : a = t
    · rw [hat] at hk
      simp [Ghost.leaveEvent, Family.take] at hk
    · have : g.evt.loc a = some k := by
        simpa [Ghost.leaveEvent, Family.take, Function.update_of_ne hat] using hk
      exact h.evLt a k this

end Event

/-! ## A tick -/

/-- One tick less for every delayed task. -/
def Ghost.tickDown (g : Ghost) : Ghost := { g with dly := g.dly.map fun x => (x.1, x.2 - 1) }

section Tick

variable {cfg : Env} {s : Kernel} {g : Ghost} {t : Nat}

theorem Rep.tickDown (h : Rep cfg s g) {x : Nat × Nat} {l : List (Nat × Nat)} (hd : g.dly = x :: l)
    (hx : 0 < x.2) :
    Rep cfg { s with delayTick := update s.delayTick x.1 (s.delayTick x.1 - 1) } g.tickDown := by
  have hi := h.isDelta
  rw [hd] at hi
  have h2 := tick_spec hi hx
  have hfst : g.tickDown.dly.map Prod.fst = g.dly.map Prod.fst := by
    simp only [Ghost.tickDown, List.map_map]
    rfl
  refine ⟨h.tcb, h.evt, h.sorted, h.fits.congr rfl rfl, ?_, ?_, ?_, h.lt, h.evLt⟩
  · rw [hfst]
    exact h.dly
  · simp only [Ghost.tickDown, hd]
    exact h2.cnts
  · simp only [Ghost.tickDown, hd]
    exact h2.lt

/-- The last write of a round of `TimeDispose`: the new head has no predecessor. -/
def fixHead (s : Kernel) : Kernel := { s with TCBprev := clearPrev s.DlyList s.TCBprev }

/-- The first writes of a round of `TimeDispose`: the head leaves the delay list, and the new
    head still has it as predecessor. -/
def dropHead (s : Kernel) (t : Nat) : Kernel :=
  { s with
    delayTick := update s.delayTick t INVALID_VALUE
    DlyList := s.TCBnext t
    TCBnext := update s.TCBnext t none }

/-- The head of the delay list, its time up, becomes ready. -/
theorem Rep.expire (h : Rep cfg s g) {l : List (Nat × Nat)} (hd : g.dly = (t, 0) :: l) :
    ∃ L T ct, insertToTCBRdyList cfg (dropHead s t) t = some ((dropHead s t).readied t L T ct
        (s.TaskSchedReq || decide ((insertKey s.prio t (g.tcb.lst .rdy)).head? = some t))) ∧
      ∀ req, Rep cfg (fixHead ((dropHead s t).readied t L T ct req))
        ((g.undelay t).mkReady s.prio t) := by
  have hi := h.isDelta
  rw [hd] at hi
  have hlk : IsDList s.dlyLinks (t :: l.map Prod.fst) := hi.links
  have htl : t ∉ l.map Prod.fst := (List.nodup_cons.mp hlk.nodup).1
  have hloc : g.tcb.loc t = some .dly := h.mem_dly.mp (by rw [hd]; simp)
  have ht : t < cfg.tasks := h.lt t .dly hloc
  have hw : without g.dly t = l := by
    have := @without_split t [] l 0 (by simpa using hlk.nodup)
    rw [hd]
    exact this
  have hsplit : IsDList s.dlyLinks ([] ++ t :: l.map Prod.fst) := hlk
  have hnx : s.TCBnext t = (l.map Prod.fst).head? := hsplit.next_split
  have hpv : s.TCBprev t = none := hsplit.prev_split
  have hrdy : t ∉ g.tcb.lst .rdy := h.tcb.not_mem hloc (by decide)
  have hlive : Live cfg g t := ⟨ht, by rw [hloc]; exact fun e => nomatch e⟩
  -- the ready list does not see the change
  have hready : Ready cfg (dropHead s t) (g.tcb.lst .rdy) := by
    refine h.ready.congr rfl (fun a ha => ⟨?_, rfl⟩) (fun a _ => rfl)
    have hat : a ≠ t := fun e => hrdy (e ▸ ha)
    exact Function.update_of_ne hat ..
  obtain ⟨L, T, ct, h1, h2, h3, h4⟩ := insertToTCBRdyList_spec hready (h.fits.congr rfl rfl) ht
    (g.count_pos hlive s.prio) hrdy (Function.update_self ..) hpv
  refine ⟨L, T, ct, h1, fun req => ?_⟩
  -- first the delay list alone: `t` leaves it
  have hun : s.dlyLinks.unlink t =
      ⟨s.TCBnext t, update s.TCBnext t none, clearPrev (s.TCBnext t) s.TCBprev⟩ := unlink_head hpv
  have hD : IsDList (s.dlyLinks.unlink t) (l.map Prod.fst) := isDList_unlink hsplit
  have hsh : Shared Kind.double (s.tcbCols.set .dly (s.dlyLinks.unlink t))
      (g.tcb.take .dly t (l.map Prod.fst)) := by
    refine h.tcb.take hloc hD.toSList (fun _ => hD) ?_ ?_ (unlink_links hsplit)
    · intro x
      rw [h.dly, hd]
      simp only [List.map_cons, List.mem_cons]
      constructor
      · intro hx
        exact ⟨fun e => htl (e ▸ hx), Or.inr hx⟩
      · intro hx
        exact hx.2.resolve_left hx.1
    · intro b hb _
      refine unlink_frame hsplit ?_
      intro hm
      exact hb (h.mem_dly.mp (by rw [hd]; exact hm))
  -- then the ready list: `t` enters it
  let L' : Links Nat := ⟨L.head, L.next, clearPrev (s.TCBnext t) L.prev⟩
  have hn_out : ∀ n, s.TCBnext t = some n → n ∉ g.tcb.lst .rdy ∧ n ≠ t := by
    intro n hn
    rw [hnx] at hn
    have hmem : n ∈ l.map Prod.fst := List.mem_of_mem_head? hn
    have hnl : g.tcb.loc n = some .dly :=
      h.mem_dly.mp (by rw [hd]; exact List.mem_cons_of_mem _ hmem)
    exact ⟨h.tcb.not_mem hnl (by decide), fun e => htl (e ▸ hmem)⟩
  have hL' : IsDList L' (insertKey s.prio t (g.tcb.lst .rdy)) := by
    refine h2.congr rfl (fun a _ => rfl) (fun a ha => ?_)
    change clearPrev (s.TCBnext t) L.prev a = L.prev a
    rw [clearPrev_apply, if_neg]
    intro hn
    obtain ⟨e1, e2⟩ := hn_out a hn
    rcases mem_insertKey.mp ha with rfl | ha
    · exact e2 rfl
    · exact e1 ha
  have hcols : (fixHead ((dropHead s t).readied t L T ct req)).tcbCols =
      (s.tcbCols.set .dly (s.dlyLinks.unlink t)).set .rdy L' := by
    rw [hun]
    unfold Kernel.tcbCols Cols.set
    congr 1
    funext k
    cases k with
    | rdy => rfl
    | dly => rfl
    | free => rfl
    | mtx m => rfl
  have hlst : (g.undelay t).tcb = g.tcb.take .dly t (l.map Prod.fst) := by
    simp only [Ghost.undelay, hw]
  have hrl : (g.undelay t).tcb.lst .rdy = g.tcb.lst .rdy := by
    rw [hlst]
    simp [Family.take]
  refine ⟨?_, ?_, ?_, ?_, ?_, ?_, ?_, ?_, h.evLt⟩
  · rw [hcols]
    simp only [Ghost.mkReady, hrl]
    rw [hlst]
    refine hsh.put (by simp [Family.take]) hL'.toSList (fun _ => hL') ?_ ?_
    · intro x
      rw [mem_insertKey, ← hlst, hrl]
    · intro b hb hbt
      have hb' : b ∉ g.tcb.lst .rdy := by
        intro hm
        refine hb ?_
        simp only [Family.take, Function.update_of_ne hbt]
        exact (h.tcb.mem .rdy b).mp hm
      obtain ⟨e1, e2⟩ := h3 b hb' hbt
      rw [hun]
      refine ⟨e1, ?_⟩
      change clearPrev (s.TCBnext t) L.prev b = clearPrev (s.TCBnext t) s.TCBprev b
      rw [clearPrev_apply, clearPrev_apply]
      congr 1
  · exact h.evt
  · simp only [Ghost.mkReady, Family.put, Function.update_self, hrl]
    exact h.sorted.insertKey t
  · have hfree : (g.undelay t).tcb.loc t ≠ some .free := by
      rw [hlst]
      simp [Family.take]
    rw [Ghost.count_congr (free_put (by decide) hfree), Ghost.count_congr (free_take hlive.2)]
    simp only [Ghost.mkReady, Family.put, Function.update_self, hrl]
    exact h4.congr rfl rfl
  · simp only [Ghost.mkReady, Family.put]
    rw [Function.update_of_ne (by decide), hlst]
    simp only [Family.take, Function.update_self, Ghost.undelay, hw]
  · simp only [Ghost.mkReady, Ghost.undelay, hw]
    refine hi.cnts.2.2.congr fun x hx => ?_
    have hne : x.1 ≠ t := fun e => htl (by rw [← e]; exact List.mem_map_of_mem hx)
    exact Function.update_of_ne hne ..
  · simp only [Ghost.mkReady, Ghost.undelay, hw]
    exact fun x hx => hi.lt x (List.mem_cons_of_mem _ hx)
  · intro a k hk
    by_cases hat : a = t
    · rw [hat]
      exact ht
    · have : g.tcb.loc a = some k := by
        simpa [Ghost.mkReady, Ghost.undelay, Family.put, Family.take,
          Function.update_of_ne hat] using hk
      exact h.lt a k this

end Tick

/-! ## The free list -/

def Ghost.alloc (g : Ghost) (t : Nat) (l : List Nat) : Ghost :=
  { g with tcb := g.tcb.take .free t l }

def Ghost.release (g : Ghost) (t : Nat) : Ghost :=
  { g with tcb := g.tcb.put .free t (t :: g.tcb.lst .free) }

/-- The new task as `AssignTCB` and `CreateTask` fill its TCB in. -/
def Kernel.assigned (s : Kernel) (t p slice : Nat) : Kernel :=
  { s with
    FreeTCB := s.TCBnext t
    hasStk := update s.hasStk t true
    prio := update s.prio t p
    delayTick := update s.delayTick t INVALID_VALUE
    TCBnext := update s.TCBnext t none
    TCBprev := update s.TCBprev t none
    timeSlice := update s.timeSlice t slice
    pnode := update s.pnode t .null
    eventID := update s.eventID t INVALID_ID
    pmail := update s.pmail t 0
    waitNext := update s.waitNext t none
    waitPrev := update s.waitPrev t none
    mutexID := update s.mutexID t INVALID_ID }

/-- The writes of `CoDelTask` to the free list. -/
def Kernel.freed (s : Kernel) (t : Nat) : Kernel :=
  { s with TCBnext := update s.TCBnext t s.FreeTCB, FreeTCB := some t }

section Free

variable {cfg : Env} {s : Kernel} {g : Ghost} {t p slice : Nat}

theorem Rep.rdy_live (h : Rep cfg s g) {u : Nat} (hu : u ∈ g.tcb.lst .rdy) : Live cfg g u := by
  have hloc := (h.tcb.mem .rdy u).mp hu
  refine ⟨h.lt u .rdy hloc, ?_⟩
  rw [hloc]
  exact fun e => nomatch e

theorem sorted_update (h : Rep cfg s g) (ht : g.tcb.loc t ≠ some .rdy) :
    SortedKey (update s.prio t p) (g.tcb.lst .rdy) := by
  have hne : ∀ a ∈ g.tcb.lst .rdy, a ≠ t := fun a ha e => ht (e ▸ (h.tcb.mem .rdy a).mp ha)
  refine List.Pairwise.imp_of_mem ?_ h.sorted
  intro a b ha hb hab
  simp only [Function.update_of_ne (hne a ha), Function.update_of_ne (hne b hb)]
  exact hab

/-- The first TCB of the free list is given to a new task. -/
theorem Rep.alloc (h : Rep cfg s g) {l : List Nat} (hl : g.tcb.lst .free = t :: l)
    (hev : g.evt.loc t = none) (hp : p < 256) :
    ∃ T, (if cfg.orderListScheduleEn then some (s.assigned t p slice)
        else activeTaskPri (s.assigned t p slice) p) =
        some ((s.assigned t p slice).setPriTable T) ∧
      Rep cfg ((s.assigned t p slice).setPriTable T) (g.alloc t l) := by
  have hloc : g.tcb.loc t = some .free := (h.tcb.mem .free t).mp (by rw [hl]; simp)
  have ht : t < cfg.tasks := h.lt t .free hloc
  have hS := h.tcb.single .free
  rw [hl] at hS
  have htl : t ∉ l := (List.nodup_cons.mp hS.nodup).1
  have hrdy : g.tcb.loc t ≠ some .rdy := by
    rw [hloc]
    exact fun e => nomatch e
  have hplace : (g.alloc t l).place = update g.place t .removed := by
    funext a
    by_cases hat : a = t
    · simp [hat, Ghost.place, Ghost.alloc]
    · simp [hat, Ghost.place, Ghost.alloc]
  -- the table
  have htab : ∃ T, (if cfg.orderListScheduleEn then some (s.assigned t p slice)
        else activeTaskPri (s.assigned t p slice) p) =
        some ((s.assigned t p slice).setPriTable T) ∧
      Fits cfg ((s.assigned t p slice).setPriTable T)
        ((g.alloc t l).count cfg (update s.prio t p)) (g.tcb.lst .rdy) := by
    cases hord : cfg.orderListScheduleEn with
    | true => exact ⟨s.priTable, rfl, fits_ordered hord⟩
    | false =>
      obtain ⟨T, h1, h2⟩ := @activeTaskPri_agree cfg (g.tcb.lst .rdy) t g.place s
        (s.assigned t p slice) p .removed (h.fits hord) ht hp ((g.place_absent t).mpr hloc)
        (by decide) (fun u hu => ⟨(h.rdy_live hu).1, fun e => hrdy (e ▸ (h.tcb.mem .rdy u).mp hu),
          fun e => (h.rdy_live hu).2 ((g.place_absent u).mp e)⟩) rfl
      refine ⟨T, h1, fun _ => ?_⟩
      have := h2 ((s.assigned t p slice).setPriTable T) rfl rfl
      rwa [← hplace] at this
  obtain ⟨T, h1, h2⟩ := htab
  refine ⟨T, h1, ?_⟩
  have hcols : ((s.assigned t p slice).setPriTable T).tcbCols = s.tcbCols.set .free
      ⟨s.TCBnext t, update s.TCBnext t none, update s.TCBprev t none⟩ := by
    unfold Kernel.tcbCols Cols.set
    congr 1
    funext k
    cases k with
    | rdy => rfl
    | dly => rfl
    | free => rfl
    | mtx m => rfl
  obtain ⟨hw1, hw2⟩ := h.evt.off t hev
  have hw1' : update s.waitNext t none = s.waitNext := Function.update_eq_self_iff.mpr hw1.symm
  have hw2' : update s.waitPrev t none = s.waitPrev := Function.update_eq_self_iff.mpr hw2.symm
  have hevt : ((s.assigned t p slice).setPriTable T).evtCols = s.evtCols := by
    change Cols.mk s.eventTCBList (update s.waitNext t none) (update s.waitPrev t none) = _
    rw [hw1', hw2']
    rfl
  refine ⟨?_, ?_, ?_, ?_, ?_, ?_, h.dlyLt, ?_, h.evLt⟩
  · rw [hcols]
    refine h.tcb.take hloc (isSList_tail hS) (fun e => nomatch e) ?_ ?_ ?_
    · intro x
      rw [hl]
      simp only [List.mem_cons]
      constructor
      · intro hx
        exact ⟨fun e => htl (e ▸ hx), Or.inr hx⟩
      · intro hx
        exact hx.2.resolve_left hx.1
    · intro b _ hbt
      exact ⟨Function.update_of_ne hbt .., Function.update_of_ne hbt ..⟩
    · exact ⟨Function.update_self .., Function.update_self ..⟩
  · rw [hevt]
    exact h.evt
  · simp only [Ghost.alloc, Family.take_lst_ne _ _ (show Kind.rdy ≠ .free by decide)]
    exact sorted_update h hrdy
  · simp only [Ghost.alloc, Family.take_lst_ne _ _ (show Kind.rdy ≠ .free by decide)]
    exact h2
  · simp only [Ghost.alloc, Family.take_lst_ne _ _ (show Kind.dly ≠ .free by decide)]
    exact h.dly
  · refine h.deltas.congr fun x hx => ?_
    have hne : x.1 ≠ t := by
      intro e
      have hd := h.mem_dly.mp (List.mem_map_of_mem hx)
      rw [e, hloc] at hd
      exact nomatch hd
    exact Function.update_of_ne hne ..
  · intro a k hk
    by_cases hat : a = t
    · rw [hat]
      exact ht
    · exact h.lt a k (by simpa [Ghost.alloc, hat] using hk)

/-- A task that is in no list gives its TCB back. -/
theorem Rep.release (h : Rep cfg s g) (ht : t < cfg.tasks) (ho : g.tcb.loc t = none) :
    ∃ T, (if cfg.orderListScheduleEn then some s else deleteTaskPri s (s.prio t)) =
        some (s.setPriTable T) ∧
      Rep cfg ((s.setPriTable T).freed t) (g.release t) := by
  have hS := h.tcb.single .free
  have hfree : g.tcb.loc t ≠ some .free := by
    rw [ho]
    exact fun e => nomatch e
  have hplace : (g.release t).place = update g.place t .absent := by
    funext a
    by_cases hat : a = t
    · simp [hat, Ghost.place, Ghost.release]
    · simp [hat, Ghost.place, Ghost.release]
  have htab : ∃ T, (if cfg.orderListScheduleEn then some s else deleteTaskPri s (s.prio t)) =
        some (s.setPriTable T) ∧
      Fits cfg (s.setPriTable T) ((g.release t).count cfg s.prio) (g.tcb.lst .rdy) := by
    cases hord : cfg.orderListScheduleEn with
    | true => exact ⟨s.priTable, rfl, fits_ordered hord⟩
    | false =>
      obtain ⟨T, h1, h2⟩ :=
        @deleteTaskPri_agree cfg (g.tcb.lst .rdy) t _ g.place s (h.fits hord) rfl
        ht (fun e => hfree ((g.place_absent t).mp e)) (fun u hu => ⟨(h.rdy_live hu).1, fun e =>
          h.tcb.not_mem_of_off ho (e ▸ hu), fun e => (h.rdy_live hu).2 ((g.place_absent u).mp e)⟩)
      refine ⟨T, h1, fun _ => ?_⟩
      rwa [← hplace] at h2
  obtain ⟨T, h1, h2⟩ := htab
  refine ⟨T, h1, ?_⟩
  have hcols : ((s.setPriTable T).freed t).tcbCols = s.tcbCols.set .free
      ⟨some t, update s.TCBnext t s.FreeTCB, s.TCBprev⟩ := by
    unfold Kernel.tcbCols Cols.set
    congr 1
    funext k
    cases k with
    | rdy => rfl
    | dly => rfl
    | free => rfl
    | mtx m => rfl
  refine ⟨?_, h.evt, ?_, ?_, ?_, h.deltas, h.dlyLt, ?_, h.evLt⟩
  · rw [hcols]
    refine h.tcb.put ho (isSList_push hS (h.tcb.not_mem_of_off ho)) (fun e => nomatch e)
      (fun x => List.mem_cons) ?_
    intro b _ hbt
    exact ⟨Function.update_of_ne hbt .., rfl⟩
  · simp only [Ghost.release, Family.put_lst_ne _ _ (show Kind.rdy ≠ .free by decide)]
    exact h.sorted
  · simp only [Ghost.release, Family.put_lst_ne _ _ (show Kind.rdy ≠ .free by decide)]
    exact h2.congr rfl rfl
  · simp only [Ghost.release, Family.put_lst_ne _ _ (show Kind.dly ≠ .free by decide)]
    exact h.dly
  · intro a k hk
    by_cases hat : a = t
    · rw [hat]
      exact ht
    · exact h.lt a k (by simpa [Ghost.release, hat] using hk)

/-- The priority of a task that is not ready changes. -/
theorem Rep.setPrio (h : Rep cfg s g) (hlive : Live cfg g t) (ht : g.tcb.loc t ≠ some .rdy)
    (hp : p < 256) :
    ∃ T, changeTaskPri cfg s (s.prio t) p = some (s.setPriTable T) ∧
      Rep cfg { s.setPriTable T with prio := update s.prio t p } g := by
  have htab : ∃ T, changeTaskPri cfg s (s.prio t) p = some (s.setPriTable T) ∧
      Fits cfg { s.setPriTable T with prio := update s.prio t p }
        (g.count cfg (update s.prio t p)) (g.tcb.lst .rdy) := by
    unfold changeTaskPri
    cases hord : cfg.orderListScheduleEn with
    | true => exact ⟨s.priTable, rfl, fits_ordered hord⟩
    | false =>
      -- one task less of the old priority, one more of the new one
      have hrdy : ∀ u ∈ g.tcb.lst .rdy, u < cfg.tasks ∧ u ≠ t ∧ g.place u ≠ .absent := fun u hu =>
        ⟨(h.rdy_live hu).1, fun e => ht (e ▸ (h.tcb.mem .rdy u).mp hu),
          fun e => (h.rdy_live hu).2 ((g.place_absent u).mp e)⟩
      have hpl : g.place t ≠ .absent := fun e => hlive.2 ((g.place_absent t).mp e)
      obtain ⟨T, h1, h2⟩ :=
        @deleteTaskPri_agree cfg (g.tcb.lst .rdy) t _ g.place s (h.fits hord) rfl
        hlive.1 hpl hrdy
      obtain ⟨T', h3, h4⟩ := @activeTaskPri_agree cfg (g.tcb.lst .rdy) t (update g.place t .absent)
        (s.setPriTable T) (s.setPriTable T) p (g.place t) h2 hlive.1 hp
          (Function.update_self ..) hpl
        (fun u hu => ⟨(hrdy u hu).1, (hrdy u hu).2.1, by
          rw [Function.update_of_ne (hrdy u hu).2.1]
          exact (hrdy u hu).2.2⟩) rfl
      refine ⟨T', ?_, fun _ => ?_⟩
      · rw [if_neg (by decide), h1]
        exact h3
      · have := h4 { s.setPriTable T' with prio := update s.prio t p } rfl rfl
        rwa [Function.update_idem, Function.update_eq_self] at this
  obtain ⟨T, h1, h2⟩ := htab
  exact ⟨T, h1, h.tcb, h.evt, sorted_update h ht, h2, h.dly, h.deltas, h.dlyLt, h.lt, h.evLt⟩

end Free

end CoOS
