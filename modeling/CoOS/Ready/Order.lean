/-
  The ready list as a list of tasks in the order of their priorities.

  `Ready cfg s rdy` says that `TCBRdy` heads the list `rdy`, sorted by priority. In the
  ordered-list build `InsertToTCBRdyList` puts a task after all tasks of at most its priority
  number, and raises `TaskSchedReq` when it becomes the head (`insertOrdered_eq`).

  In the binary build the same place is found through the priority table. `Indexed` says
  that the table fits the ready list; under it both builds write the same links, and the
  table fits the new list (`insertBinary_eq`, `removeIndex_eq`). `insertToTCBRdyList_spec` and
  `removeFromTCBRdyList_spec` say it for either build; callers use only these two.
-/
import CoOS.Lib.KeyOrder
import CoOS.Kernel.Sched
import CoOS.Ready.Table

namespace CoOS

open Function (update)
open DList KeyOrder

/-- `TCBRdy` heads the list `rdy`, in the order of priorities. -/
structure Ready (cfg : Env) (s : Kernel) (rdy : List Nat) : Prop where
  links : IsDList s.rdyLinks rdy
  sorted : SortedKey s.prio rdy
  lt : ∀ t ∈ rdy, t < cfg.tasks

theorem tasks_le (cfg : Env) : cfg.tasks ≤ 254 := by
  have := cfg.maxUserTasks_le
  unfold Config.tasks
  omega

section Insert

variable {cfg : Env} {s : Kernel} {rdy : List Nat} {t : Nat}

/-- The task after which `t` is inserted, if any. -/
def rdyPlace (s : Kernel) (rdy : List Nat) (t : Nat) : Option Nat :=
  (rdy.takeWhile (fun u => decide (s.prio u ≤ s.prio t))).getLast?

/-- Link `t` after `p`, or first. -/
def linkAfter (L : Links Nat) (p : Option Nat) (t : Nat) : Links Nat :=
  match p with
  | none => L.pushFront t
  | some p => L.insertAfter p t

/-- The walk of the ordered-list build from an item of the list. -/
theorem findRdyPlace_spec (pr : Nat) :
    ∀ (l2 l1 : List Nat) (p fuel : Nat), IsDList s.rdyLinks (l1 ++ p :: l2) → l2.length ≤ fuel →
      ∃ q nxt, findRdyPlace s pr fuel p (s.TCBnext p) = some (q, nxt) ∧
        (p :: l2.takeWhile (fun u => decide (s.prio u ≤ pr))).getLast? = some q := by
  intro l2
  induction l2 with
  | nil =>
    intro l1 p fuel hl _
    have hn : s.TCBnext p = none := hl.next_split
    refine ⟨p, none, ?_, rfl⟩
    rw [hn]
    cases fuel <;> rfl
  | cons x l2 ih =>
    intro l1 p fuel hl hf
    have hn : s.TCBnext p = some x := hl.next_split
    rw [List.length_cons] at hf
    obtain ⟨m, rfl⟩ := Nat.exists_eq_succ_of_ne_zero (by omega : fuel ≠ 0)
    rw [hn, Nat.succ_eq_add_one, findRdyPlace]
    by_cases hx : pr < s.prio x
    · refine ⟨p, some x, if_pos hx, ?_⟩
      rw [List.takeWhile_cons_of_neg (by simpa using hx)]
      rfl
    · obtain ⟨q, nxt, h1, h2⟩ := ih (l1 ++ [p]) x m (by simpa using hl) (by omega)
      refine ⟨q, nxt, by rw [if_neg hx]; exact h1, ?_⟩
      rw [List.takeWhile_cons_of_pos (by simpa using Nat.le_of_not_lt hx), List.getLast?_cons_cons]
      exact h2

/-- **InsertToTCBRdyList**, ordered-list build: the links that are written. -/
theorem insertOrdered_eq (h : Ready cfg s rdy) :
    insertOrdered cfg s t = some { s.setRdyLinks (linkAfter s.rdyLinks (rdyPlace s rdy t) t) with
      TaskSchedReq := s.TaskSchedReq || (rdyPlace s rdy t).isNone } := by
  have hhead : s.TCBRdy = rdy.head? := h.links.head
  have hlen := length_le_of_lt h.links.nodup h.lt
  unfold insertOrdered rdyPlace
  cases rdy with
  | nil =>
    simp only [List.head?_nil] at hhead
    simp [hhead, linkAfter]
  | cons x l =>
    simp only [List.head?_cons] at hhead
    rw [hhead]
    by_cases hx : s.prio t < s.prio x
    · rw [List.takeWhile_cons_of_neg (by simpa using hx)]
      simp [hx, linkAfter]
    · rw [List.length_cons] at hlen
      obtain ⟨q, nxt, h1, h2⟩ := findRdyPlace_spec (s.prio t) l [] x cfg.tasks h.links (by omega)
      rw [List.takeWhile_cons_of_pos (by simpa using Nat.le_of_not_lt hx), h2]
      simp only [hx, if_false, h1, Option.bind_eq_bind, Option.bind_some, linkAfter,
        Option.isNone_some, Bool.or_false]
      rfl

/-- The new list. -/
theorem isDList_linkAfter (h : Ready cfg s rdy) (ht : t ∉ rdy) (hn : s.TCBnext t = none)
    (hp : s.TCBprev t = none) :
    IsDList (linkAfter s.rdyLinks (rdyPlace s rdy t) t) (insertKey s.prio t rdy) := by
  obtain ⟨k, k', he, hk, hins, -, -⟩ := insertKey_split s.prio t rdy
  unfold rdyPlace
  rw [hk, hins]
  have hl := h.links
  rw [he] at hl ht
  rcases List.eq_nil_or_concat k with rfl | ⟨k, p, rfl⟩
  · exact isDList_pushFront hl ht hn hp
  · rw [List.concat_eq_append] at hl ht ⊢
    rw [List.getLast?_concat]
    have hl' : IsDList s.rdyLinks (k ++ p :: k') := by simpa using hl
    have := isDList_insertAfter hl' (by simpa using ht)
    simpa [linkAfter] using this

/-- Tasks outside the list keep their links. -/
theorem linkAfter_frame (h : Ready cfg s rdy) {a : Nat} (ha : a ∉ rdy) (hat : a ≠ t) :
    (linkAfter s.rdyLinks (rdyPlace s rdy t) t).next a = s.TCBnext a ∧
      (linkAfter s.rdyLinks (rdyPlace s rdy t) t).prev a = s.TCBprev a := by
  obtain ⟨k, k', he, hk, -⟩ := insertKey_split s.prio t rdy
  unfold rdyPlace
  rw [hk]
  have hl := h.links
  rw [he] at hl ha
  rcases List.eq_nil_or_concat k with rfl | ⟨k, p, rfl⟩
  · exact pushFront_frame hl ha hat
  · rw [List.concat_eq_append] at hl ha ⊢
    rw [List.getLast?_concat]
    have hl' : IsDList s.rdyLinks (k ++ p :: k') := by simpa using hl
    exact insertAfter_frame hl' (by simpa using ha) hat

end Insert

/-! ## The index of the binary build -/

/-- The task that the entry of priority `p` names. -/
def lastReady (prio : Nat → Nat) (rdy : List Nat) (p : Nat) : Nat :=
  (lastWith prio rdy p).getD INVALID_ID

/-- The table fits the ready list, and has every priority of the tasks in it. Priorities are
    bytes. -/
structure Indexed (s : Kernel) (cnt : Nat → Nat) (rdy : List Nat) : Prop where
  table : TableOk s cnt (lastReady s.prio rdy)
  pos : ∀ u ∈ rdy, 0 < cnt (s.prio u)
  byte : ∀ p, 0 < cnt p → p < 256

section Index

variable {cfg : Env} {s : Kernel} {rdy : List Nat} {t : Nat} {cnt : Nat → Nat}

theorem lastReady_eq {p u : Nat} (h : lastWith s.prio rdy p = some u) :
    lastReady s.prio rdy p = u := by
  unfold lastReady
  rw [h]
  rfl

/-- The bit of an entry says whether some ready task has its priority. -/
theorem Indexed.bit (h : Ready cfg s rdy) (hx : Indexed s cnt rdy) {i : Nat}
    (hi : i < s.PriNum) :
    infoBit s.RdyTaskPriInfo i = true ↔ ∃ u ∈ rdy, s.prio u = s.ActivePri i := by
  rw [hx.table.bits i hi, decide_eq_true_eq, hx.table.rdy i hi]
  constructor
  · intro hne
    cases hl : lastWith s.prio rdy (s.ActivePri i) with
    | none => simp [lastReady, hl] at hne
    | some u => exact ⟨u, lastWith_mem hl⟩
  · intro hu
    obtain ⟨u, hu, hp⟩ := hu
    obtain ⟨v, hv⟩ := lastWith_isSome hu hp
    have := h.lt v (lastWith_mem hv).1
    have := tasks_le cfg
    rw [lastReady_eq hv]
    unfold INVALID_ID
    omega

/-- Where a task of a priority in the table belongs, and the entry that says so. -/
theorem rdyPlace_entry (h : Ready cfg s rdy) (hx : Indexed s cnt rdy) {i : Nat}
    (hi : i < s.PriNum) (ha : s.ActivePri i = s.prio t) :
    (∀ p, rdyPlace s rdy t = some p → ∃ j, j ≤ i ∧ s.ActivePri j = s.prio p ∧
      infoBit s.RdyTaskPriInfo j = true ∧ s.RdyTaskPri j = p) ∧
    (∀ j, j ≤ i → infoBit s.RdyTaskPriInfo j = true →
      ∃ p j', rdyPlace s rdy t = some p ∧ s.ActivePri j' = s.prio p ∧ j ≤ j' ∧ j' ≤ i) := by
  obtain ⟨k, k', he, hk, -, hle, hgt⟩ := insertKey_split s.prio t rdy
  have hpl : rdyPlace s rdy t = k.getLast? := by unfold rdyPlace; rw [hk]
  have hinc := hx.table.inc
  -- the index of a task in the front part
  have hidx : ∀ p ∈ k, ∃ j, j ≤ i ∧ s.ActivePri j = s.prio p := by
    intro p hp
    have hpr : p ∈ rdy := by rw [he]; exact List.mem_append_left _ hp
    obtain ⟨j, hj, hja⟩ := hx.table.mem _ (hx.pos p hpr)
    refine ⟨j, ?_, hja⟩
    by_contra hlt
    have := hinc i j (by omega) hj
    have := hle p hp
    omega
  refine ⟨fun p hp => ?_, fun j hj hb => ?_⟩
  · rw [hpl] at hp
    have hpk : p ∈ k := List.mem_of_mem_getLast? hp
    obtain ⟨j, hj, hja⟩ := hidx p hpk
    refine ⟨j, hj, hja, (hx.bit h (by omega)).mpr ⟨p, ?_, hja.symm⟩, ?_⟩
    · rw [he]
      exact List.mem_append_left _ hpk
    · rw [hx.table.rdy j (by omega), hja]
      refine lastReady_eq ?_
      rw [he]
      refine lastWith_front (by rw [← he]; exact h.sorted) hp ?_
      intro y hy
      have := hgt y hy
      have := hle p hpk
      omega
  · obtain ⟨u, hu, hup⟩ := (hx.bit h (by omega)).mp hb
    have huk : u ∈ k := by
      rw [he] at hu
      rcases List.mem_append.mp hu with hu | hu
      · exact hu
      · cases k' with
        | nil => simp at hu
        | cons y k' =>
          have hy := hgt y rfl
          have hs := h.sorted
          rw [he] at hs
          have hyu : s.prio y ≤ s.prio u := by
            rcases List.mem_cons.mp hu with rfl | hu
            · exact le_refl _
            · exact (List.pairwise_cons.mp (List.pairwise_append.mp hs).2.1).1 u hu
          rcases Nat.lt_or_eq_of_le hj with hlt | heq
          · have := hinc j i hlt hi
            omega
          · rw [heq] at hup
            omega
    obtain ⟨k, p, rfl⟩ : ∃ l p, k = l ++ [p] := by
      rcases List.eq_nil_or_concat k with rfl | ⟨l, p, rfl⟩
      · simp at huk
      · exact ⟨l, p, by rw [List.concat_eq_append]⟩
    obtain ⟨j', hj', hja'⟩ := hidx p (by simp)
    refine ⟨p, j', by rw [hpl, List.getLast?_concat], hja', ?_, hj'⟩
    have hup' : s.prio u ≤ s.prio p := by
      have hs := h.sorted
      rw [he] at hs
      rcases List.mem_append.mp huk with hu | hu
      · exact (List.pairwise_append.mp (List.pairwise_append.mp hs).1).2.2 u hu p (by simp)
      · obtain rfl : u = p := by simpa using hu
        exact le_refl _
    by_contra hlt
    have := hinc j' j (by omega) (by omega)
    omega

/-- Where the index points to in the binary build: after the last task of the own priority, or
    after the last one of the nearest smaller priority with a ready task, or to the front. -/
theorem rdyPlace_own (h : Ready cfg s rdy) (hx : Indexed s cnt rdy) {i : Nat}
    (hi : i < s.PriNum) (ha : s.ActivePri i = s.prio t)
    (hb : infoBit s.RdyTaskPriInfo i = true) : rdyPlace s rdy t = some (s.RdyTaskPri i) := by
  obtain ⟨e1, e2⟩ := rdyPlace_entry h hx hi ha
  obtain ⟨p, j', hp, hj', h1, h2⟩ := e2 i (le_refl i) hb
  obtain ⟨j, hj, hja, -, hjr⟩ := e1 p hp
  have hij : j = i := by
    refine hx.table.inc.inj (by omega) hi ?_
    rw [hja, ← hj', show j' = i by omega]
  rw [hp, ← hij, hjr]

theorem rdyPlace_nearest (h : Ready cfg s rdy) (hx : Indexed s cnt rdy) {i : Nat}
    (hi : i < s.PriNum) (ha : s.ActivePri i = s.prio t) {r : Option Nat}
    (hr : Nearest (infoBit s.RdyTaskPriInfo) 0 (i + 1) r) :
    rdyPlace s rdy t = r.map s.RdyTaskPri := by
  obtain ⟨e1, e2⟩ := rdyPlace_entry h hx hi ha
  cases r with
  | none =>
    cases hp : rdyPlace s rdy t with
    | none => rfl
    | some p =>
      obtain ⟨j, hj, -, hb, -⟩ := e1 p hp
      have := hr j (Nat.zero_le _) (by omega)
      rw [hb] at this
      exact absurd this (by decide)
  | some c =>
    obtain ⟨-, hc, hb, hup⟩ := hr
    obtain ⟨p, j', hp, hj', h1, h2⟩ := e2 c (by omega) hb
    obtain ⟨j, hj, hja, hjb, hjr⟩ := e1 p hp
    have hjj : j = j' := hx.table.inc.inj (by omega) (by omega) (by rw [hja, hj'])
    have hjc : j = c := by
      by_contra hne
      have := hup j (by omega) (by omega)
      rw [hjb] at this
      exact absurd this (by decide)
    rw [hp, Option.map_some, ← hjc, hjr]

/-- Write one entry of `RdyTaskPri`, and its bit. -/
theorem TableOk.setEntry {last : Nat → Nat} (h : TableOk s cnt last) {i v : Nat}
    (hi : i < s.PriNum) {info : Nat → Nat}
    (hinfo : ∀ k, infoBit info k =
      if k = i then decide (v ≠ INVALID_ID) else infoBit s.RdyTaskPriInfo k) :
    TableOk (s.setPriTable ⟨s.PriNum, s.ActivePri, s.TaskNumPerPri, update s.RdyTaskPri i v, info⟩)
      cnt (update last (s.ActivePri i) v) := by
  refine ⟨h.inc, h.num, h.pos, h.mem, ?_, ?_⟩
  · intro k hk
    change update s.RdyTaskPri i v k = update last (s.ActivePri i) v (s.ActivePri k)
    by_cases hki : k = i
    · rw [hki, Function.update_self, Function.update_self]
    · rw [Function.update_of_ne hki, Function.update_of_ne (fun e => hki (h.inc.inj hk hi e))]
      exact h.rdy k hk
  · intro k hk
    change infoBit info k = decide (update s.RdyTaskPri i v k ≠ INVALID_ID)
    rw [hinfo k]
    by_cases hki : k = i
    · rw [if_pos hki, hki, Function.update_self]
    · rw [if_neg hki, Function.update_of_ne hki]
      exact h.bits k hk

theorem lastReady_insertKey (h : SortedKey s.prio rdy) (t : Nat) :
    lastReady s.prio (insertKey s.prio t rdy) = update (lastReady s.prio rdy) (s.prio t) t := by
  funext p
  unfold lastReady
  rw [lastWith_insertKey h]
  by_cases hp : p = s.prio t
  · rw [if_pos hp, hp, Function.update_self]
    rfl
  · rw [if_neg hp, Function.update_of_ne hp]

theorem lastReady_erase {l1 l2 : List Nat} (t : Nat) :
    lastReady s.prio (l1 ++ l2) = update (lastReady s.prio (l1 ++ t :: l2)) (s.prio t)
      (lastReady s.prio (l1 ++ l2) (s.prio t)) := by
  funext p
  by_cases hp : p = s.prio t
  · rw [hp, Function.update_self]
  · rw [Function.update_of_ne hp]
    unfold lastReady
    rw [lastWith_erase_ne hp]

/-- **InsertToTCBRdyList**, binary build: the same links, and a table that fits. -/
theorem insertBinary_eq (h : Ready cfg s rdy) (hx : Indexed s cnt rdy) (ht : t < cfg.tasks)
    (hc : 0 < cnt (s.prio t)) :
    ∃ T, insertBinary s t =
        some { (s.setPriTable T).setRdyLinks (linkAfter s.rdyLinks (rdyPlace s rdy t) t) with
          TaskSchedReq := s.TaskSchedReq || (rdyPlace s rdy t).isNone } ∧
      TableOk (s.setPriTable T) cnt (lastReady s.prio (insertKey s.prio t rdy)) := by
  obtain ⟨i, hi, ha, hg⟩ := hx.table.index hc
  have htne : t ≠ INVALID_ID := by
    have := tasks_le cfg
    unfold INVALID_ID
    omega
  have hle : i < 256 := by
    have : i ≤ s.ActivePri i := Increasing.le hx.table.inc hi
    have := hx.byte _ (hx.table.pos i hi)
    omega
  have hlast : update (lastReady s.prio rdy) (s.ActivePri i) t =
      lastReady s.prio (insertKey s.prio t rdy) := by
    rw [ha, lastReady_insertKey h.sorted]
  unfold insertBinary
  simp only [hg, Option.bind_eq_bind, Option.bind_some]
  by_cases hb : getPrioSeqNumStatus s i = true
  · refine ⟨⟨s.PriNum, s.ActivePri, s.TaskNumPerPri, update s.RdyTaskPri i t, s.RdyTaskPriInfo⟩,
      ?_, ?_⟩
    · rw [if_pos hb, rdyPlace_own h hx hi ha hb]
      simp only [linkAfter, Option.isNone_some, Bool.or_false]
      rfl
    · rw [← hlast]
      refine hx.table.setEntry hi fun k => ?_
      by_cases hki : k = i
      · rw [if_pos hki, hki, decide_eq_true htne]
        exact hb
      · rw [if_neg hki]
  · have hbits := setPrioSeqNumStatus_bit { s with RdyTaskPri := update s.RdyTaskPri i t } i true
    refine ⟨⟨s.PriNum, s.ActivePri, s.TaskNumPerPri, update s.RdyTaskPri i t,
      (setPrioSeqNumStatus { s with RdyTaskPri := update s.RdyTaskPri i t } i true).RdyTaskPriInfo⟩,
      ?_, ?_⟩
    · rw [if_neg hb]
      obtain ⟨r, hr, hrv⟩ := getRdyPriSeqNum_spec { s with RdyTaskPri := update s.RdyTaskPri i t } i
      rw [hrv, rdyPlace_nearest h hx hi ha hr]
      cases r with
      | none => simp [linkAfter, setPrioSeqNumStatus, Kernel.setRdyLinks, Kernel.rdyLinks,
          Kernel.setPriTable]
      | some c =>
        obtain ⟨-, hci, hcb, -⟩ := hr
        have hne : c ≠ i := by
          intro e
          rw [e] at hcb
          exact hb hcb
        have hcne : c ≠ INVALID_ID := by
          unfold INVALID_ID
          omega
        simp [linkAfter, setPrioSeqNumStatus, Kernel.setRdyLinks, Kernel.rdyLinks,
          Kernel.setPriTable, hcne, Function.update_of_ne hne]
    · rw [← hlast]
      refine hx.table.setEntry hi fun k => ?_
      rw [hbits k, decide_eq_true htne]

/-- The index upkeep of **RemoveFromTCBRdyList**: a table that fits the list without `t`. -/
theorem removeIndex_eq {l1 l2 : List Nat} (h : Ready cfg s (l1 ++ t :: l2))
    (hx : Indexed s cnt (l1 ++ t :: l2)) {i : Nat} (hi : i < s.PriNum)
    (ha : s.ActivePri i = s.prio t) :
    ∃ T, removeIndex cfg s i t = s.setPriTable T ∧
      TableOk (s.setPriTable T) cnt (lastReady s.prio (l1 ++ l2)) := by
  have hn : s.TCBnext t = l2.head? := h.links.next_split
  have hp : s.TCBprev t = l1.getLast? := h.links.prev_split
  have hlast : ∀ v, lastReady s.prio (l1 ++ l2) (s.prio t) = v →
      update (lastReady s.prio (l1 ++ t :: l2)) (s.ActivePri i) v =
        lastReady s.prio (l1 ++ l2) := by
    intro v hv
    rw [ha, ← hv]
    exact (lastReady_erase t).symm
  have hbit : infoBit s.RdyTaskPriInfo i = true := (hx.bit h hi).mpr ⟨t, by simp, ha.symm⟩
  -- the three outcomes
  have keep : ∀ n, l2.head? = some n → s.prio n = s.prio t →
      TableOk s cnt (lastReady s.prio (l1 ++ l2)) := by
    intro n hn2 he
    have hsame : lastReady s.prio (l1 ++ l2) = lastReady s.prio (l1 ++ t :: l2) := by
      rw [lastReady_erase t]
      unfold lastReady
      rw [lastWith_erase_next hn2 he, Function.update_eq_self_iff]
    rw [hsame]
    exact hx.table
  have clear : (∀ n ∈ l2.head?, s.prio n ≠ s.prio t) → (∀ p ∈ l1.getLast?, s.prio p ≠ s.prio t) →
      ∃ T, setPrioSeqNumStatus { s with RdyTaskPri := update s.RdyTaskPri i INVALID_ID } i false =
        s.setPriTable T ∧ TableOk (s.setPriTable T) cnt (lastReady s.prio (l1 ++ l2)) := by
    intro hn2 hp2
    have hbits := setPrioSeqNumStatus_bit
      { s with RdyTaskPri := update s.RdyTaskPri i INVALID_ID } i false
    refine ⟨⟨s.PriNum, s.ActivePri, s.TaskNumPerPri, update s.RdyTaskPri i INVALID_ID,
      (setPrioSeqNumStatus { s with RdyTaskPri := update s.RdyTaskPri i INVALID_ID } i
        false).RdyTaskPriInfo⟩, rfl, ?_⟩
    rw [← hlast INVALID_ID ?_]
    · refine hx.table.setEntry hi fun k => ?_
      rw [hbits k]
      simp
    · unfold lastReady
      rw [lastWith_erase_last h.sorted hn2]
      cases hl : l1.getLast? with
      | none => rfl
      | some p => simp [hp2 p hl]
  have back : ∀ p, (∀ n ∈ l2.head?, s.prio n ≠ s.prio t) → l1.getLast? = some p →
      s.prio p = s.prio t → ∃ T, { s with RdyTaskPri := update s.RdyTaskPri i p } =
        s.setPriTable T ∧ TableOk (s.setPriTable T) cnt (lastReady s.prio (l1 ++ l2)) := by
    intro p hn2 hp2 he
    refine ⟨⟨s.PriNum, s.ActivePri, s.TaskNumPerPri, update s.RdyTaskPri i p, s.RdyTaskPriInfo⟩,
      rfl, ?_⟩
    have hpne : p ≠ INVALID_ID := by
      have := h.lt p (List.mem_append_left _ (List.mem_of_mem_getLast? hp2))
      have := tasks_le cfg
      unfold INVALID_ID
      omega
    rw [← hlast p ?_]
    · refine hx.table.setEntry hi fun k => ?_
      by_cases hki : k = i
      · rw [if_pos hki, hki, decide_eq_true hpne, hbit]
      · rw [if_neg hki]
    · unfold lastReady
      rw [lastWith_erase_last h.sorted hn2, hp2]
      simp [he]
  have stay : ∀ n, l2.head? = some n → s.prio n = s.prio t → ∃ T, s = s.setPriTable T ∧
      TableOk (s.setPriTable T) cnt (lastReady s.prio (l1 ++ l2)) := fun n hn2 he =>
    ⟨⟨s.PriNum, s.ActivePri, s.TaskNumPerPri, s.RdyTaskPri, s.RdyTaskPriInfo⟩, rfl, keep n hn2 he⟩
  unfold removeIndex
  rw [hn, hp]
  cases hn2 : l2.head? with
  | none =>
    rw [hn2] at clear back
    cases hp2 : l1.getLast? with
    | none =>
      rw [hp2] at clear
      exact clear (by simp) (by simp)
    | some p =>
      rw [hp2] at clear
      by_cases he : s.prio p = s.prio t
      · simp only [prioOf, he, ne_eq, not_true, if_false]
        exact back p (by simp) hp2 he
      · simp only [prioOf, he, ne_eq, not_false_iff, if_true]
        exact clear (by simp) (by simpa using he)
  | some n =>
    rw [hn2] at clear back
    cases hp2 : l1.getLast? with
    | none =>
      rw [hp2] at clear
      by_cases he : s.prio n = s.prio t
      · simp only [prioOf, he, ne_eq, not_true, if_false]
        exact stay n hn2 he
      · simp only [prioOf, he, ne_eq, not_false_iff, if_true]
        exact clear (by simpa using he) (by simp)
    | some p =>
      rw [hp2] at clear
      by_cases he : s.prio n = s.prio t
      · simp only [he, ne_eq, not_true, and_false, if_false]
        exact stay n hn2 he
      · by_cases he' : s.prio p = s.prio t
        · simp only [he, he', ne_eq, not_true, not_false_iff, false_and, if_false,
            and_self, if_true]
          exact back p (by simpa using he) hp2 he'
        · simp only [he, he', ne_eq, not_false_iff, and_self, if_true]
          exact clear (by simpa using he) (by simpa using he')

end Index

/-! ## Either build -/

/-- In the binary build the table fits the ready list. -/
def Fits (cfg : Env) (s : Kernel) (cnt : Nat → Nat) (rdy : List Nat) : Prop :=
  cfg.orderListScheduleEn = false → Indexed s cnt rdy

/-- `s` after `t` was made ready: new links, table, `OSCheckTime` and `TaskSchedReq`. -/
def Kernel.readied (s : Kernel) (t : Nat) (L : Links Nat) (T : PriTable) (ct : Nat)
    (req : Bool) : Kernel :=
  { (s.setPriTable T).setRdyLinks L with
    state := update s.state t .READY, OSCheckTime := ct, TaskSchedReq := req }

/-- `s` after a task left the ready list. -/
def Kernel.unreadied (s : Kernel) (L : Links Nat) (T : PriTable) : Kernel :=
  (s.setPriTable T).setRdyLinks L

section Either

variable {cfg : Env} {s : Kernel} {rdy : List Nat} {t : Nat} {cnt : Nat → Nat}

/-- Nothing to fit in the ordered-list build. -/
theorem fits_ordered (hord : cfg.orderListScheduleEn = true) : Fits cfg s cnt rdy := by
  intro hb
  rw [hord] at hb
  exact nomatch hb

/-- The table of a state. -/
def Kernel.priTable (s : Kernel) : PriTable :=
  ⟨s.PriNum, s.ActivePri, s.TaskNumPerPri, s.RdyTaskPri, s.RdyTaskPriInfo⟩

theorem Indexed.congr {s' : Kernel} (h : Indexed s cnt rdy) (hT : s'.priTable = s.priTable)
    (hp : s'.prio = s.prio) : Indexed s' cnt rdy := by
  obtain ⟨h1, h2, h3⟩ := h
  simp only [Kernel.priTable, PriTable.mk.injEq] at hT
  obtain ⟨e1, e2, e3, e4, e5⟩ := hT
  refine ⟨?_, ?_, h3⟩
  · rw [hp]
    exact h1.congr e1 e2 e3 e4 e5
  · rw [hp]
    exact h2

theorem Fits.congr {s' : Kernel} (h : Fits cfg s cnt rdy) (hT : s'.priTable = s.priTable)
    (hp : s'.prio = s.prio) : Fits cfg s' cnt rdy := fun hb => (h hb).congr hT hp

theorem Ready.congr {s' : Kernel} (h : Ready cfg s rdy) (hh : s'.TCBRdy = s.TCBRdy)
    (hl : ∀ a ∈ rdy, s'.TCBnext a = s.TCBnext a ∧ s'.TCBprev a = s.TCBprev a)
    (hp : ∀ a ∈ rdy, s'.prio a = s.prio a) : Ready cfg s' rdy := by
  refine ⟨h.links.congr hh (fun a ha => (hl a ha).1) (fun a ha => (hl a ha).2), ?_, h.lt⟩
  refine List.Pairwise.imp_of_mem ?_ h.sorted
  intro a b ha hb hab
  rw [hp a ha, hp b hb]
  exact hab

theorem robinCheck_eq (cfg : Env) (s : Kernel) (t : Nat) :
    ∃ ct, robinCheck cfg s t = { s with OSCheckTime := ct } := by
  unfold robinCheck
  split
  · exact ⟨_, rfl⟩
  · split
    · exact ⟨_, rfl⟩
    · exact ⟨_, rfl⟩

theorem rdyPlace_isNone (ht : t ∉ rdy) :
    (rdyPlace s rdy t).isNone = decide ((insertKey s.prio t rdy).head? = some t) := by
  obtain ⟨k, k', he, hk, hins, -, -⟩ := insertKey_split s.prio t rdy
  unfold rdyPlace
  rw [hk, hins]
  cases k with
  | nil => simp
  | cons x k =>
    have hxt : x ≠ t := fun e => ht (by rw [he, e]; simp)
    simp [hxt]

/-- **InsertToTCBRdyList**, the links that are written. -/
theorem insertToTCBRdyList_eq (h : Ready cfg s rdy) (hx : Fits cfg s cnt rdy) (ht : t < cfg.tasks)
    (hc : 0 < cnt (s.prio t)) :
    ∃ T ct, insertToTCBRdyList cfg s t =
        some (s.readied t (linkAfter s.rdyLinks (rdyPlace s rdy t) t) T ct
          (s.TaskSchedReq || (rdyPlace s rdy t).isNone)) ∧
      (cfg.orderListScheduleEn = false →
        TableOk (s.setPriTable T) cnt (lastReady s.prio (insertKey s.prio t rdy))) := by
  obtain ⟨ct, hct⟩ := robinCheck_eq cfg { s with state := update s.state t .READY } t
  have h' : Ready cfg { s with state := update s.state t .READY, OSCheckTime := ct } rdy :=
    ⟨h.links, h.sorted, h.lt⟩
  unfold insertToTCBRdyList
  simp only [hct]
  cases hb : cfg.orderListScheduleEn with
  | true =>
    refine ⟨s.priTable, ct, ?_, by simp⟩
    rw [if_pos rfl, insertOrdered_eq h']
    rfl
  | false =>
    obtain ⟨T, h1, h2⟩ := insertBinary_eq h' ((hx hb).congr rfl rfl) ht hc
    refine ⟨T, ct, ?_, fun _ => h2.congr rfl rfl rfl rfl rfl⟩
    rw [if_neg (by decide), h1]
    rfl

theorem insertToTCBRdyList_spec (h : Ready cfg s rdy) (hx : Fits cfg s cnt rdy)
    (ht : t < cfg.tasks) (hc : 0 < cnt (s.prio t)) (hmem : t ∉ rdy) (hn : s.TCBnext t = none)
    (hp : s.TCBprev t = none) :
    ∃ L T ct, insertToTCBRdyList cfg s t = some (s.readied t L T ct
        (s.TaskSchedReq || decide ((insertKey s.prio t rdy).head? = some t))) ∧
      IsDList L (insertKey s.prio t rdy) ∧
      (∀ a, a ∉ rdy → a ≠ t → L.next a = s.TCBnext a ∧ L.prev a = s.TCBprev a) ∧
      Fits cfg (s.setPriTable T) cnt (insertKey s.prio t rdy) := by
  obtain ⟨T, ct, h1, h2⟩ := insertToTCBRdyList_eq h hx ht hc
  rw [rdyPlace_isNone hmem] at h1
  refine ⟨_, T, ct, h1, isDList_linkAfter h hmem hn hp, fun a => linkAfter_frame h, ?_⟩
  intro hb
  refine ⟨h2 hb, ?_, (hx hb).byte⟩
  intro u hu
  rcases mem_insertKey.mp hu with rfl | hu
  · exact hc
  · exact (hx hb).pos u hu

theorem Ready.readied {L : Links Nat} {T : PriTable} {ct : Nat} {req : Bool}
    (h : Ready cfg s rdy) (ht : t < cfg.tasks) (hL : IsDList L (insertKey s.prio t rdy)) :
    Ready cfg (s.readied t L T ct req) (insertKey s.prio t rdy) := by
  refine ⟨hL, h.sorted.insertKey t, ?_⟩
  intro u hu
  rcases mem_insertKey.mp hu with rfl | hu
  · exact ht
  · exact h.lt u hu

/-- **RemoveFromTCBRdyList.** -/
theorem removeFromTCBRdyList_spec {l1 l2 : List Nat} (h : Ready cfg s (l1 ++ t :: l2))
    (hx : Fits cfg s cnt (l1 ++ t :: l2)) :
    ∃ T, removeFromTCBRdyList cfg s t = some (s.unreadied (s.rdyLinks.unlink t) T) ∧
      Fits cfg (s.setPriTable T) cnt (l1 ++ l2) := by
  unfold removeFromTCBRdyList
  cases hb : cfg.orderListScheduleEn with
  | true =>
    refine ⟨s.priTable, rfl, ?_⟩
    intro e
    rw [hb] at e
    exact absurd e (by decide)
  | false =>
    obtain ⟨i, hi, ha, hg⟩ := (hx hb).table.index ((hx hb).pos t (by simp))
    obtain ⟨T, h1, h2⟩ := removeIndex_eq h (hx hb) hi ha
    refine ⟨T, ?_, fun _ => ⟨h2, ?_, (hx hb).byte⟩⟩
    · rw [if_neg (by decide)]
      simp only [hg, Option.bind_eq_bind, Option.bind_some, h1]
      rfl
    · intro u hu
      refine (hx hb).pos u ?_
      rcases List.mem_append.mp hu with hu | hu
      · exact List.mem_append_left _ hu
      · exact List.mem_append_right _ (List.mem_cons_of_mem _ hu)

theorem Ready.unreadied {l1 l2 : List Nat} {T : PriTable} (h : Ready cfg s (l1 ++ t :: l2)) :
    Ready cfg (s.unreadied (s.rdyLinks.unlink t) T) (l1 ++ l2) := by
  have hsub : (l1 ++ l2).Sublist (l1 ++ t :: l2) := (List.sublist_cons_self t l2).append_left l1
  exact ⟨isDList_unlink h.links, List.Pairwise.sublist hsub h.sorted,
    fun u hu => h.lt u (hsub.subset hu)⟩

end Either

end CoOS
