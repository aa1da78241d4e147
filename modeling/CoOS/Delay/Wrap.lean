/-
  `CoTickDelay` on any delay list. `InsertDelayList` decides by the sign of a 32-bit difference,
  and every request but 0 and `INVALID_VALUE` is accepted; the list keeps its ticks, and the
  caller gets those it asked for, exactly when the differences fit in 31 bits (`Near`).
-/
import CoOS.Lib.Wrap
import CoOS.Kernel.Sched
import CoOS.Kernel.Wait
import CoOS.Lib.Ensures
import CoOS.Kernel.System

namespace CoOS

open Function (update)
open DList

/-- What the switch to another task leaves of the delay list. -/
structure DlyKept (s s' : Kernel) (rl : List Nat) : Prop where
  head : s'.DlyList = s.DlyList
  cnt : s'.delayTick = s.delayTick
  links : ∀ a, a ∉ rl → s'.TCBnext a = s.TCBnext a ∧ s'.TCBprev a = s.TCBprev a

section Unlock

variable {cfg : Env} {s s' : Kernel} {rl : List Nat} {l : List (Nat × Nat)} {t : Nat}

theorem removeIndex_dly (seqNum : Nat) :
    (removeIndex cfg s seqNum t).dly = s.dly ∧ (removeIndex cfg s seqNum t).rdyLinks =
    s.rdyLinks := by
  unfold removeIndex
  dsimp only
  split
  · exact ⟨rfl, rfl⟩
  · split
    · exact ⟨rfl, rfl⟩
    · exact ⟨rfl, rfl⟩
  · split
    · exact ⟨rfl, rfl⟩
    · exact ⟨rfl, rfl⟩
  · split
    · exact ⟨rfl, rfl⟩
    · split
      · exact ⟨rfl, rfl⟩
      · exact ⟨rfl, rfl⟩

/-- A task leaves the ready list. -/
theorem unlink_kept (hr : IsDList s.rdyLinks rl) (ht : t ∈ rl) {s0 : Kernel} (h0 : s0.dly = s.dly)
    (h1 : s0.rdyLinks = s.rdyLinks) : DlyKept s (s0.setRdyLinks (s0.rdyLinks.unlink t)) rl := by
  obtain ⟨l1, l2, rfl⟩ := List.append_of_mem ht
  rw [h1]
  refine ⟨congrArg (fun D => D.head) h0, congrArg Delta.cnt h0, fun a ha => ?_⟩
  exact unlink_frame hr ha

theorem removeFromTCBRdyList_kept (hr : IsDList s.rdyLinks rl) (ht : t ∈ rl) :
    Ensures (removeFromTCBRdyList cfg s t) fun s' => DlyKept s s' rl := by
  unfold removeFromTCBRdyList
  refine .ite (fun _ => .some (unlink_kept hr ht rfl rfl)) fun _ => ?_
  refine Ensures.skip fun x => ?_
  obtain ⟨h0, h1⟩ := @removeIndex_dly cfg s t x.2
  exact .some (unlink_kept hr ht h0 h1)

/-- The running task has blocked: another one takes over. -/
theorem schedule_kept (hr : IsDList s.rdyLinks rl)
    (hcur : ∀ cur, s.TCBRunning = some cur → s.state cur ≠ .RUNNING) :
    Ensures (schedule cfg s) fun s' => DlyKept s s' rl := by
  have hrefl : DlyKept s s rl := ⟨rfl, rfl, fun _ _ => ⟨rfl, rfl⟩⟩
  unfold schedule
  split
  · next rdy cur h1 h2 =>
    refine .ite (fun _ => .some hrefl) fun _ => ?_
    dsimp only
    rw [if_pos (hcur cur h2)]
    have hmem : rdy ∈ rl := by
      have hh : s.TCBRdy = rl.head? := hr.head
      rw [h1] at hh
      exact List.mem_of_mem_head? hh.symm
    refine Ensures.bind (removeFromTCBRdyList_kept (s := { s with
      TaskSchedReq := false, TCBNext := some rdy, state := update s.state rdy .RUNNING }) hr hmem)
      fun s1 h3 => .some ?_
    unfold resetCheckTime
    split
    · exact ⟨h3.head, h3.cnt, h3.links⟩
    · exact ⟨h3.head, h3.cnt, h3.links⟩
  · exact .some hrefl

/-- The same list in the columns of another state. -/
theorem DlyKept.counted (h : DlyKept s s' rl) (hl : Counted s.dly l)
    (hd : ∀ t ∈ l.map Prod.fst, t ∉ rl) :
    Counted s'.dly l := by
  refine ⟨hl.links.congr h.head (fun a ha => (h.links a (hd a ha)).1)
    (fun a ha => (h.links a (hd a ha)).2), ?_, ?_⟩
  · refine hl.cnts.congr fun x _ => ?_
    exact congrFun h.cnt x.1
  · intro x hx
    exact (congrFun h.cnt x.1).trans_lt (hl.word x hx)

end Unlock

/-- **A delay of `n` ticks.** `l` is the delay list with the ticks left, `rl` the ready list, and
    `r` the running task. The tasks of the list keep their ticks and their order, and the caller
    has `n` left, if and only if every task due not later than `n` is fewer than `2 ^ 31` ticks
    before it and the first one due later at most `2 ^ 31` ticks after it. -/
theorem tickDelay_exact {cfg : Env} {s s' : Kernel} {l : List (Nat × Nat)}
    {rl : List Nat} {r n : Nat}
    (hrun : s.TCBRunning = some r) (hl : Counted s.dly l) (hrdy : IsDList s.rdyLinks rl)
    (hlt : ∀ t ∈ l.map Prod.fst, t < cfg.tasks) (hdisj : ∀ t ∈ l.map Prod.fst, t ∉ rl)
    (hr : r ∉ l.map Prod.fst ∧ r ∉ rl ∧ s.TCBnext r = none ∧ s.TCBprev r = none)
    (hi : s.IsrReq = false) (hn : n < 2 ^ 32) (hn0 : n ≠ 0)
    (h : coTickDelay cfg s n = some (s', .E_OK)) :
    ∃ l', Counted s'.dly l' ∧ ((r, n) ∈ l' ∧ l'.filter (·.1 ≠ r) = l ↔ Near n l) := by
  obtain ⟨hrl, hrr, hnx, hpv⟩ := hr
  have hlen : l.length ≤ cfg.tasks := by
    have hle := length_le_of_lt hl.links.nodup hlt
    rwa [List.length_map] at hle
  obtain ⟨D, k, k', m, d, h1, h2⟩ := insert_wrap hl hrl hnx hpv hn hlen
  refine ⟨_, ?_, h2.good_iff⟩
  unfold coTickDelay at h
  split at h
  · exact nomatch (Prod.mk.inj (Option.some.inj h)).2
  split at h
  · exact nomatch (Prod.mk.inj (Option.some.inj h)).2
  split at h
  · exact nomatch (Prod.mk.inj (Option.some.inj h)).2
  next hlock =>
  rw [hrun] at h
  obtain ⟨s1, h3, h⟩ := Option.bind_eq_some_iff.mp h
  obtain ⟨s2, h4, h⟩ := Option.bind_eq_some_iff.mp h
  obtain rfl : s2 = s' := congrArg Prod.fst (Option.some.inj h)
  unfold insertDelayList at h3
  rw [if_neg hn0] at h3
  obtain ⟨D', h5, h6⟩ := Option.bind_eq_some_iff.mp h3
  obtain rfl : D = D' := Option.some.inj (h1.symm.trans h5)
  -- the state after the insertion: the caller waits, and the ready list is as it was
  have hlock1 : s1.OSSchedLock = 1 := by
    rw [← Option.some.inj h6]
    exact congrArg Nat.succ (not_not.mp hlock)
  have hreq : s1.IsrReq = false ∧ s1.TaskSchedReq = true ∧ s1.dly = D := by
    rw [← Option.some.inj h6]
    exact ⟨hi, rfl, rfl⟩
  have hcur : ∀ cur, s1.TCBRunning = some cur → s1.state cur ≠ .RUNNING := by
    rw [← Option.some.inj h6]
    intro cur hc e
    obtain rfl : r = cur := Option.some.inj (hrun.symm.trans hc)
    have e1 : update s.state r TaskState.WAITING r = .RUNNING := e
    rw [Function.update_self] at e1
    exact nomatch e1
  have hmem : ∀ a ∈ rl, a ∉ l.map Prod.fst ∧ a ≠ r := fun a ha =>
    ⟨fun hm => hdisj a hm ha, fun e => hrr (e ▸ ha)⟩
  have hrdy1 : IsDList s1.rdyLinks rl := by
    rw [← Option.some.inj h6]
    exact hrdy.congr rfl (fun a ha => h2.frame.next a (hmem a ha).1 (hmem a ha).2)
      (fun a ha => h2.frame.prev a (hmem a ha).1 (hmem a ha).2)
  rw [osSchedUnlock_eq cfg hreq.1, if_pos hlock1, if_pos hreq.2.1] at h4
  obtain ⟨s3, h7, rfl⟩ := Option.map_eq_some_iff.mp h4
  have hkept := schedule_kept hrdy1 hcur s3 h7
  have hc : Counted s1.dly (k ++ (r, m) :: k'.map (laterBy d)) := by
    rw [hreq.2.2]
    exact h2.counted
  refine (hkept.counted hc fun t ht htr => ?_)
  rw [List.map_append, List.map_cons, map_later_fst, List.mem_append, List.mem_cons] at ht
  have hsplit : ∀ a, a ∈ k.map Prod.fst ∨ a ∈ k'.map Prod.fst → a ∈ l.map Prod.fst := fun a ha => by
    rw [h2.split, List.map_append, List.mem_append]
    exact ha
  rcases ht with ht | rfl | ht
  · exact hdisj t (hsplit t (Or.inl ht)) htr
  · exact hrr htr
  · exact hdisj t (hsplit t (Or.inr ht)) htr

/-- Task 1 has 5 ticks left; task 2, at whose call the other is delayed, runs, and task 0 is
    ready. -/
def OneDelayed (k : Kernel) : Prop :=
  k.TCBRunning = some 2 ∧ k.IsrReq = false ∧ k.DlyList = some 1 ∧ k.delayTick 1 = 5 ∧
    k.TCBRdy = some 0 ∧
    ∀ t, t < 3 → k.TCBnext t = none ∧ k.TCBprev t = none

instance (k : Kernel) : Decidable (OneDelayed k) := inferInstanceAs (Decidable (_ ∧ _))

theorem OneDelayed.lists {k : Kernel} (h : OneDelayed k) :
    Counted k.dly [(1, 5)] ∧ IsDList k.rdyLinks [0] := by
  obtain ⟨-, -, h3, h4, h5, h6⟩ := h
  obtain ⟨h7, h8⟩ := h6 1 (by decide)
  obtain ⟨h9, h10⟩ := h6 0 (by decide)
  refine ⟨⟨isDList_single h3 h7 h8, ⟨by decide, h4, trivial⟩, fun x hx => ?_⟩,
    isDList_single h5 h9 h10⟩
  rw [List.mem_singleton.mp hx]
  exact h4.trans_lt (by decide)

/-- Task 2 delays itself by `n` ticks after task 1 did so by 5. -/
theorem delayed_pair {n : Nat} {P : Kernel → Prop} [DecidablePred P]
    (h : ((boot shippedEnv shippedIdle [.task 1 1 (5 ||| (25 <<< 8)),
      .task 1 2 (10 ||| (25 <<< 8))]).bind fun m =>
      (m.step shippedEnv [] (.call (.tickDelay 5))).bind fun m =>
      (coTickDelay shippedEnv m.k n).map fun x =>
        decide (OneDelayed m.k ∧ x.2 = .E_OK ∧ P x.1)) = some true) :
    ∃ m0 m s, boot shippedEnv shippedIdle
    [.task 1 1 (5 ||| (25 <<< 8)), .task 1 2 (10 ||| (25 <<< 8))] = some m0 ∧
      m0.step shippedEnv [] (.call (.tickDelay 5)) = some m ∧ OneDelayed m.k ∧
      coTickDelay shippedEnv m.k n = some (s, .E_OK) ∧ P s := by
  obtain ⟨m0, h0, h⟩ := Option.bind_eq_some_iff.mp h
  obtain ⟨m, h1, h⟩ := Option.bind_eq_some_iff.mp h
  obtain ⟨⟨s, st⟩, h2, h⟩ := Option.map_eq_some_iff.mp h
  obtain ⟨h3, h4, h5⟩ := of_decide_eq_true h
  exact ⟨m0, m, s, h0, h1, h3, by rw [h2, ← h4], h5⟩

theorem tickDelay_exact_shipped :
    ∃ k s l', OneDelayed k ∧ coTickDelay shippedEnv k 7 = some (s, .E_OK) ∧
    Counted s.dly l' ∧ (2, 7) ∈ l' ∧ l'.filter (·.1 ≠ 2) = [(1, 5)] := by
  obtain ⟨-, m, s, -, -, h1, h2, -⟩ :=
    delayed_pair (n := 7) (P := fun _ => True) (by decide +kernel)
  obtain ⟨h3, h4⟩ := h1.lists
  obtain ⟨l', h5, h6⟩ := tickDelay_exact h1.1 h3 h4 (by decide) (by decide)
    ⟨by decide, by decide, h1.2.2.2.2.2 2 (by decide)⟩ h1.2.1 (by decide) (by decide) h2
  obtain ⟨h7, h8⟩ := h6.mpr (by decide)
  exact ⟨m.k, s, l', h1, h2, h5, h7, h8⟩

/-- Task 2 delays itself by `2 ^ 31 + 6` ticks: it is put before task 1, whose 5 ticks become
    `2 ^ 32 + 5`. -/
theorem long_delay_disturbs : ∃ m0 m s,
    boot shippedEnv shippedIdle
    [.task 1 1 (5 ||| (25 <<< 8)), .task 1 2 (10 ||| (25 <<< 8))] = some m0 ∧
      m0.step shippedEnv [] (.call (.tickDelay 5)) = some m ∧ OneDelayed m.k ∧
      coTickDelay shippedEnv m.k (2 ^ 31 + 6) = some (s, .E_OK) ∧
      s.dly.read shippedEnv.tasks = [(2, 2 ^ 31 + 6), (1, 2 ^ 32 + 5)] :=
  delayed_pair (P := fun s => s.dly.read shippedEnv.tasks = [(2, 2 ^ 31 + 6), (1, 2 ^ 32 + 5)])
    (by decide +kernel)

end CoOS
