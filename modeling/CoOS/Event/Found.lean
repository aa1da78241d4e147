/-
  A task that a pend has blocked is in the waiting list of its event, where the posts find it.

  `EventTaskToWait` links its task when the sort type of the event is one of the two that it
  tests for; with any other, which `CoCreateMbox` and `CoCreateQueue` accept, the task waits in
  no list.
-/
import CoOS.Event.Race
import CoOS.Run.Expiry

namespace CoOS

open Function (update)
open DList KeyOrder

/-! ## One task -/

section One

variable {cfg : Env} {s : Kernel} {g : Ghost} {e t : Nat}

/-- The list part of `EventTaskToWait` links its task if and only if it knows the sort type. -/
theorem linkWaiting_found (h : Rep cfg s g) (ht : t < cfg.tasks) (he : e < cfg.maxEvent)
    (ho : g.evt.loc t = none) : ∃ s', linkWaiting cfg s e t = some s' ∧
      (t ∈ s'.waiters cfg e ↔ s.eventSortType e = sortFifo ∨ s.eventSortType e = sortPrio) := by
  by_cases hs : s.eventSortType e = sortFifo ∨ s.eventSortType e = sortPrio
  · obtain ⟨L, h1, h2⟩ := h.joinEvent ht he ho hs
    refine ⟨_, h1, iff_of_true ?_ hs⟩
    rw [h2.waiters_eq, h2.evt.mem]
    exact Family.put_loc_self ..
  · obtain ⟨h1, h2⟩ := not_or.mp hs
    refine ⟨s, ?_, iff_of_false (fun hm => ?_) hs⟩
    · unfold linkWaiting
      rw [if_neg h1, if_neg h2]
    · rw [h.waiters_eq, h.evt.mem, ho] at hm
      exact nomatch hm

end One

/-! ## Posts that succeed -/

/-- A post to `e` that was answered `E_OK`. -/
def Entry.posts (e : Nat) (en : Entry) : Bool :=
  match en.op with
  | .inl (.post _ id _) => decide (id = e) && en.okVal.isSome
  | _ => false

/-- A step in which no task joins the waiting list of `e`. -/
def NoneJoins (cfg : Env) (e : Nat) (m : Sys) (rs : List SQC) (a : Act) : Prop :=
  Fine cfg m rs a ∧ (a = .resume → m.joins ≠ some e)

instance (cfg : Env) (e : Nat) (m : Sys) (rs : List SQC) (a : Act) :
    Decidable (NoneJoins cfg e m rs a) :=
  inferInstanceAs (Decidable (_ ∧ (_ → _)))

/-- Of `n` tasks that waited for `e` when the record was `L`, each post that has succeeded since
    has released one, as long as there were any. -/
def AtMost (L : List Entry) (n e : Nat) (a : Abs) : Prop :=
  ∃ (L' : List Entry) (W : List Nat), a.log = L ++ L' ∧ W.length ≤ n - L'.countP (Entry.posts e) ∧
    ∀ t, a.d.evt.loc t = some e → t ∈ W

section Posts

variable {cfg : Env} {L : List Entry} {a : Abs} {n e r : Nat}

theorem posts_silent {en : Entry} (h : en.silent) : en.posts e = false := by
  unfold Entry.posts
  split
  · next hop =>
    unfold Entry.silent at h
    rw [hop] at h
    dsimp only at h
    rw [h]
    exact Bool.and_false _
  · rfl

/-- Nobody joins, and there was no post. -/
theorem AtMost.sub (h : AtMost L n e a) {d : Data} {alive : Nat → Prop} {cont : Nat → Cont}
    (hl : ∀ t, d.evt.loc t = some e → a.d.evt.loc t = some e) {en : Entry}
    (he : en.posts e = false) :
    AtMost L n e ⟨d, alive, cont, a.log ++ [en]⟩ := by
  obtain ⟨L', W, h1, h2, h3⟩ := h
  refine ⟨L' ++ [en], W, ?_, ?_, fun t ht => h3 t (hl t ht)⟩
  · rw [h1, List.append_assoc]
  · rw [List.countP_append, List.countP_singleton, he]
    exact h2

theorem AtMost.keep (h : AtMost L n e a) {d : Data}
    (hl : ∀ t, d.evt.loc t = some e → a.d.evt.loc t = some e) :
    AtMost L n e { a with d := d } := by
  obtain ⟨L', W, h1, h2, h3⟩ := h
  exact ⟨L', W, h1, h2, fun t ht => h3 t (hl t ht)⟩

/-- A post that succeeds releases a task, if any waits. -/
theorem AtMost.post (h : AtMost L n e a) (hw : EvtOk a.d) (ho : EventsOk a.d.aside) {k : EventType}
    {e' : Nat} {v : Nat} (hi : k ≠ .invalid) (hk : a.d.aside.isKind cfg k e')
    (hf : a.d.aside.full e' = false) : ∃ (L' : List Entry) (W : List Nat), a.log = L ++ L' ∧
      W.length ≤ n - (L'.countP (Entry.posts e) + if e' = e then 1 else 0) ∧
      ∀ t, (a.d.postOk e' (k.mail v)).evt.loc t = some e → t ∈ W := by
  obtain ⟨L', W, h1, h2, h3⟩ := h
  have hty : a.d.aside.eventType e' ≠ .invalid := by
    rw [hk.2]
    exact hi
  rcases postOk_cases ho hty hf (fun hs => mail_sem (hk.2.symm.trans hs))
    with ⟨hn, hp⟩ | ⟨t, x, l, rest, hp⟩
  · rw [hp.evt]
    by_cases he : e' = e
    · subst he
      refine ⟨L', [], h1, Nat.zero_le _, fun t ht => ?_⟩
      have hm := (hw.mem e' t).mpr ht
      rw [hn] at hm
      exact hm
    · rw [if_neg he]
      exact ⟨L', W, h1, h2, h3⟩
  · rw [hp.evt]
    have hloc : a.d.evt.loc t = some e' := (hw.mem e' t).mp (hp.lst ▸ List.mem_cons_self)
    have hne : ∀ {u : Nat}, (a.d.evt.take e' t l).loc u = some e → u ≠ t ∧
      a.d.evt.loc u = some e := by
      intro u hu
      have hut : u ≠ t := by
        rintro rfl
        rw [Family.take_loc_self] at hu
        exact nomatch hu
      rw [Family.take_loc_ne _ _ hut] at hu
      exact ⟨hut, hu⟩
    by_cases he : e' = e
    · subst he
      have ht : t ∈ W := h3 t hloc
      refine ⟨L', W.erase t, h1, ?_, fun u hu => ?_⟩
      · rw [if_pos rfl, List.length_erase_of_mem ht]
        omega
      · obtain ⟨h4, h5⟩ := hne hu
        exact (List.mem_erase_of_ne h4).mpr (h3 u h5)
    · rw [if_neg he]
      exact ⟨L', W, h1, h2, fun u hu => h3 u (hne hu).2⟩

theorem atMost_keeps :
    Keeps cfg (NoneJoins cfg e) (fun a => EventsOk a.d.aside) (AtMost L n e) := by
  refine Keeps.turns (fun _ _ _ h => h.1) (fun _ h _ => h)
    (fun hl _ h => h.keep fun t ht => by rw [← hl.evt]; exact ht)
    (fun {a k e'} v hg hw hi hk hf h => ?_) fun {m rs act a a1 r} hok hat hg h ht => ?_
  · obtain ⟨L', W, h1, h2, h3⟩ := h.post (v := v) hw.evt hg hi hk hf
    exact ⟨L', W, h1, by omega, h3⟩
  cases ht with
  | quiet hr hd ht hc he => exact h.sub (fun t ht => by rw [← hd.evt]; exact ht) (posts_silent he)
  | ask h0 hk hs => exact h.sub (fun _ ht => ht) rfl
  | @take c k e' v l hc h0 hk hs =>
    have he : Entry.posts e ⟨r, .inl c, some (if k = .sem then 0 else v, .E_OK)⟩ = false := by
      rcases hc with rfl | ⟨n', rfl⟩
      · rfl
      · rfl
    exact h.sub (d := { a.d with aside := (a.d.aside.pop e').note e' v .taken }) (fun _ ht => ht) he
  | @post k e' v h0 hk hi hf =>
    obtain ⟨L', W, h1, h2, h3⟩ := h.post (v := v) hat.wf.evt hg hi hk hf
    refine ⟨L' ++ [⟨r, .inl (.post k e' v), some (0, .E_OK)⟩], W, ?_, ?_, h3⟩
    · dsimp only
      rw [h1, List.append_assoc]
    · rw [List.countP_append, List.countP_singleton]
      have hen : Entry.posts e ⟨r, .inl (.post k e' v), some (0, .E_OK)⟩ = decide (e' = e) :=
        Bool.and_true _
      rw [hen]
      by_cases he : e' = e
      · rw [if_pos he] at h2
        rw [decide_eq_true he]
        exact h2
      · rw [if_neg he] at h2
        rw [decide_eq_false he]
        exact h2
  | @create act i p w en h0 ha he hi =>
    exact h.sub (d := a.d.create i p w) (fun _ ht => ht) (posts_silent he)
  | @delete c t en hc h0 he =>
    refine h.sub (fun u hu => ?_) (posts_silent he)
    change (if u ∈ [t] then none else a.d.evt.loc u) = some e at hu
    split at hu
    · exact nomatch hu
    · exact hu
  | @setPrio t p en h0 hp he =>
    exact h.sub (fun u hu => by rw [setPrio_loc] at hu; exact hu) (posts_silent he)
  | @wait k e' n' h0 =>
    refine h.sub (fun u hu => ?_) rfl
    by_cases hur : u = r
    · subst hur
      rw [show (a.d.wait e' u n').evt.loc u = some e' from Family.put_loc_self ..] at hu
      obtain rfl := Option.some.inj hu
      refine absurd ?_ (hok.2 rfl)
      unfold Sys.joins
      rw [hat.running]
      dsimp only
      rw [← hat.cont, h0]
    · rwa [show (a.d.wait e' r n').evt.loc u = a.d.evt.loc u from Family.put_loc_ne _ _ hur] at hu
  | @back k e' n' h0 =>
    refine h.sub (fun u hu => ?_) rfl
    rw [(pendReturn_lists a.d r n').1] at hu
    exact hu
  | @tick T hT =>
    refine h.keep fun u hu => ?_
    change (if u ∈ T then none else a.d.evt.loc u) = some e at hu
    split at hu
    · exact nomatch hu
    · exact hu

end Posts

/-! ## Runs -/

section Runs

variable {cfg : Env} {i : Idle} {us : List Setup} {m0 m : Sys}

theorem Coh.waiting_found {s : Kernel} {g : Ghost} (h : Coh cfg s g) {t : Nat} (ht : t < cfg.tasks)
    (hw : s.state t = .WAITING) (hid : s.eventID t ≠ INVALID_ID) :
    g.evt.loc t = some (s.eventID t) := by
  have hlive : Live cfg g t := by
    refine ⟨ht, fun hf => ?_⟩
    have := (h.free t hf).2
    rw [hw] at this
    unfold Kernel.spareState at this
    split at this
    · exact nomatch this
    · exact nomatch this
  have hev := (h.task t hlive).ev
  cases hl : g.evt.loc t with
  | none =>
    rw [hl] at hev
    exact absurd hev hid
  | some e =>
    rw [hl] at hev
    exact congrArg some hev.symm

/-- **A blocked task can be found**: where every event has one of the two sort types, a task that
    waits for an event is in its list, and as many posts as there are tasks in the list release
    them all. With any other sort type the next task to wait would be in no list. -/
theorem blocked_found (hu : ∀ u ∈ us, u.Valid) (hb : boot cfg i us = some m0)
    (h : Reach cfg (Fine cfg) m0 m) :
    (∀ t, t < cfg.tasks → m.k.state t = .WAITING → m.k.eventID t ≠ INVALID_ID →
      t ∈ m.k.waiters cfg (m.k.eventID t)) ∧
    (∀ e m', e ≠ INVALID_ID → Reach cfg (NoneJoins cfg e) m m' →
      (m.k.waiters cfg e).length ≤ (m'.log.drop m.log.length).countP (Entry.posts e) →
      ∀ t, t < cfg.tasks → m'.k.state t = .WAITING → m'.k.eventID t ≠ e) ∧
    ∀ t e sort, m.k.TCBRunning = some t → e < cfg.maxEvent → ∃ s',
      linkWaiting cfg { m.k with eventSortType := update m.k.eventSortType e (sort % 16) } e t =
        some s' ∧
      (t ∈ s'.waiters cfg e ↔ sort % 16 = sortFifo ∨ sort % 16 = sortPrio) := by
  obtain ⟨g0, r0, hbt, -⟩ := booted hu hb
  obtain ⟨g, r, F, hi, hflow⟩ := h.rule (fun _ _ _ h => h)
    (@flow_keeps cfg (Fine cfg) m0.k.aside fun _ _ _ h => h) ⟨g0, r0, [], hbt.inv, hbt.ledger.flow⟩
  have hlist : ∀ e, m.k.waiters cfg e = g.evt.lst e := hi.stable.coh.rep.waiters_eq
  refine ⟨fun t ht hw hid => ?_, fun e m' he hr hn t ht hw hid => ?_, fun t e sort ht he => ?_⟩
  · rw [hlist]
    exact (hi.stable.coh.rep.evt.mem _ t).mpr (hi.stable.coh.waiting_found ht hw hid)
  · have hkeeps := (@flow_keeps cfg (NoneJoins cfg e) m0.k.aside fun _ _ _ h => h.1).and
      ((@atMost_keeps cfg m.log (m.k.waiters cfg e).length e).mono fun _ h => h.ok)
    have hstart : AtMost m.log (m.k.waiters cfg e).length e (m.abs cfg.served g) := by
      refine ⟨[], g.evt.lst e, (List.append_nil _).symm, ?_,
        fun t ht => (hi.stable.coh.rep.evt.mem e t).mpr ht⟩
      rw [hlist]
      exact Nat.le_refl _
    obtain ⟨g', r', F', hi', -, L', W, h1, h2, h3⟩ := hr.rule (fun _ _ _ h => h.1) hkeeps
      ⟨g, r, F, hi, hflow, hstart⟩
    rw [show m'.log = m.log ++ L' from h1, List.drop_left] at hn
    have hW : W = [] := List.length_eq_zero_iff.mp (by omega)
    have hloc := hi'.stable.coh.waiting_found ht hw (hid ▸ he)
    rw [hid] at hloc
    have := h3 t hloc
    rw [hW] at this
    exact absurd this List.not_mem_nil
  · have hp := hi.stable.picked
    have htr : t = r := Option.some.inj (ht.symm.trans hi.stable.running)
    obtain ⟨-, hev⟩ := hi.stable.coh.loc_of_running hp.live hp.running
    have hs : update m.k.eventSortType e (sort % 16) e = sort % 16 := Function.update_self ..
    obtain ⟨s', h1, h2⟩ := @linkWaiting_found cfg.served
      { m.k with eventSortType := update m.k.eventSortType e (sort % 16) } g e t
      (hi.stable.coh.rep.congr rfl rfl rfl rfl rfl) (htr ▸ hp.live.1) he (htr ▸ hev)
    change _ ↔ update m.k.eventSortType e (sort % 16) e = _ ∨
      update m.k.eventSortType e (sort % 16) e = _ at h2
    rw [hs] at h2
    exact ⟨s', h1, h2⟩

/-- A mailbox whose sort type has more than 4 bits: task 1 waits for it, and a post of task 2
    releases it. -/
theorem blocked_found_shipped : ∃ m0 m m', boot shippedEnv shippedIdle
      [.plainTask 5, .plainTask 10, .mbox 17] = some m0 ∧
    Reach shippedEnv (Fine shippedEnv) m0 m ∧ m.k.state 1 = .WAITING ∧ m.k.eventID 1 = 0 ∧
    1 ∈ m.k.waiters shippedEnv 0 ∧ Reach shippedEnv (NoneJoins shippedEnv 0) m m' ∧
    ∀ t, t < shippedEnv.tasks → m'.k.state t = .WAITING → m'.k.eventID t ≠ 0 := by
  obtain ⟨m0, m, h1, h2, h3⟩ := @ran shippedEnv (Fine shippedEnv) _ shippedIdle
    [.plainTask 5, .plainTask 10, .mbox 17] [([], .call (.pend .mbox 0 0)), ([], .resume)] _
    (fun m => (m.k.state 1, m.k.eventID 1,
      (runs shippedEnv (NoneJoins shippedEnv 0) m [([], .call (.post .mbox 0 7))]).map fun m' =>
        decide ((m.k.waiters shippedEnv 0).length ≤ (m'.log.drop m.log.length).countP
          (Entry.posts 0))))
    (.WAITING, 0, some true) (by decide +kernel)
  obtain ⟨h4, h5⟩ := Prod.mk.inj h3
  obtain ⟨h6, h7⟩ := Prod.mk.inj h5
  obtain ⟨m', h8, h9⟩ := Option.map_eq_some_iff.mp h7
  have hr : Reach shippedEnv (NoneJoins shippedEnv 0) m m' := runs_reach _ .start h8
  obtain ⟨h10, h11, -⟩ := blocked_found (by decide) h1 h2
  have hfound := h10 1 (by decide) h4 (by rw [h6]; decide)
  rw [h6] at hfound
  exact ⟨m0, m, m', h1, h2, h4, h6, hfound, hr, h11 0 m' (by decide) hr (of_decide_eq_true h9)⟩

/-- `CoCreateMbox(0)`: task 1 waits for the mailbox and is not in its list; a post of task 2
    succeeds and does not release it. -/
theorem blocked_lost :
    ∃ m0 m m', boot shippedEnv shippedIdle [.plainTask 5, .plainTask 10, .mbox 0] =
      some m0 ∧ Reach shippedEnv (Fine shippedEnv) m0 m ∧ m.k.state 1 = .WAITING ∧
      m.k.eventID 1 = 0 ∧
    1 ∉ m.k.waiters shippedEnv 0 ∧ m.step shippedEnv [] (.call (.post .mbox 0 7)) = some m' ∧
    m'.log = m.log ++ [⟨2, .inl (.post .mbox 0 7), some (0, .E_OK)⟩] ∧ m'.k.state 1 = .WAITING ∧
    m'.k.eventID 1 = 0 := by
  obtain ⟨m0, m, h1, h2, h3⟩ := @ran shippedEnv (Fine shippedEnv) _ shippedIdle
    [.plainTask 5, .plainTask 10, .mbox 0] [([], .call (.pend .mbox 0 0)), ([], .resume)] _
    (fun m => (decide (m.k.state 1 = .WAITING ∧ m.k.eventID 1 = 0 ∧ 1 ∉ m.k.waiters shippedEnv 0),
      (m.step shippedEnv [] (.call (.post .mbox 0 7))).map fun m' : Sys =>
        decide (m'.log = m.log ++ [⟨2, .inl (.post .mbox 0 7), some (0, .E_OK)⟩] ∧
          m'.k.state 1 = .WAITING ∧ m'.k.eventID 1 = 0)))
    (true, some true) (by decide +kernel)
  obtain ⟨h4, h5⟩ := Prod.mk.inj h3
  obtain ⟨m', h6, h7⟩ := Option.map_eq_some_iff.mp h5
  obtain ⟨h8, h9, h10⟩ := of_decide_eq_true h4
  exact ⟨m0, m, m', h1, h2, h8, h9, h10, h6, of_decide_eq_true h7⟩

end Runs

end CoOS
