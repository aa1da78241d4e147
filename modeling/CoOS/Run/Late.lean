/-
  Ticks in a locked section in which the task goes on calling. The first tick that ends a delay
  leaves the end to the unlock (`Kernel.Late`); until then there are counters that are 0, and the
  calls go on as before, because they look only at who is in the delay list.

  The unlock ends the delays first (`Pending.endDelays`) and then serves the requests.
-/
import CoOS.Run.Lock
import CoOS.Run.Effects

namespace CoOS

open Function (update)
open DList KeyOrder

section Late

variable {cfg : Env} {s : Kernel} {g : Ghost} {cur : Nat} {F : List Nat}

/-- **SysTick_Handler** with the scheduler locked. -/
theorem Pending.tickLocked (h : Pending cfg s g cur) :
    ∃ g', Pending cfg s.tickLocked g' cur ∧ g'.tcb = g.tcb ∧ g'.evt = g.evt := by
  have hi := h.coh.rep.isDelta
  have hsort : SortedKey Prod.snd g.dly := h.coh.rep.deltas.sorted
  cases hd : g.dly with
  | nil =>
    rw [hd] at hi
    have hh : s.DlyList = none := hi.links.head
    have hview : s.tickLocked.view = s.view := by
      unfold Kernel.tickLocked Kernel.view
      rw [hh]
      exact congrArg (fun l => ({ s with DlyList := l } : Kernel).view) hh.symm
    refine ⟨g, ⟨h.coh.congr hview, h.lt, h.running, h.next, h.lock, Or.inl rfl,
      fun _ x hx => ?_, h.idle⟩,
      rfl, rfl⟩
    rw [hd] at hx
    exact absurd hx List.not_mem_nil
  | cons x l =>
    rw [hd] at hi hsort
    have hh : s.DlyList = some x.1 := hi.links.head
    have hc : s.delayTick x.1 = x.2 := hi.cnts.2.1
    have hlow : s.tickLocked.delayTick = update s.delayTick x.1 (s.delayTick x.1 - 1) := by
      change lowerHead s.DlyList s.delayTick = _
      rw [hh]
      rfl
    have hview : s.tickLocked.view =
        ({ s with delayTick := update s.delayTick x.1 (s.delayTick x.1 - 1) } : Kernel).view :=
      congrArg (fun c => ({ s with delayTick := c } : Kernel).view) hlow
    -- a counter that comes to 0 makes the state late
    have hlate : x.2 ≤ 1 → s.tickLocked.Late := by
      intro hx
      have hdue : s.timeDue = true := by
        unfold Kernel.timeDue
        rw [hh, Option.any_some, hc]
        exact decide_eq_true hx
      refine ⟨?_, ?_⟩
      · change (s.IsrReq || s.timeDue || s.timerDue) = true
        rw [hdue, Bool.or_true, Bool.true_or]
      · change (s.TimeReq || s.timeDue) = true
        rw [hdue, Bool.or_true]
    by_cases hx : 0 < x.2
    · refine ⟨g.tickDown, ⟨(h.coh.tickDown hd hx).congr hview, h.lt, h.running, h.next,
        h.lock, Or.inl rfl, fun hn y hy => ?_, h.idle⟩, rfl, rfl⟩
      have h2 : 1 < x.2 := Nat.lt_of_not_le fun hle => hn (hlate hle)
      unfold Ghost.tickDown at hy
      rw [hd] at hy
      obtain ⟨z, hz, rfl⟩ := List.mem_map.mp hy
      have hle : x.2 ≤ z.2 := by
        rcases List.mem_cons.mp hz with rfl | hz
        · exact Nat.le_refl _
        · exact (List.pairwise_cons.mp hsort).1 z hz
      change 1 ≤ z.2 - 1
      omega
    · have h0 : s.delayTick x.1 - 1 = s.delayTick x.1 := by omega
      have hsame : s.tickLocked.view = s.view := by
        rw [hview, h0, Function.update_eq_self]
      exact ⟨g, ⟨h.coh.congr hsame, h.lt, h.running, h.next, h.lock, Or.inl rfl,
        fun hn => absurd (hlate (by omega)) hn, h.idle⟩, rfl, rfl⟩

/-- The delays of the tasks of `T` are ended, and of the requests only posts are left. -/
def Data.ended (d : Data) (T : List Nat) (b : Bool) : Data :=
  { d.expire T with aside := { (d.expire T).aside with IsrReq := b, TimeReq := false } }

/-- **TimeDispose** at the unlock. What `IsrReq` is to be does not matter for it. -/
theorem Pending.endDelays (h : Pending cfg s g cur) (hf : FlagOk cfg s g F) (b : Bool) :
    ∃ s1 g1 T F1, timeDispose cfg cfg.tasks s = some s1 ∧
      Pending cfg { s1 with IsrReq := b, TimeReq := false } g1 cur ∧ Calm g g1 ∧
      FlagOk cfg { s1 with IsrReq := b, TimeReq := false } g1 F1 ∧
      Holds { s1 with IsrReq := b, TimeReq := false } g1 ((s.data g).ended T b) ∧
      s1.OSSchedLock = s.OSSchedLock := by
  obtain ⟨Z, R, hZR, hZ, hR⟩ := split_zero h.coh.rep.deltas.sorted
  have hlen : Z.length ≤ cfg.tasks := by
    have h1 : g.dly.length ≤ cfg.tasks := h.coh.rep.dly_length
    rw [hZR, List.length_append] at h1
    omega
  obtain ⟨s1, g1, e1, e2, e3, e4⟩ := timeDispose_spec cfg.tasks Z hZ hR hlen h.coh hZR
  let T := Z.map Prod.fst
  have hT : ∀ t ∈ T, g.tcb.loc t = some .dly := by
    intro t ht
    obtain ⟨x, hx, rfl⟩ := List.mem_map.mp ht
    refine h.coh.rep.mem_dly.mp (List.mem_map_of_mem ?_)
    rw [hZR]
    exact List.mem_append_left _ hx
  have h0 : (0 : Nat) ∉ T := by
    intro hm
    rcases h.idle with e | e
    · rw [hT 0 hm] at e
      exact nomatch e
    · rw [hT 0 hm] at e
      exact nomatch e.1
  have hcalm : Calm g g1 := e4.calm fun t ht => by
    rw [hT t ht]
    exact plain_dly
  have hprio : s1.prio = s.prio :=
    (congrArg Aside.prio e4.aside).trans (congrArg EvtPart.prio (dropFlags_evtPart _ T))
  have hcpu : s1.cpu = s.cpu := e4.cpu
  have hlive : ∀ {t}, s.state t = .RUNNING → t ∉ T := fun {t} hr ht => by
    have hw :=
      (h.coh.task t ⟨h.coh.rep.lt t .dly (hT t ht), by rw [hT t ht]; exact nofun⟩).dly (hT t ht)
    rw [hr] at hw
    exact nomatch hw
  have hpend : Pending cfg { s1 with IsrReq := b, TimeReq := false } g1 cur := by
    refine ⟨e2.congr rfl, h.lt, (congrArg Cpu.TCBRunning hcpu).trans h.running,
      (congrArg Cpu.TCBNext hcpu).trans h.next,
        Nat.lt_of_lt_of_eq h.lock (congrArg Cpu.OSSchedLock hcpu).symm, ?_, fun _ => ?_, ?_⟩
    · change s1.TaskSchedReq = true ∨ s1.state cur = .RUNNING ∧ ∀ u ∈ g1.tcb.lst .rdy,
        s1.prio cur ≤ s1.prio u
      rcases e4.first with e | ⟨e, hfirst⟩
      · exact Or.inl e
      · rw [e, hprio]
        refine h.req.imp id fun ⟨hr, hle⟩ => ⟨?_, hfirst _ hle⟩
        rw [e4.state cur, if_neg (hlive hr)]
        exact hr
    · rw [e3]
      exact hR
    · refine h.idle.keep ?_ ?_
      · rw [e4.loc 0, if_neg h0]
      · exact (e4.state 0).trans (if_neg h0)
  have hholds : Holds { s1 with IsrReq := b, TimeReq := false } g1 ((s.data g).ended T b) := by
    refine ⟨congrArg (fun a : Aside => { a with IsrReq := b, TimeReq := false }) e4.aside, ?_,
      fun t => ?_,
      fun t => ?_⟩
    · rw [show g1.evt = ⟨g1.evt.lst, g1.evt.loc⟩ from rfl, funext e4.evl, funext e4.evt]
      rfl
    · change s1.state t = .WAITING ↔ t ∉ T ∧ s.state t = .WAITING
      rw [e4.state t]
      split
      · next ht => exact ⟨(fun e => nomatch e), fun e => absurd ht e.1⟩
      · next ht => exact ⟨fun e => ⟨ht, e⟩, fun e => e.2⟩
    · change g1.tcb.loc t = some .dly ↔ t ∉ T ∧ g.tcb.loc t = some .dly
      rw [e4.loc t]
      split
      · next ht => exact ⟨(fun e => nomatch e), fun e => absurd ht e.1⟩
      · next ht => exact ⟨fun e => ⟨ht, e⟩, fun e => e.2⟩
  have hD := hf.data.expire T
  refine ⟨s1, g1, T, F.filter (· ∉ T), e1, hpend, hcalm, ?_, hholds, congrArg Cpu.OSSchedLock hcpu⟩
  exact hf.next hcalm hholds ⟨hD.list.congr rfl rfl rfl, hD.wait⟩ fun t ht =>
    Or.inl (List.mem_of_mem_filter ht)

end Late

end CoOS
