/-
  What a switch, a creation, a deletion and the work of the running task do to the contexts that
  the machine shows, and that they keep it well formed (`Machine.Ok`).
-/
import CoOS.Port.Machine

namespace CoOS

open Function (update)
open Thumb Thumb.Reg

variable {n : Nat} {L : Layout n} {p : Port} {m m' : Machine n} {a : Tasks n} {r t : Fin n}

/-! ## The switch -/

section Switch

variable {A B : Area} {a x q : Word} {s : Fin n} {c : Cpu}

theorem span_up (h : a ∈ Span q 8) : a ∈ Span (q - 32) 16 := by
  obtain ⟨k, hk, rfl⟩ := h
  exact ⟨k + 8, by omega, by rw [BitVec.ofNat_add]; bv_omega⟩

theorem span_low (h : a ∈ Span q 8) : a ∈ Span q 16 := by
  obtain ⟨k, hk, rfl⟩ := h
  exact ⟨k, by omega, rfl⟩

theorem Area.has_of_span (hlo : A.lo ≤ q.toNat) (hhi : q.toNat + 64 ≤ A.hi) (h : A.hi ≤ 2 ^ 32)
    (hx : x ∈ Span q 16) :
    A.Has x := by
  obtain ⟨k, hk, rfl⟩ := hx
  unfold Area.Has
  constructor <;> bv_omega

theorem Machine.ctx_none (h : m.stack t = none) : m.ctx L t = none := by
  unfold Machine.ctx
  rw [h]
  rfl

theorem Machine.ctx_suspended (hA : m.stack t = some A) (h : m.Suspended L t) :
    m.ctx L t = some (savedCtx m.cpu.stkalign m.cpu.mem (m.cpu.mem (L.tcb t))) := by
  unfold Machine.ctx
  rw [hA, Option.map_some, if_pos h]

theorem Machine.ctx_running (hA : m.stack t = some A) (hs : m.cpu.spsel = true)
    (hr : m.cpu.mem (L.addr .TCBRunning) = L.tcb t) : m.ctx L t = some (ctxOf m.cpu) := by
  have h : ¬ m.Suspended L t := fun h => h.elim (fun e => nomatch hs.symm.trans e) fun e => e hr
  unfold Machine.ctx
  rw [hA, Option.map_some, if_neg h]

theorem Machine.suspended (hr : m.cpu.mem (L.addr .TCBRunning) = L.tcb r) (h : s ≠ r) :
    m.Suspended L s :=
  Or.inr fun e => h (L.tcb_inj (e.symm.trans hr))

theorem Machine.Ok.apart (ho : m.Ok L) (hr : m.stack r = some A) (ht : m.stack t = some B)
    (hne : t ≠ r)
    (ha : A.Has x) : ¬ B.Has x := by
  have h := (ho.area r A hr).2.2 t B (by rw [Function.update_of_ne hne, ht])
  unfold Area.Has at *
  omega

theorem Machine.Ok.frame_in (ho : m.Ok L) (ht : m.stack t = some B) (hs : m.Suspended L t)
    (hx : x ∈ Span (m.cpu.mem (L.tcb t)) 16) : B.Has x := by
  obtain ⟨-, hlo, hhi⟩ := ho.frame t B ht hs
  exact Area.has_of_span hlo hhi (ho.area t B ht).1 hx

/-- The sixteen words that the switch saves are on the stack of the running task. -/
theorem Machine.Ready.room (hy : m.Ready L) (ho : m.Ok L)
    (hr : m.cpu.mem (L.addr .TCBRunning) = L.tcb r)
    (hA : m.stack r = some A) : Aligned m.cpu.take.psp ∧ A.lo ≤ (m.cpu.take.psp - 32).toNat ∧
      (m.cpu.take.psp - 32).toNat + 64 ≤ A.hi := by
  rw [take_psp ho.thread]
  cases hs : m.cpu.spsel with
  | true =>
    obtain ⟨h4, hlo, hhi⟩ := hy.task hs r A hr hA
    rw [if_pos rfl]
    unfold frameBelow
    unfold Aligned at *
    split
    · exact ⟨by bv_omega, by bv_omega, by bv_omega⟩
    · exact ⟨by bv_omega, by bv_omega, by bv_omega⟩
  | false =>
    obtain ⟨h4, hlo, hhi⟩ := ho.frame r A hA (Or.inl hs)
    have e : m.cpu.mem (L.tcb r) + 32 - 32 = m.cpu.mem (L.tcb r) := by bv_omega
    rw [if_neg Bool.false_ne_true, ho.main hs r hr, e]
    exact ⟨aligned_add h4 8, hlo, hhi⟩

/-- The frame that the processor pushes leaves the pointers, and the stacks of the other tasks. -/
theorem Machine.Ready.pushed (hy : m.Ready L) (ho : m.Ok L)
    (hr : m.cpu.mem (L.addr .TCBRunning) = L.tcb r)
    (hA : m.stack r = some A)
    (ha : (∃ s, a = L.addr s) ∨ ∃ t B, m.stack t = some B ∧ m.Suspended L t ∧ B.Has a) :
    m.cpu.take.mem a = m.cpu.mem a := by
  rw [take_mem]
  refine storeWords_off fun hx => ?_
  have hx : a ∈ Span (frameBelow m.cpu.stkalign m.cpu.sp) 8 := hx
  cases hs : m.cpu.spsel with
  | true =>
    obtain ⟨-, hlo, hhi⟩ := hy.room ho hr hA
    have hsp : m.cpu.sp = m.cpu.psp := by
      unfold Cpu.sp
      rw [hs, ho.thread]
      rfl
    have hf : m.cpu.take.psp = frameBelow m.cpu.stkalign m.cpu.psp := by
      rw [take_psp ho.thread, if_pos hs]
    rw [hsp, ← hf] at hx
    have hAa : A.Has a := Area.has_of_span hlo hhi (ho.area r A hA).1 (span_up hx)
    obtain ⟨s, rfl⟩ | ⟨t, B, ht, hst, hB⟩ := ha
    · exact (ho.area r A hA).2.1 s hAa
    · have hne : t ≠ r := by
        rintro rfl
        exact hst.elim (fun h => nomatch hs.symm.trans h) fun h => h hr
      exact ho.apart hA ht hne hAa hB
  | false =>
    have hsp : m.cpu.sp = m.cpu.msp := by
      unfold Cpu.sp
      rw [hs]
      rfl
    rw [hsp] at hx
    obtain ⟨h1, h2⟩ := hy.main hs a hx
    obtain ⟨s, rfl⟩ | ⟨t, B, ht, -, hB⟩ := ha
    · exact h1 s rfl
    · exact h2 t B ht hB

/-- The context that the handler saves. -/
def Machine.saved (m : Machine n) : Ctx :=
  savedCtx m.cpu.stkalign
    (storeWords m.cpu.take.mem (m.cpu.take.psp - 32) (high.map m.cpu.take.reg))
    (m.cpu.take.psp - 32)

/-- What a switch from task `r` to task `t` leaves. -/
structure Machine.Switched (L : Layout n) (m : Machine n) (r t : Fin n) (c : Cpu) : Prop where
  thread : c.handler = false
  spsel : c.spsel = true
  stkalign : c.stkalign = m.cpu.stkalign
  there : (m.stack t).isSome
  running : c.mem (L.addr .TCBRunning) = L.tcb t
  exit : c.mem (L.addr .INT_EXIT) = m.cpu.mem (L.addr .INT_EXIT)
  stkPtr : ∀ s, s ≠ r → c.mem (L.tcb s) = m.cpu.mem (L.tcb s)
  frame : ∀ s, s ≠ r → (m.stack s).isSome →
    ∀ a ∈ Span (m.cpu.mem (L.tcb s)) 16, c.mem a = m.cpu.mem a
  same : t = r → ctxOf c = m.saved
  out : t ≠ r → c.mem (L.tcb r) = m.cpu.take.psp - 32 ∧
    savedCtx c.stkalign c.mem (m.cpu.take.psp - 32) = m.saved
  into : t ≠ r → ctxOf c = savedCtx m.cpu.stkalign m.cpu.mem (m.cpu.mem (L.tcb t))

/-- The handler does not fault, and switches to a task that exists. -/
theorem Machine.Ready.switches (hy : m.Ready L) (ho : m.Ok L)
    (hr : m.cpu.mem (L.addr .TCBRunning) = L.tcb r)
    {o : Option Cpu} (h : Runs (m.Quiet L) 0 (p.PendSV_Handler L) m.cpu.take o) :
    ∃ c t, o = some c ∧ m.Switched L r t c := by
  obtain ⟨r', hr', hsome⟩ := ho.running
  cases L.tcb_inj (hr.symm.trans hr')
  obtain ⟨A, hA⟩ := Option.isSome_iff_exists.mp hsome
  obtain ⟨hal, hlo, hhi⟩ := hy.room ho hr hA
  have hin : ∀ x ∈ Span (m.cpu.take.psp - 32) 16, A.Has x :=
    fun x => Area.has_of_span hlo hhi (ho.area r A hA).1
  have hsym : ∀ s, m.cpu.take.mem (L.addr s) = m.cpu.mem (L.addr s) :=
    fun s => hy.pushed ho hr hA (Or.inl ⟨s, rfl⟩)
  have hno : ∀ s, L.addr s ∉ Span (m.cpu.take.psp - 32) 16 :=
    fun s hx => (ho.area r A hA).2.1 s (hin _ hx)
  have hfr : ∀ s, s ≠ r → (m.stack s).isSome → ∀ a ∈ Span (m.cpu.mem (L.tcb s)) 16,
      m.cpu.take.mem a = m.cpu.mem a ∧ (∀ y, a ≠ L.addr y) ∧ a ∉ Span (m.cpu.take.psp - 32) 16 := by
    intro s hne hs a ha
    obtain ⟨B, hB⟩ := Option.isSome_iff_exists.mp hs
    have hst := m.suspended hr hne
    have hBa : B.Has a := ho.frame_in hB hst ha
    exact ⟨hy.pushed ho hr hA (Or.inr ⟨s, B, hB, hst, hBa⟩),
      fun y e => (ho.area s B hB).2.1 y (e ▸ hBa),
      fun hx => ho.apart hA hB hne (hin a hx) hBa⟩
  have hK : ∀ s, s ≠ .TCBNext → s ≠ .OSSchedLock → L.addr s ∈ m.Kept L :=
    fun s h1 h2 => Or.inl ⟨s, h1, h2, rfl⟩
  have hKf : ∀ s, s ≠ r → (m.stack s).isSome → ∀ a ∈ Span (m.cpu.mem (L.tcb s)) 16, a ∈ m.Kept L :=
    fun s hne hs a ha => Or.inr (Or.inl ⟨s, hs, m.suspended hr hne, ha⟩)
  have hKq : ∀ a ∈ Span (m.cpu.take.psp - 32) 16, a ∈ m.Kept L := fun a ha => Or.inr (Or.inr ha)
  have hnext : ∃ t, m.cpu.take.mem (L.addr .TCBNext) = L.tcb t ∧ (m.stack t).isSome := by
    obtain ⟨t, e, ht⟩ := hy.next
    exact ⟨t, (hsym _).trans e, ht⟩
  have hAt : ∀ t, (m.stack t).isSome → t ≠ r → Aligned (m.cpu.take.mem (L.tcb t)) ∧
      L.addr .OSSchedLock ∉ Span (m.cpu.take.mem (L.tcb t)) 8 ∧ L.tcb t ∈ m.Kept L ∧
      ∀ a ∈ Span (m.cpu.take.mem (L.tcb t)) 16, a ∈ m.Kept L := by
    intro t ht hne
    obtain ⟨B, hB⟩ := Option.isSome_iff_exists.mp ht
    rw [show m.cpu.take.mem (L.tcb t) = m.cpu.mem (L.tcb t) from hsym _]
    exact ⟨(ho.frame t B hB (m.suspended hr hne)).1,
      fun hx => (hfr t hne ht _ (span_low hx)).2.1 _ rfl,
      hK (.stkPtr t) (by simp) (by simp), hKf t hne ht⟩
  obtain ⟨c, t, rfl, ht, f1, f2, -, f4, hsame, hsw⟩ := p.handler_switches (A := m.Kept L) (r := r)
    (G := fun x => ∃ t, x (L.addr .TCBNext) = L.tcb t ∧ (m.stack t).isSome)
      (P := fun t => (m.stack t).isSome)
    (fun _ m1 m2 h1 h2 a ha => (h2.kept a ha).trans (h1 a ha)) (fun _ _ hG hI => hI.next hG) hnext
    (fun _ ⟨t, e, ht⟩ => ⟨t, ht, e⟩) rfl take_lr ((hsym _).trans hr) hal
      (fun s hx => hno s (span_low hx))
    ((hsym _).trans ho.exit) (hK _ (by simp) (by simp)) (hK _ (by simp) (by simp))
      (fun a ha => hKq a (span_up ha))
    (fun hx => hno _ (span_up hx)) hAt h
  have hst : c.stkalign = m.cpu.stkalign := f4.trans take_stkalign
  by_cases e : t = r
  · obtain ⟨hm, hx⟩ := hsame e
    have hs : ∀ s, s ≠ .TCBNext → s ≠ .OSSchedLock → c.mem (L.addr s) = m.cpu.mem (L.addr s) :=
      fun s h1 h2 =>
      (hm _ (hK s h1 h2) (L.inj.ne h2)).trans (hsym s)
    refine ⟨c, t, rfl, f1, f2, hst, ht, ?_, hs _ (by simp) (by simp),
      fun s _ => hs (.stkPtr s) (by simp) (by simp),
      fun s hne hs a ha => ?_, fun _ => ?_, fun h => absurd e h, fun h => absurd e h⟩
    · rw [hs _ (by simp) (by simp), hr, e]
    · obtain ⟨h1, h2, -⟩ := hfr s hne hs a ha
      exact (hm a (hKf s hne hs a ha) (h2 _)).trans h1
    · exact hx.trans (congrArg (fun b => savedCtx b _ _) take_stkalign)
  · obtain ⟨hm, hx⟩ := hsw e
    have hoff : ∀ a, (∀ s, a ≠ L.addr s) → L.switched m.cpu.take r t a =
        storeWords m.cpu.take.mem (m.cpu.take.psp - 32) (high.map m.cpu.take.reg) a :=
          fun a ha => by
      have hr : a ≠ L.tcb r := ha (.stkPtr r)
      rw [L.switched_of (ha _), Function.update_of_ne (ha _), Function.update_of_ne hr]
    have hs : ∀ s, s ≠ .TCBNext → s ≠ .OSSchedLock → s ≠ .TCBRunning → s ≠ .stkPtr r →
        c.mem (L.addr s) = m.cpu.mem (L.addr s) := fun s h1 h2 h3 h4 =>
      ((hm _ (hK s h1 h2)).trans (L.switched_sym (fun hx => hno s (span_low hx)) h2 h3 h4)).trans
        (hsym s)
    have hf : ∀ s, s ≠ r → (m.stack s).isSome → ∀ a ∈ Span (m.cpu.mem (L.tcb s)) 16,
        L.switched m.cpu.take r t a = m.cpu.mem a := fun s hne hs a ha => by
      obtain ⟨h1, h2, h3⟩ := hfr s hne hs a ha
      rw [hoff a h2, storeWords_off fun hx => h3 (span_low hx), h1]
    refine ⟨c, t, rfl, f1, f2, hst, ht, ?_, hs _ (by simp) (by simp) (by simp) (by simp),
      fun s hne => hs (.stkPtr s) (by simp) (by simp) (by simp) (fun h => hne (Sym.stkPtr.inj h)),
      fun s hne hs a ha => (hm a (hKf s hne hs a ha)).trans (hf s hne hs a ha), fun h =>
        absurd h e, fun _ => ⟨?_, ?_⟩,
      fun _ => ?_⟩
    · rw [hm _ (hK _ (by simp) (by simp)), L.switched_of (L.inj.ne (by simp)), Function.update_self]
    · have hne : L.tcb r ≠ L.addr .TCBRunning := L.inj.ne (by simp)
      have hm : c.mem (L.tcb r) = L.switched m.cpu.take r t (L.tcb r) :=
        hm _ (hK (.stkPtr r) (by simp) (by simp))
      have hlk : L.tcb r ≠ L.addr .OSSchedLock := L.inj.ne (by simp)
      rw [hm, L.switched_of hlk, Function.update_of_ne hne]
      exact Function.update_self ..
    · rw [hst]
      exact savedCtx_like fun a ha => (hm a (hKq a ha)).trans (hoff a fun s e => hno s (e ▸ ha))
    · rw [hx, show m.cpu.take.mem (L.tcb t) = m.cpu.mem (L.tcb t) from hsym _, take_stkalign]
      exact savedCtx_like (hf t e ht)

theorem Machine.Switched.ok (hc : m.Switched L r t c) (hy : m.Ready L) (ho : m.Ok L)
    (hr : m.cpu.mem (L.addr .TCBRunning) = L.tcb r) : Machine.Ok L ⟨c, m.stack⟩ where
  thread := hc.thread
  running := ⟨t, hc.running, hc.there⟩
  exit := hc.exit.trans ho.exit
  area := ho.area
  frame := by
    intro s B hB hs
    have hst : s ≠ t := by
      rintro rfl
      exact hs.elim (fun h => nomatch hc.spsel.symm.trans h) fun h => h hc.running
    by_cases e : s = r
    · cases e
      obtain ⟨hal, hlo, hhi⟩ := hy.room ho hr hB
      show Aligned (c.mem (L.tcb r)) ∧ B.lo ≤ (c.mem (L.tcb r)).toNat ∧
        (c.mem (L.tcb r)).toNat + 64 ≤ B.hi
      rw [(hc.out (Ne.symm hst)).1]
      exact ⟨aligned_sub hal 8, hlo, hhi⟩
    · show Aligned (c.mem (L.tcb s)) ∧ B.lo ≤ (c.mem (L.tcb s)).toNat ∧
        (c.mem (L.tcb s)).toNat + 64 ≤ B.hi
      rw [hc.stkPtr s e]
      exact ho.frame s B hB (m.suspended hr e)
  main := fun h => nomatch hc.spsel.symm.trans h

/-- The other tasks keep their contexts, also the one that now runs. -/
theorem Machine.Switched.ctx_eq (hc : m.Switched L r t c)
    (hr : m.cpu.mem (L.addr .TCBRunning) = L.tcb r) (hne : s ≠ r) :
    Machine.ctx L ⟨c, m.stack⟩ s = m.ctx L s := by
  cases hB : m.stack s with
  | none => exact (Machine.ctx_none (m := ⟨c, m.stack⟩) hB).trans (Machine.ctx_none hB).symm
  | some B =>
    rw [Machine.ctx_suspended hB (m.suspended hr hne)]
    by_cases e : s = t
    · cases e
      rw [← hc.into hne]
      exact Machine.ctx_running (m := ⟨c, m.stack⟩) hB hc.spsel hc.running
    · refine (Machine.ctx_suspended (m := ⟨c, m.stack⟩) hB
        (Machine.suspended (m := ⟨c, m.stack⟩) hc.running e)).trans ?_
      show some (savedCtx c.stkalign c.mem (c.mem (L.tcb s))) = _
      rw [hc.stkalign, hc.stkPtr s hne, savedCtx_like (hc.frame s hne (by rw [hB]; rfl))]

theorem Machine.Switched.ctx_out (hc : m.Switched L r t c) (hA : m.stack r = some A) :
    Machine.ctx L ⟨c, m.stack⟩ r = some m.saved := by
  by_cases e : t = r
  · rw [← hc.same e]
    exact Machine.ctx_running (m := ⟨c, m.stack⟩) hA hc.spsel (e ▸ hc.running)
  · obtain ⟨h1, h2⟩ := hc.out e
    refine (Machine.ctx_suspended (m := ⟨c, m.stack⟩) hA
      (Machine.suspended (m := ⟨c, m.stack⟩) hc.running (Ne.symm e))).trans ?_
    show some (savedCtx c.stkalign c.mem (c.mem (L.tcb r))) = _
    rw [h1, h2]

theorem Machine.Ready.saved_task (hy : m.Ready L) (ho : m.Ok L)
    (hr : m.cpu.mem (L.addr .TCBRunning) = L.tcb r)
    (hA : m.stack r = some A) (hs : m.cpu.spsel = true) : m.saved = ctxOf m.cpu :=
  savedCtx_take ho.thread hs (hy.task hs r A hr hA).1

/-- From `main` the frame of the task that is called the running one is kept, but for `R4` to
    `R11`. -/
theorem Machine.Ready.saved_main (hy : m.Ready L) (ho : m.Ok L)
    (hr : m.cpu.mem (L.addr .TCBRunning) = L.tcb r)
    (hA : m.stack r = some A) (hs : m.cpu.spsel = false) :
    ∃ x, m.ctx L r = some x ∧ (∀ q, q ∉ high → m.saved.reg q = x.reg q) ∧
      m.saved.sp = x.sp ∧ m.saved.pc = x.pc ∧ m.saved.xpsr = x.xpsr := by
  have hp : m.cpu.take.psp - 32 = m.cpu.mem (L.tcb r) := by
    rw [take_psp ho.thread, hs, if_neg Bool.false_ne_true, ho.main hs r hr]
    bv_omega
  have e : savedCtx m.cpu.stkalign m.cpu.take.mem (m.cpu.mem (L.tcb r)) =
      savedCtx m.cpu.stkalign m.cpu.mem (m.cpu.mem (L.tcb r)) := savedCtx_like fun a ha =>
    hy.pushed ho hr hA (Or.inr ⟨r, A, hA, Or.inl hs, ho.frame_in hA (Or.inl hs) ha⟩)
  refine ⟨_, Machine.ctx_suspended hA (Or.inl hs), ?_⟩
  unfold Machine.saved
  rw [hp, ← e]
  refine savedCtx_over fun k hk h8 => storeWords_off fun ⟨j, hj, e⟩ => ?_
  have hj : j < 8 := hj
  bv_omega

end Switch

/-! ## The steps -/

section Steps

variable {A B : Area} {a : Word} {s : Fin n} {c : Cpu} {task param pstk : Word}

theorem Machine.Works.suspended (h : m.Works L c) :
    Machine.Suspended L ⟨c, m.stack⟩ s ↔ m.Suspended L s := by
  show (c.spsel = false ∨ c.mem (L.addr .TCBRunning) ≠ L.tcb s) ↔ _
  rw [h.spsel, h.syms _ (by simp) (by simp)]
  rfl

theorem Machine.Works.stkPtr (h : m.Works L c) (s : Fin n) :
    c.mem (L.tcb s) = m.cpu.mem (L.tcb s) :=
  h.syms (.stkPtr s) (by simp) (by simp)

/-- Nobody else's context changes while a task works. -/
theorem Machine.Works.ctx_eq (h : m.Works L c) (hs : m.Suspended L s) :
    Machine.ctx L ⟨c, m.stack⟩ s = m.ctx L s := by
  cases hB : m.stack s with
  | none => exact (Machine.ctx_none (m := ⟨c, m.stack⟩) hB).trans (Machine.ctx_none hB).symm
  | some B =>
    rw [Machine.ctx_suspended hB hs,
      Machine.ctx_suspended (m := ⟨c, m.stack⟩) hB (h.suspended.mpr hs)]
    show some (savedCtx c.stkalign c.mem (c.mem (L.tcb s))) = _
    rw [h.stkalign, h.stkPtr s, savedCtx_like (h.frames s (by rw [hB]; rfl) hs)]

theorem Machine.Works.ok (h : m.Works L c) (ho : m.Ok L) : Machine.Ok L ⟨c, m.stack⟩ where
  thread := h.thread
  running := by
    obtain ⟨r, hr, hs⟩ := ho.running
    exact ⟨r, (h.syms _ (by simp) (by simp)).trans hr, hs⟩
  exit := (h.syms _ (by simp) (by simp)).trans ho.exit
  area := ho.area
  frame := by
    intro s B hB hs
    show Aligned (c.mem (L.tcb s)) ∧ B.lo ≤ (c.mem (L.tcb s)).toNat ∧
      (c.mem (L.tcb s)).toNat + 64 ≤ B.hi
    rw [h.stkPtr s]
    exact ho.frame s B hB (h.suspended.mp hs)
  main := by
    intro hs r hr
    have hm : m.cpu.spsel = false := h.spsel.symm.trans hs
    show c.psp = c.mem (L.tcb r) + 32
    rw [h.psp hm, h.stkPtr r]
    exact ho.main hm r ((h.syms _ (by simp) (by simp)).symm.trans hr)

/-- `CreateTask` writes the stack of the task and its pointer. -/
theorem Machine.create_off (hlo : A.lo + 60 ≤ pstk.toNat) (hhi : pstk.toNat + 4 ≤ A.hi)
    (h1 : a ≠ L.tcb t)
    (h2 : ¬ A.Has a) : (m.create L t A task param pstk).cpu.mem a = m.cpu.mem a := by
  have hk : ∀ k : Nat, k ≤ 60 → a ≠ pstk - BitVec.ofNat 32 k := by
    rintro k hk rfl
    refine h2 ⟨?_, ?_⟩ <;> bv_omega
  have h0 : a ≠ pstk := by
    rintro rfl
    refine h2 ⟨?_, ?_⟩ <;> omega
  have h4 : a ≠ pstk - 4 := hk 4 (by decide)
  have h8 : a ≠ pstk - 4 - 4 := by
    have := hk 8 (by decide)
    bv_omega
  have h28 : a ≠ pstk - 4 - 4 - 20 := by
    have := hk 28 (by decide)
    bv_omega
  show update (InitTaskContext m.cpu.mem task param pstk).1 (L.tcb t) _ a = _
  rw [Function.update_of_ne h1]
  unfold InitTaskContext
  dsimp only
  rw [Function.update_of_ne h28, Function.update_of_ne h8, Function.update_of_ne h4,
    Function.update_of_ne h0]

theorem Machine.create_sym (hA : A.Free L m.stack) (hlo : A.lo + 60 ≤ pstk.toNat)
    (hhi : pstk.toNat + 4 ≤ A.hi) (y : Sym n)
    (h : y ≠ .stkPtr t) : (m.create L t A task param pstk).cpu.mem (L.addr y) =
    m.cpu.mem (L.addr y) :=
  Machine.create_off hlo hhi (L.inj.ne h) (hA.2.1 y)

theorem Machine.create_stkPtr : (m.create L t A task param pstk).cpu.mem (L.tcb t) = pstk - 60 := by
  show update (InitTaskContext m.cpu.mem task param pstk).1 (L.tcb t) _ (L.tcb t) = _
  rw [Function.update_self]
  show pstk - 4 - 4 - 20 - 32 = _
  bv_omega

/-- The context of a new task is as `InitTaskContext` says. -/
theorem Machine.create_new {al : Bool} (hno : ∀ x, A.Has x → x ≠ L.tcb t)
    (hlo : A.lo + 60 ≤ pstk.toNat)
    (hhi : pstk.toNat + 4 ≤ A.hi) :
    (savedCtx al (m.create L t A task param pstk).cpu.mem (pstk - 60)).New task param pstk := by
  obtain ⟨x, ex⟩ : ∃ x, (m.create L t A task param pstk).cpu.mem = x := ⟨_, rfl⟩
  have hx : x = update (update (update (update (update m.cpu.mem pstk 0x01000000) (pstk - 4) task)
    (pstk - 4 - 4) 0xFFFFFFFE)
      (pstk - 4 - 4 - 20) param) (L.tcb t) (pstk - 4 - 4 - 20 - 32) := ex.symm
  have hn : ∀ k : Nat, k ≤ 60 → pstk - BitVec.ofNat 32 k ≠ L.tcb t :=
    fun k hk => hno _ ⟨by bv_omega, by bv_omega⟩
  have n0 : pstk ≠ L.tcb t := hno _ ⟨by omega, by omega⟩
  have n4 : pstk - 4 ≠ L.tcb t := hn 4 (by decide)
  have n8 : pstk - 8 ≠ L.tcb t := hn 8 (by decide)
  have n28 : pstk - 28 ≠ L.tcb t := hn 28 (by decide)
  have e0 : x pstk = 0x01000000 := by
    rw [hx, Function.update_of_ne n0, Function.update_of_ne (by bv_omega),
      Function.update_of_ne (by bv_omega),
      Function.update_of_ne (by bv_omega), Function.update_self]
  have e4 : x (pstk - 4) = task := by
    rw [hx, Function.update_of_ne n4, Function.update_of_ne (by bv_omega),
      Function.update_of_ne (by bv_omega), Function.update_self]
  have e8 : x (pstk - 8) = 0xFFFFFFFE := by
    rw [hx, Function.update_of_ne n8, Function.update_of_ne (by bv_omega),
      show pstk - 8 = pstk - 4 - 4 by bv_omega, Function.update_self]
  have e28 : x (pstk - 28) = param := by
    rw [hx, Function.update_of_ne n28, show pstk - 28 = pstk - 4 - 4 - 20 by bv_omega,
      Function.update_self]
  rw [ex]
  refine ⟨?_, ?_, ?_, ?_, ?_⟩
  · show x (pstk - 60 + 56) = task
    rw [show pstk - 60 + 56 = pstk - 4 by bv_omega, e4]
  · show x (pstk - 60 + 32) = param
    rw [show pstk - 60 + 32 = pstk - 28 by bv_omega, e28]
  · show x (pstk - 60 + 52) = 0xFFFFFFFE
    rw [show pstk - 60 + 52 = pstk - 8 by bv_omega, e8]
  · show frameAbove al x (pstk - 60 + 32) = pstk + 4
    unfold frameAbove
    rw [show pstk - 60 + 32 + 28 = pstk by bv_omega, e0,
      show ((0x01000000 : Word).getLsbD 9) = false by decide,
      Bool.and_false, Bool.false_and, if_neg Bool.false_ne_true]
    bv_omega
  · show setPad (x (pstk - 60 + 60)) false = 0x01000000
    rw [show pstk - 60 + 60 = pstk by bv_omega, e0]
    decide

/-- `SetEnvironment` sets the process stack pointer as the first switch needs it
    (`Machine.Ok.main`). -/
theorem setEnvironment_psp {c : Cpu} (hh : c.handler = false) (hp : Aligned (c.reg R0)) :
    ∃ c', run 0 SetEnvironment c = some c' ∧ c'.mem = c.mem ∧
    c'.psp = (InitTaskContext c.mem task param (c.reg R0)).2 + 32 := by
  have hw : wordOf (c.reg R0 - 28) = c.reg R0 - 28 := wordOf_aligned (aligned_sub hp 7)
  refine runs_of ?_ fun c' h => ?_
  · simp [SetEnvironment, run, Instr.exec, Instr.effect, Cpu.set, Cpu.flagsSub, Cpu.branch, hh]
  · simp [SetEnvironment, run, Instr.exec, Instr.effect, Cpu.set, Cpu.flagsSub, Cpu.branch, hh] at h
    subst h
    refine ⟨rfl, ?_⟩
    show wordOf (c.reg R0 - 28) = c.reg R0 - 4 - 4 - 20 - 32 + 32
    rw [hw]
    bv_omega

theorem Machine.create_ok (ho : m.Ok L) (ht : m.stack t = none)
    (hr : m.cpu.mem (L.addr .TCBRunning) ≠ L.tcb t)
    (hA : A.Free L m.stack) (hp : Aligned pstk) (hlo : A.lo + 60 ≤ pstk.toNat)
    (hhi : pstk.toNat + 4 ≤ A.hi) :
    (m.create L t A task param pstk).Ok L := by
  have hsym : ∀ s, s ≠ .stkPtr t → (m.create L t A task param pstk).cpu.mem (L.addr s) =
    m.cpu.mem (L.addr s) :=
    Machine.create_sym hA hlo hhi
  have hstk : ∀ s, s ≠ t → (m.create L t A task param pstk).cpu.mem (L.tcb s) =
    m.cpu.mem (L.tcb s) := fun s h =>
    hsym (.stkPtr s) fun e => h (Sym.stkPtr.inj e)
  have hrun := hsym .TCBRunning (by simp)
  refine ⟨ho.thread, ?_, (hsym _ (by simp)).trans ho.exit, fun s B hB => ?_, fun s B hB hs => ?_,
    fun hs r hr' => ?_⟩
  · obtain ⟨r, e, hs⟩ := ho.running
    have hne : r ≠ t := fun h => hr (h ▸ e)
    refine ⟨r, hrun.trans e, ?_⟩
    show (update m.stack t (some A) r).isSome
    rwa [Function.update_of_ne hne]
  · have hB : update m.stack t (some A) s = some B := hB
    by_cases e : s = t
    · cases e
      cases (Function.update_self t (some A) m.stack).symm.trans hB
      refine ⟨hA.1, hA.2.1, fun u C hC => hA.2.2 u C ?_⟩
      have hC : update (update m.stack t (some A)) t none u = some C := hC
      rwa [Function.update_idem, ← ht, Function.update_eq_self] at hC
    · rw [Function.update_of_ne e] at hB
      obtain ⟨h1, h2, h3⟩ := ho.area s B hB
      refine ⟨h1, h2, fun u C hC => ?_⟩
      have hC : update (update m.stack t (some A)) s none u = some C := hC
      by_cases hu : u = t
      · cases hu
        rw [Function.update_of_ne (Ne.symm e), Function.update_self] at hC
        cases hC
        exact (hA.2.2 s B hB).symm
      · refine h3 u C ?_
        by_cases hs : u = s
        · rw [hs, Function.update_self] at hC
          exact nomatch hC
        · rw [Function.update_of_ne hs] at hC ⊢
          rwa [Function.update_of_ne hu] at hC
  · have hB : update m.stack t (some A) s = some B := hB
    by_cases e : s = t
    · cases e
      cases (Function.update_self t (some A) m.stack).symm.trans hB
      rw [Machine.create_stkPtr]
      unfold Aligned at hp ⊢
      exact ⟨by bv_omega, by bv_omega, by bv_omega⟩
    · rw [Function.update_of_ne e] at hB
      rw [hstk s e]
      refine ho.frame s B hB ?_
      have hs : m.cpu.spsel = false ∨
        (m.create L t A task param pstk).cpu.mem (L.addr .TCBRunning) ≠ L.tcb s := hs
      rwa [hrun] at hs
  · rw [hrun] at hr'
    have hne : r ≠ t := fun h => hr (h ▸ hr')
    rw [hstk r hne]
    exact ho.main hs r hr'

/-- The other tasks keep their contexts. -/
theorem Machine.create_ctx (ho : m.Ok L) (hA : A.Free L m.stack) (hlo : A.lo + 60 ≤ pstk.toNat)
    (hhi : pstk.toNat + 4 ≤ A.hi) (hne : s ≠ t) : (m.create L t A task param pstk).ctx L s =
    m.ctx L s := by
  have hst : (m.create L t A task param pstk).stack s = m.stack s := Function.update_of_ne hne _ _
  have hrun : (m.create L t A task param pstk).cpu.mem (L.addr .TCBRunning) =
    m.cpu.mem (L.addr .TCBRunning) :=
    Machine.create_sym hA hlo hhi _ (by simp)
  cases hB : m.stack s with
  | none => rw [Machine.ctx_none hB, Machine.ctx_none (hst.trans hB)]
  | some B =>
    by_cases hs : m.Suspended L s
    · have hs' : (m.create L t A task param pstk).Suspended L s := by
        show m.cpu.spsel = false ∨
          (m.create L t A task param pstk).cpu.mem (L.addr .TCBRunning) ≠ L.tcb s
        rwa [hrun]
      have hp : (m.create L t A task param pstk).cpu.mem (L.tcb s) = m.cpu.mem (L.tcb s) :=
        Machine.create_sym hA hlo hhi (.stkPtr s) fun e => hne (Sym.stkPtr.inj e)
      rw [Machine.ctx_suspended hB hs, Machine.ctx_suspended (hst.trans hB) hs', hp]
      refine congrArg some (savedCtx_like fun a ha => Machine.create_off hlo hhi ?_ ?_)
      · rintro rfl
        exact (ho.area s B hB).2.1 _ (ho.frame_in hB hs ha)
      · have h := ho.frame_in hB hs ha
        have hd := hA.2.2 s B hB
        unfold Area.Has at *
        omega
    · obtain ⟨h1, h2⟩ := not_or.mp hs
      have hs : m.cpu.spsel = true := (Bool.not_eq_false _).mp h1
      have hr : m.cpu.mem (L.addr .TCBRunning) = L.tcb s := not_not.mp h2
      rw [Machine.ctx_running hB hs hr, Machine.ctx_running (hst.trans hB) hs (hrun.trans hr)]
      rfl

theorem Machine.delete_ok (ho : m.Ok L) (hr : m.cpu.mem (L.addr .TCBRunning) ≠ L.tcb t) :
    Machine.Ok L ⟨m.cpu, update m.stack t none⟩ := by
  have hsub : ∀ s B, update m.stack t none s = some B → m.stack s = some B := fun s B hB => by
    by_cases e : s = t
    · rw [e, Function.update_self] at hB
      exact nomatch hB
    · rwa [Function.update_of_ne e] at hB
  refine ⟨ho.thread, ?_, ho.exit, fun s B hB => ?_,
    fun s B hB hs => ho.frame s B (hsub s B hB) hs, ho.main⟩
  · obtain ⟨r, e, hs⟩ := ho.running
    have hne : r ≠ t := fun h => hr (h ▸ e)
    refine ⟨r, e, ?_⟩
    show (update m.stack t none r).isSome
    rwa [Function.update_of_ne hne]
  · obtain ⟨h1, h2, h3⟩ := ho.area s B (hsub s B hB)
    refine ⟨h1, h2, fun u C hC => h3 u C ?_⟩
    have hC : update (update m.stack t none) s none u = some C := hC
    by_cases e : u = s
    · rw [e, Function.update_self] at hC
      exact nomatch hC
    · rw [Function.update_of_ne e] at hC ⊢
      exact hsub u C hC

theorem Machine.delete_ctx (hne : s ≠ t) :
    Machine.ctx L ⟨m.cpu, update m.stack t none⟩ s = m.ctx L s := by
  unfold Machine.ctx
  dsimp only
  rw [Function.update_of_ne hne]
  rfl

end Steps

end CoOS
