/-
  The posts and the calls of flags test the event or the flag before they lock the scheduler, and
  `CoSetFlag` and `CoClearFlag` write `flagRdy` there. Until the lock the caller can lose the CPU,
  and other tasks can change what it has tested. `Sys` takes such a call as one step; here it takes
  two, or three for `CoSetFlag`, and anything may come in between.
-/
import CoOS.Kernel.System

namespace CoOS

open Function (update)

/-! ## The two parts of a call -/

/-- Where a task can be inside a call and outside its lock: its tests have let it go on and have
    read `v`, or `CoSetFlag` has written the flag. -/
inductive Gap where
  | tested (c : Call) (v : Nat)
  | written (id : Nat)
  deriving DecidableEq, Repr

/-- What the call has read when it gets to its lock, if its tests let it get there: the queue block,
    the ready flags. The calls that are not listed are taken as one step. -/
def Call.tests (cfg : Env) (k : Kernel) : Call → Option Nat
  | .post .sem id _ =>
    if cfg.maxEvent ≤ id ∨ k.eventType id ≠ .sem then none
    else if k.eventCounter id = k.initialEventCounter id then none else some 0
  | .post .mbox id _ =>
    if cfg.maxEvent ≤ id ∨ k.eventType id ≠ .mbox then none
    else if k.eventCounter id = 0 then some 0 else none
  | .post .queue id _ =>
    if cfg.maxEvent ≤ id ∨ k.eventType id ≠ .queue then none
    else if k.qSize (qcbOf k id) = k.qMaxSize (qcbOf k id) then none else some (qcbOf k id)
  | .delFlag id _ =>
    if 0 < k.OSIntNesting then none else if k.flagActive &&& flagBit id = 0 then none else some 0
  | .acceptFlag id =>
    if badFlag k id then none else if k.flagRdy &&& flagBit id ≠ 0 then some 0 else none
  | .acceptFlags flags _ =>
    if flags &&& k.flagActive ≠ flags then none else some (flags &&& k.flagRdy).toNat
  | .waitFlag id _ =>
    if 0 < k.OSIntNesting then none else if k.OSSchedLock ≠ 0 then none
    else if badFlag k id then none else some 0
  | .waitFlags flags _ _ =>
    if 0 < k.OSIntNesting then none else if k.OSSchedLock ≠ 0 then none
    else if flags &&& k.flagActive ≠ flags then none else some 0
  | .clearFlag id => if badFlag k id then none else some k.flagRdy.toNat
  | .setFlag id =>
    if badFlag k id then none else if k.flagRdy &&& flagBit id ≠ 0 then none
    else some k.flagRdy.toNat
  | _ => none

/-- The rest of the call, which has read `v`: the locked section, and the write of `CoClearFlag`. -/
def Call.rest (cfg : Env) (k : Kernel) (v : Nat) : Call → Option Outcome
  | .post .sem id _ => (postSemSection cfg k id).map fun x => returned x.1 (0, x.2)
  | .post .mbox id mail => (postMailSection cfg k id mail).map fun x => returned x.1 (0, x.2)
  | .post .queue id mail => (postQueueSection cfg k id v mail).map fun x => returned x.1 (0, x.2)
  | .delFlag id opt => (delFlagSection cfg k id opt).map fun x => returned x.1 (0, x.2)
  | .acceptFlag id => (acceptFlagSection cfg k id).map fun x => returned x.1 (0, x.2)
  | .acceptFlags flags waitType =>
    (acceptFlagsSection cfg k (BitVec.ofNat 32 v) flags waitType).map fun x =>
      returned x.1 (x.2.1.toNat, x.2.2)
  | .waitFlag id timeout => (waitFlagSection cfg k id timeout).map fun x =>
    match x.2 with
    | some st => returned x.1 (0, st)
    | none => (x.1, .waitFlag id timeout, none)
  | .waitFlags flags waitType timeout =>
    (waitFlagsSection cfg k flags waitType timeout).map fun x =>
    match x.2 with
    | some ret => returned x.1 (ret.1.toNat, ret.2)
    | none => (x.1, .waitFlags flags waitType timeout, none)
  | .clearFlag id =>
    some (returned { k with flagRdy := BitVec.ofNat 32 v &&& ~~~ flagBit id } (0, .E_OK))
  | .setFlag id => (setFlagSection cfg k id).map fun x => returned x.1 (0, x.2)
  | _ => none

/-- `flagRdy` with the value `x`. -/
def Kernel.withRdy (k : Kernel) (x : BitVec 32) : Kernel := { k with flagRdy := x }

def Gap.call : Gap → Call
  | .tested c _ => c
  | .written id => .setFlag id

def Gap.read : Gap → Nat
  | .tested _ v => v
  | .written _ => 0

/-! ## Steps -/

structure Split where
  m : Sys
  gap : Nat → Option Gap

/-- A deleted task is in no call any more. -/
def Split.goes (s : Split) (m : Sys) : Split :=
  ⟨m, fun t => if m.k.state t = .DORMANT then none else s.gap t⟩

/-- The running task `r` goes on behind the gap. -/
def Split.commit (cfg : Env) (s : Split) (rs : List SQC) (r : Nat) : Gap → Option Split
  | .tested (.setFlag id) v =>
    if rs ≠ [] then none
    else some ⟨{ s.m with k := s.m.k.withRdy (BitVec.ofNat 32 v ||| flagBit id) },
      update s.gap r (some (.written id))⟩
  | g => (((g.call.rest cfg.served (s.m.k.defer cfg.served rs) g.read).map
      (s.m.after r (.inl g.call) none)).filter fun m => !m.k.IsrReq).map fun m =>
        { s.goes m with gap := update (s.goes m).gap r none }

/-- One step: the tests of a call, what comes behind the gap, or a step of the system. -/
def Split.step (cfg : Env) (s : Split) (rs : List SQC) (a : Act) : Option Split :=
  match a, s.m.k.TCBRunning with
  | .call c, some r =>
    if (s.gap r).isSome then none
    else match c.tests cfg s.m.k with
      | some v => if r = 0 ∨ s.m.cont r ≠ .none ∨ rs ≠ [] then none
        else some { s with gap := update s.gap r (some (.tested c v)) }
      | none => (s.m.step cfg rs a).map s.goes
  | .resume, some r =>
    match s.gap r with
    | some g => s.commit cfg rs r g
    | none => (s.m.step cfg rs a).map s.goes
  | _, _ => (s.m.step cfg rs a).map s.goes

/-! ## What has not changed meanwhile -/

/-- The tests would let the call go on now, having read the same; a flag that was written is still
    there and set. -/
def Gap.Still (cfg : Env) (k : Kernel) : Gap → Prop
  | .tested c v => c.tests cfg k = some v
  | .written id => ¬ badFlag k id ∧ k.flagRdy &&& flagBit id ≠ 0

instance (cfg : Env) (k : Kernel) (g : Gap) : Decidable (g.Still cfg k) :=
  match g with
  | .tested .. => inferInstanceAs (Decidable (_ = _))
  | .written _ => inferInstanceAs (Decidable (¬ _ ∧ _))

/-- The gap that the running task is in. -/
def Split.current (s : Split) : Option Gap := s.m.k.TCBRunning.bind s.gap

/-- The running task is not behind a gap, or finds things as it has tested them. -/
def Split.Kept (cfg : Env) (s : Split) : Act → Prop
  | .resume => ∀ g ∈ s.current, g.Still cfg s.m.k
  | _ => True

instance (cfg : Env) (s : Split) (a : Act) : Decidable (s.Kept cfg a) :=
  match a with
  | .resume => inferInstanceAs (Decidable (∀ g ∈ s.current, g.Still cfg s.m.k))
  | .call _ | .tick => inferInstanceAs (Decidable True)

/-- What the step is in the system that takes a call as one step. -/
def Split.does (s : Split) : Act → Act
  | .resume =>
    match s.current with
    | some g => .call g.call
    | none => .resume
  | a => a

/-- The steps that `ok` allows, with what was tested unchanged behind each gap. -/
def Split.Ok (cfg : Env) (ok : Sys → List SQC → Act → Prop) (s : Split) (rs : List SQC) (a : Act) :
    Prop :=
  s.Kept cfg a ∧ ok s.m rs (s.does a)

instance (cfg : Env) (ok : Sys → List SQC → Act → Prop)
    [∀ m rs a, Decidable (ok m rs a)] (s : Split)
    (rs : List SQC) (a : Act) : Decidable (s.Ok cfg ok rs a) := inferInstanceAs (Decidable (_ ∧ _))

/-! ## Runs -/

/-- The states that steps allowed by `ok` reach from `m0`. -/
inductive Split.Reach (cfg : Env) (ok : Split → List SQC → Act → Prop) (m0 : Sys) : Split → Prop
  | start : Split.Reach cfg ok m0 ⟨m0, fun _ => none⟩
  | step {s s' : Split} {rs : List SQC} {a : Act} (h : Split.Reach cfg ok m0 s) (hok : ok s rs a)
      (hs : s.step cfg rs a = some s') : Split.Reach cfg ok m0 s'

/-- The run that takes the given steps, as long as `ok` allows them. -/
def Split.runs (cfg : Env) (ok : Split → List SQC → Act → Prop) [∀ s rs a, Decidable (ok s rs a)] :
    Split → List (List SQC × Act) → Option Split
  | s, [] => some s
  | s, (rs, a) :: l => if ok s rs a then (s.step cfg rs a).bind fun s =>
    Split.runs cfg ok s l else none

theorem Split.runs_reach {cfg : Env} {ok : Split → List SQC → Act → Prop}
    [∀ s rs a, Decidable (ok s rs a)]
    {m0 : Sys} (l : List (List SQC × Act)) : ∀ {s s' : Split}, Split.Reach cfg ok m0 s →
      Split.runs cfg ok s l = some s' → Split.Reach cfg ok m0 s' := by
  induction l with
  | nil =>
    intro s s' h e
    rw [← Option.some.inj e]
    exact h
  | cons x l ih =>
    intro s s' h e
    unfold Split.runs at e
    split at e
    · next hok =>
      obtain ⟨s1, e1, e2⟩ := Option.bind_eq_some_iff.mp e
      exact ih (h.step hok e1) e2
    · exact nomatch e

/-- A run from the start, from what can be computed of its last state. -/
theorem Split.ran {cfg : Env} {ok : Split → List SQC → Act → Prop} [∀ s rs a, Decidable (ok s rs a)]
    {i : Idle} {us : List Setup} {l : List (List SQC × Act)} {α : Type} {f : Split → α} {v : α}
    (h : (((boot cfg i us).bind fun m => Split.runs cfg ok ⟨m, fun _ => none⟩ l).map f) = some v) :
    ∃ m0 s, boot cfg i us = some m0 ∧ Split.Reach cfg ok m0 s ∧ f s = v := by
  obtain ⟨s, hm, hf⟩ := Option.map_eq_some_iff.mp h
  obtain ⟨m0, h0, hr⟩ := Option.bind_eq_some_iff.mp hm
  exact ⟨m0, s, h0, Split.runs_reach l .start hr, hf⟩

/-! ## One step, when nothing has changed -/

section Steps

variable {cfg : Env} {k : Kernel} {c : Call} {v : Nat}

/-- A call of which the tests let it go on is its rest. -/
theorem Call.exec_rest (h : c.tests cfg k = some v) (hc : ∀ id, c ≠ .setFlag id) :
    c.exec cfg k = c.rest cfg k v := by
  cases c with
  | post ty id mail =>
    cases ty with
    | sem =>
      rw [Call.tests] at h
      split at h
      · exact nomatch h
      · next h1 =>
        split at h
        · exact nomatch h
        · next h2 => rw [Call.exec, Call.rest, postEvent, coPostSem, if_neg h1, if_neg h2]
    | mbox =>
      rw [Call.tests] at h
      split at h
      · exact nomatch h
      · next h1 =>
        split at h
        · next h2 => rw [Call.exec, Call.rest, postEvent, coPostMail, if_neg h1, if_pos h2]
        · exact nomatch h
    | queue =>
      rw [Call.tests] at h
      split at h
      · exact nomatch h
      · next h1 =>
        split at h
        · exact nomatch h
        · next h2 =>
          obtain rfl := Option.some.inj h
          rw [Call.exec, Call.rest, postEvent, coPostQueueMail, if_neg h1]
          dsimp only
          rw [if_neg h2]
    | invalid => exact nomatch h
  | delFlag id opt =>
    rw [Call.tests] at h
    split at h
    · exact nomatch h
    · next h1 =>
      split at h
      · exact nomatch h
      · next h2 => rw [Call.exec, Call.rest, coDelFlag, if_neg h1, if_neg h2]
  | acceptFlag id =>
    rw [Call.tests] at h
    split at h
    · exact nomatch h
    · next h1 =>
      split at h
      · next h2 => rw [Call.exec, Call.rest, coAcceptSingleFlag, if_neg h1, if_pos h2]
      · exact nomatch h
  | acceptFlags flags ty =>
    rw [Call.tests] at h
    split at h
    · exact nomatch h
    · next h1 =>
      obtain rfl := Option.some.inj h
      rw [Call.exec, Call.rest, coAcceptMultipleFlags, if_neg h1, BitVec.ofNat_toNat,
        BitVec.setWidth_eq]
  | waitFlag id n =>
    rw [Call.tests] at h
    split at h
    · exact nomatch h
    · next h1 =>
      split at h
      · exact nomatch h
      · next h2 =>
        split at h
        · exact nomatch h
        · next h3 =>
          have e : coWaitForSingleFlag cfg k id n = waitFlagSection cfg k id n := by
            rw [coWaitForSingleFlag, if_neg h1, if_neg h2, if_neg h3]
          exact congrArg (Option.map _) e
  | waitFlags flags ty n =>
    rw [Call.tests] at h
    split at h
    · exact nomatch h
    · next h1 =>
      split at h
      · exact nomatch h
      · next h2 =>
        split at h
        · exact nomatch h
        · next h3 =>
          have e : coWaitForMultipleFlags cfg k flags ty n = waitFlagsSection cfg k flags ty n := by
            rw [coWaitForMultipleFlags, if_neg h1, if_neg h2, if_neg h3]
          exact congrArg (Option.map _) e
  | clearFlag id =>
    rw [Call.tests] at h
    split at h
    · exact nomatch h
    · next h1 =>
      obtain rfl := Option.some.inj h
      rw [Call.exec, Call.rest, coClearFlag, if_neg h1, BitVec.ofNat_toNat, BitVec.setWidth_eq]
  | setFlag id => exact absurd rfl (hc id)
  | _ => exact nomatch h

end Steps

end CoOS
