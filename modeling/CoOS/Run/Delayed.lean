/-
  Who is in the delay list. `EventTaskToRdy`, `RemoveFromLink` and `CoDelTask` take a task out of
  the delay list when its `delayTick` is not INVALID_VALUE, and reuse its links otherwise.

  INVALID_VALUE is `0xffffffff`, a value of the type of delays: `CoTickDelay` refuses it, the
  timeouts of the pends and of the flag waits are not checked. The differences that the list
  stores are compared as signed words, so that delays from `2^31` on are put in the wrong place
  and can add up to INVALID_VALUE later.
-/
import CoOS.Run.Pool

namespace CoOS

open DList

/-- The delay list, from `DlyList` on. -/
def Kernel.delayed (cfg : Env) (k : Kernel) : List Nat := walk k.TCBnext cfg.tasks k.DlyList

theorem Rep.delayed_eq {cfg : Env} {s : Kernel} {g : Ghost} (h : Rep cfg s g) :
    s.delayed cfg = g.tcb.lst .dly := (h.tcb.single .dly).walk_eq (h.tcb_length .dly)

/-- Calls that wait with a delay or a timeout, set a new delay, and release who waits. -/
def Call.Timed : Call → Prop
  | .tickDelay _ | .resetDelay .. | .waitFlag .. | .waitFlags .. | .setFlag _ | .clearFlag _
  | .acceptFlag _ | .acceptFlags .. => True
  | .accept kd _ | .pend kd _ _ | .post kd _ _ => kd ≠ .invalid
  | _ => False

instance (c : Call) : Decidable c.Timed :=
  match c with
  | .tickDelay _ | .resetDelay .. | .waitFlag .. | .waitFlags .. | .setFlag _ | .clearFlag _
  | .acceptFlag _ | .acceptFlags .. => inferInstanceAs (Decidable True)
  | .accept kd _ | .pend kd _ _ | .post kd _ _ => inferInstanceAs (Decidable (kd ≠ .invalid))
  | .createTask .. | .delTask _ | .exitTask | .suspendTask _ | .awakeTask _ | .setPriority ..
  | .createFlag .. | .delFlag .. | .enterMutex _ | .leaveMutex _ =>
    inferInstanceAs (Decidable False)

def TimedStep : Act → Prop
  | .call c => c.Timed
  | _ => True

instance (a : Act) : Decidable (TimedStep a) :=
  match a with
  | .call c => inferInstanceAs (Decidable c.Timed)
  | .resume | .tick => inferInstanceAs (Decidable True)

/-- A delay is ended (reset to 0) only for a task that waits for nothing else. -/
def EndsAlone (k : Kernel) : Act → Prop
  | .call (.resetDelay t n) => n = 0 → k.eventID t = INVALID_ID ∧ k.pnode t = .null
  | _ => True

instance (k : Kernel) (a : Act) : Decidable (EndsAlone k a) :=
  match a with
  | .call (.resetDelay _ n) => inferInstanceAs (Decidable (n = 0 → _))
  | .call (.createTask ..) | .call (.delTask _) | .call .exitTask | .call (.suspendTask _)
  | .call (.awakeTask _) | .call (.setPriority ..) | .call (.tickDelay _) | .call (.accept ..)
  | .call (.pend ..) | .call (.post ..) | .call (.createFlag ..) | .call (.delFlag ..)
  | .call (.setFlag _) | .call (.clearFlag _) | .call (.acceptFlag _) | .call (.acceptFlags ..)
  | .call (.waitFlag ..) | .call (.waitFlags ..) | .call (.enterMutex _) | .call (.leaveMutex _)
  | .resume | .tick => inferInstanceAs (Decidable True)

section Delayed

variable {cfg : Env} {i : Idle} {us : List Setup} {m0 m : Sys}

theorem TimedStep.tame {rs : List SQC} {act : Act} (h : TimedStep act) (hs : act.Short)
    (he : EndsAlone m.k act) : Tame cfg m rs act := by
  cases act with
  | call c =>
    cases c with
    | tickDelay n => exact Or.inl hs
    | resetDelay t n =>
      by_cases ht : m.k.alive cfg t
      · exact Or.inl ⟨ht, hs, he⟩
      · exact Or.inr ht
    | accept kd id => exact Or.inl h
    | pend kd id n => exact Or.inl ⟨h, hs⟩
    | post kd id v => exact Or.inl h
    | setFlag id => exact Or.inl trivial
    | clearFlag id => exact Or.inl trivial
    | acceptFlag id => exact Or.inl trivial
    | acceptFlags flags ty => exact Or.inl trivial
    | waitFlag id n => exact Or.inl hs
    | waitFlags flags ty n => exact Or.inl hs
    | _ => exact h.elim
  | resume => trivial
  | tick => trivial

/-- The steps of such runs. -/
def DelayStep (m : Sys) (_ : List SQC) (a : Act) : Prop := TimedStep a ∧ a.Short ∧ EndsAlone m.k a

instance (m : Sys) (rs : List SQC) (a : Act) : Decidable (DelayStep m rs a) :=
  inferInstanceAs (Decidable (_ ∧ _ ∧ _))

theorem Reach.imp {ok ok' : Sys → List SQC → Act → Prop} (h : Reach cfg ok m0 m)
    (hok : ∀ m rs a, ok m rs a → ok' m rs a) : Reach cfg ok' m0 m := by
  induction h with
  | start => exact .start
  | step _ hk hs ih => exact ih.step (hok _ _ _ hk) hs

theorem Reach.ofTimed (h : Reach cfg DelayStep m0 m) : Reach cfg (Tame cfg) m0 m :=
  @Reach.imp cfg m0 m _ (Tame cfg) h fun _ _ _ hk => hk.1.tame hk.2.1 hk.2.2

/-- Shorter timeouts lie as well: a timeout of `2^31 + 20` is put before a delay of 9, and 10
    ticks later the sum of the two differences is `0xffffffff`. -/
example : ((boot shippedEnv shippedIdle twoTasks).bind fun m =>
    runs shippedEnv (fun _ _ a => TimedStep a) m ([([], .call (.tickDelay 1)),
      ([], .call (.tickDelay 10)), ([], .tick), ([], .call (.pend .sem 0 (2 ^ 31 + 20))),
      ([], .resume)] ++ List.replicate 9 ([], .tick) ++ [([⟨.SEM_REQ, 0, 0⟩], .tick)])).map
      (fun m => (m.k.delayed shippedEnv, m.k.delayTick 2)) = some ([2], INVALID_VALUE) := by
  decide +kernel

end Delayed

end CoOS
