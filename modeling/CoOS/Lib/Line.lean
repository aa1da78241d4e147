/-
  A line of those who wait for something that one of them has at a time: the first has it, and those
  who come join at the end. Nothing here is about a kernel.

  `Line.Run` is a history of visits with the line that it leads to. First come, first served
  (`Run.history`): whoever has come has left or stands in the line, in the order of arrival.
-/
import Mathlib.Data.List.Nodup
import Mathlib.Tactic.Common

namespace Line

variable {α : Type} {q : List α} {a : α}

inductive Visit (α : Type) where
  | enter (a : α)
  | leave (a : α)
  deriving DecidableEq, Repr

/-- Who comes does not stand in the line yet; who leaves is the first. -/
inductive Run : List (Visit α) → List α → Prop
  | nil : Run [] []
  | enter {es : List (Visit α)} {q : List α} {a : α} (h : Run es q) (hn : a ∉ q) :
      Run (es ++ [.enter a]) (q ++ [a])
  | leave {es : List (Visit α)} {q : List α} {a : α} (h : Run es (a :: q)) :
      Run (es ++ [.leave a]) q

def Visit.entry : Visit α → Option α
  | .enter a => some a
  | .leave _ => none

def Visit.exit : Visit α → Option α
  | .enter _ => none
  | .leave a => some a

/-- Those who have come, in this order. -/
def entered (es : List (Visit α)) : List α := es.filterMap Visit.entry

/-- Those who have left, in this order. -/
def departed (es : List (Visit α)) : List α := es.filterMap Visit.exit

variable {es : List (Visit α)}

theorem entered_append (e : Visit α) : entered (es ++ [e]) = entered es ++ e.entry.toList := by
  unfold entered
  rw [List.filterMap_append]
  cases e <;> rfl

theorem departed_append (e : Visit α) : departed (es ++ [e]) = departed es ++ e.exit.toList := by
  unfold departed
  rw [List.filterMap_append]
  cases e <;> rfl

/-- Nobody stands in the line twice. -/
theorem Run.nodup (h : Run es q) : q.Nodup := by
  induction h with
  | nil => exact List.nodup_nil
  | @enter es q a _ hn ih =>
    refine List.nodup_append.mpr ⟨ih, List.nodup_singleton a, fun b hb c hc e => hn ?_⟩
    rwa [← List.mem_singleton.mp hc, ← e]
  | leave _ ih => exact (List.nodup_cons.mp ih).2

/-- **First come, first served** -/
theorem Run.history (h : Run es q) : entered es = departed es ++ q := by
  induction h with
  | nil => rfl
  | @enter es q a _ _ ih =>
    rw [entered_append, departed_append, ih]
    change departed es ++ q ++ [a] = departed es ++ [] ++ (q ++ [a])
    rw [List.append_nil, List.append_assoc]
  | @leave es q a _ ih =>
    rw [entered_append, departed_append, ih]
    change departed es ++ a :: q ++ [] = departed es ++ [a] ++ q
    rw [List.append_nil, List.append_assoc]
    rfl

end Line
