import Mathlib.Tactic
import Mathlib.Data.List.Basic

/-!
Histories: lists of what happened, oldest first.
-/

namespace History

variable {α : Type*} {p : α → Bool} {l : List α} {a : α}

def trailing (p : α → Bool) (l : List α) : ℕ := (l.reverse.takeWhile p).length

def lastWhere (p : α → Bool) (l : List α) : Option α := (l.filter p).getLast?

@[simp] lemma trailing_nil : trailing p [] = 0 := rfl

lemma trailing_concat_of_pos (h : p a = true) : trailing p (l ++ [a]) = trailing p l + 1 := by
  simp [trailing, h]

lemma trailing_concat_of_neg (h : p a = false) : trailing p (l ++ [a]) = 0 := by
  simp [trailing, h]

@[simp] lemma lastWhere_nil : lastWhere p [] = none := rfl

lemma lastWhere_concat_of_pos (h : p a = true) : lastWhere p (l ++ [a]) = some a := by
  simp [lastWhere, List.filter_append, h]

end History
