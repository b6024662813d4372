import PxxlEdge.Lib.Run
import Mathlib.Data.List.Rotate
import Mathlib.Data.List.ReduceOption

/-!
A counter that goes round a list.  In a system that takes step after step some steps
read a counter, raise it by one and choose the element of a list at the number they
have read, counted around the list; the other steps leave the counter alone.
-/

namespace Run

open List

variable {S Λ β : Type*} {step : S → Λ → S} {cond : S → Λ → Prop} {s : S}

lemma map_getElem?_mod (l : List β) (n : ℕ) :
    (List.range' n l.length).map (fun i => l[i % l.length]?) = (l.rotate n).map some := by
  refine ext_getElem (by simp) fun i hi _ => ?_
  have hlt : i < l.length := by simpa using hi
  rw [getElem_map, getElem_range', getElem_map, getElem_rotate, Nat.one_mul,
    Nat.add_comm n i, getElem?_eq_getElem (Nat.mod_lt _ (Nat.zero_lt_of_lt hlt))]

variable (counter : S → ℕ) (mine : Λ → Prop) [DecidablePred mine] {size : ℕ} {f : ℕ → β}
  {answer : S → Λ → Option β}

theorem reduceOption_trace
    (hmine : ∀ s l, cond s l → mine l →
      answer s l = some (f (counter s)) ∧ counter (step s l) = (counter s + 1) % size)
    (hother : ∀ s l, cond s l → ¬ mine l → answer s l = none ∧ counter (step s l) = counter s)
    {steps : List Λ} (h : Along step cond s steps)
    (hsize : counter s + steps.countP mine ≤ size) :
    (trace step answer s steps).reduceOption =
      (List.range' (counter s) (steps.countP mine)).map f := by
  induction steps generalizing s with
  | nil => rfl
  | cons l steps ih =>
    by_cases hl : mine l
    · obtain ⟨hanswer, hnext⟩ := hmine s l h.1 hl
      rw [countP_cons_of_pos (by simpa using hl)] at hsize ⊢
      rw [trace, hanswer, reduceOption_cons_of_some, range'_succ, map_cons]
      refine congrArg _ ?_
      -- the counter may overflow only when no further step raises it
      rcases Nat.eq_zero_or_pos (steps.countP mine) with hzero | hpos
      · rw [hzero] at ih ⊢
        rw [ih h.2 ?_]
        · rfl
        · rw [hnext, Nat.add_zero]
          exact (Nat.mod_lt _ (by omega)).le
      · rw [Nat.mod_eq_of_lt (by omega)] at hnext
        rw [ih h.2 (by omega), hnext]
    · obtain ⟨hanswer, hnext⟩ := hother s l h.1 hl
      rw [countP_cons_of_neg (by simpa using hl)] at hsize ⊢
      rw [trace, hanswer, reduceOption_cons_of_none, ih h.2 (by rwa [hnext]), hnext]

theorem perm_of_one_round {l : List β} {answer : S → Λ → Option (Option β)}
    (hmine : ∀ s a, cond s a → mine a →
      answer s a = some l[counter s % l.length]? ∧ counter (step s a) = (counter s + 1) % size)
    (hother : ∀ s a, cond s a → ¬ mine a → answer s a = none ∧ counter (step s a) = counter s)
    {steps : List Λ} (h : Along step cond s steps) (hround : steps.countP mine = l.length)
    (hsize : counter s + l.length ≤ size) :
    (trace step answer s steps).reduceOption.Perm (l.map some) := by
  rw [reduceOption_trace counter mine (f := fun i => l[i % l.length]?) hmine hother h
    (hround ▸ hsize), hround, map_getElem?_mod]
  exact (rotate_perm l _).map some

end Run
