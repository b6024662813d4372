import PxxlEdge.Lib.Text
import Mathlib.Data.List.Destutter
import Mathlib.Data.List.Sort
import Mathlib.Data.Finset.Card

/-!
Texts that are sorted and freed of repetitions, and what is left of them when the list is cut.
-/

namespace RustStd

open List

namespace Text

def Before (a b : Text) : Prop := a ≠ b ∧ a.isLe b = true

instance : DecidableRel Before := fun _ _ => inferInstanceAs (Decidable (_ ∧ _))

instance : Std.Total fun a b : Text => a.isLe b = true := ⟨isLe_total⟩

instance : IsTrans Text fun a b => a.isLe b = true := ⟨fun _ _ _ => isLe_trans⟩

instance : Std.Antisymm fun a b : Text => a.isLe b = true := ⟨fun _ _ => isLe_antisymm⟩

lemma mem_take_iff {l : List Text} (h : l.Pairwise Before) {n : ℕ} {t : Text} :
    t ∈ l.take n ↔ t ∈ l ∧ (l.filter fun a => a.Before t).length < n := by
  induction l generalizing n with
  | nil => simp
  | cons a l ih =>
    obtain ⟨hfirst, hrest⟩ := pairwise_cons.mp h
    cases n with
    | zero => simp
    | succ n =>
      by_cases hta : t = a
      · subst hta
        have hnone : ∀ b ∈ t :: l, ¬ decide (b.Before t) = true := by
          intro b hb hbefore
          have hbt : b.Before t := of_decide_eq_true hbefore
          rcases mem_cons.mp hb with rfl | hb
          · exact hbt.1 rfl
          · exact hbt.1 (isLe_antisymm hbt.2 (hfirst b hb).2)
        simp [filter_eq_nil_iff.mpr hnone]
      · rw [take_succ_cons, mem_cons, or_iff_right hta, mem_cons, or_iff_right hta, ih hrest]
        refine and_congr_right fun ht => ?_
        rw [filter_cons_of_pos (by simpa using hfirst t ht), length_cons, Nat.succ_lt_succ_iff]

end Text

def sortDedup (l : List Text) : List Text :=
  (l.insertionSort fun a b => a.isLe b = true).destutter (· ≠ ·)

lemma sortDedup_eq (l : List Text) :
    sortDedup l = (l.insertionSort fun a b => a.isLe b = true).dedup :=
  (pairwise_insertionSort _ l).destutter_eq_dedup

lemma mem_sortDedup {l : List Text} {t : Text} : t ∈ sortDedup l ↔ t ∈ l := by
  rw [sortDedup_eq, mem_dedup, mem_insertionSort]

lemma pairwise_sortDedup (l : List Text) : (sortDedup l).Pairwise Text.Before := by
  rw [sortDedup_eq]
  exact (nodup_dedup _).and ((pairwise_insertionSort _ l).sublist (dedup_sublist _))

lemma mem_take_sortDedup_iff {l : List Text} {n : ℕ} {t : Text} :
    t ∈ (sortDedup l).take n ↔ t ∈ l ∧ {a ∈ l.toFinset | a.Before t}.card < n := by
  have hcard : {a ∈ l.toFinset | a.Before t}.card =
      ((sortDedup l).filter fun a => a.Before t).length := by
    have hnodup : (sortDedup l).Nodup := by
      rw [sortDedup_eq]
      exact nodup_dedup _
    rw [← toFinset_card_of_nodup (hnodup.filter _)]
    congr 1
    ext a
    simp [mem_sortDedup]
  rw [Text.mem_take_iff (pairwise_sortDedup l), mem_sortDedup, hcard]

end RustStd
