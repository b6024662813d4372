import Mathlib.Algebra.BigOperators.Group.Finset.Piecewise
import Mathlib.Algebra.Order.BigOperators.Group.Finset
import Mathlib.Tactic

/-!
References that are followed to a fixed depth.  Every name refers to a list of names;
the names of a list are visited, then the names they refer to, and so on, each as often
as it is referred to.
-/

namespace RefTree

open List

variable {α : Type*} (next : α → List α)

def visited : ℕ → List α → ℕ
  | 0, _ => 0
  | levels + 1, names => names.length + visited levels (names.flatMap next)

variable {next} [DecidableEq α]

section Sums

variable {names : List α} {T : Finset α} {g : α → ℕ}

lemma sum_map_eq_sum_toFinset (hcount : ∀ n ∈ names, g n ≠ 0 → names.count n ≤ 1) :
    (names.map g).sum = ∑ n ∈ names.toFinset, g n := by
  rw [Finset.sum_list_map_count]
  refine Finset.sum_congr rfl fun n hn => ?_
  have hmem : n ∈ names := mem_toFinset.mp hn
  by_cases hg : g n = 0
  · rw [hg, nsmul_zero]
  · have hone : names.count n = 1 :=
      le_antisymm (hcount n hmem hg) (count_pos_iff.mpr hmem)
    rw [hone, one_nsmul]

lemma sum_map_add_sum_sdiff (hcount : ∀ n ∈ names, g n ≠ 0 → names.count n ≤ 1)
    (hT : ∀ n ∈ names, g n ≠ 0 → n ∈ T) :
    (names.map g).sum + ∑ n ∈ T \ names.toFinset, g n = ∑ n ∈ T, g n := by
  have hinter : ∑ n ∈ names.toFinset, g n = ∑ n ∈ T ∩ names.toFinset, g n := by
    refine (Finset.sum_subset Finset.inter_subset_right fun n hn hnot => ?_).symm
    by_contra hg
    exact hnot (Finset.mem_inter.mpr ⟨hT n (mem_toFinset.mp hn) hg, hn⟩)
  rw [sum_map_eq_sum_toFinset hcount, hinter, Finset.sum_inter_add_sum_sdiff]

end Sums

structure Once (next : α → List α) (T : Finset α) (names : List α) : Prop where
  mem : ∀ n ∈ names, next n ≠ [] → n ∈ T
  closed : ∀ n ∈ T, ∀ c ∈ next n, next c ≠ [] → c ∈ T
  count_le : ∀ c, next c ≠ [] → names.count c + ∑ n ∈ T, (next n).count c ≤ 1

namespace Once

variable {T : Finset α} {names : List α} (h : Once next T names)
include h

lemma count_names_le {c : α} (hc : next c ≠ []) : names.count c ≤ 1 :=
  (Nat.le_add_right _ _).trans (h.count_le c hc)

lemma not_mem_names {n c : α} (hn : n ∈ T) (hc : c ∈ next n) (hne : next c ≠ []) :
    c ∉ names := by
  intro hmem
  have hnames : 0 < names.count c := count_pos_iff.mpr hmem
  have hnext : 0 < (next n).count c := count_pos_iff.mpr hc
  have hsum : (next n).count c ≤ ∑ n ∈ T, (next n).count c :=
    Finset.single_le_sum (f := fun n => (next n).count c) (fun _ _ => Nat.zero_le _) hn
  have := h.count_le c hne
  omega

lemma sum_split (size : List α → ℕ) (hsize : size [] = 0) :
    (names.map fun n => size (next n)).sum + ∑ n ∈ T \ names.toFinset, size (next n) =
      ∑ n ∈ T, size (next n) := by
  have hne : ∀ n, size (next n) ≠ 0 → next n ≠ [] := fun n hn hnil => hn (by rw [hnil, hsize])
  exact sum_map_add_sum_sdiff (fun n _ hn => h.count_names_le (hne n hn))
    fun n hmem hn => h.mem n hmem (hne n hn)

lemma flatMap : Once next (T \ names.toFinset) (names.flatMap next) where
  mem := by
    intro c hc hne
    obtain ⟨n, hn, hcn⟩ := mem_flatMap.mp hc
    have hnT : n ∈ T := h.mem n hn (ne_nil_of_mem hcn)
    exact Finset.mem_sdiff.mpr ⟨h.closed n hnT c hcn hne,
      fun hmem => h.not_mem_names hnT hcn hne (mem_toFinset.mp hmem)⟩
  closed := by
    intro n hn c hc hne
    have hnT := (Finset.mem_sdiff.mp hn).1
    exact Finset.mem_sdiff.mpr ⟨h.closed n hnT c hc hne,
      fun hmem => h.not_mem_names hnT hc hne (mem_toFinset.mp hmem)⟩
  count_le := by
    intro c hne
    have hcount : (names.flatMap next).count c = (names.map fun n => (next n).count c).sum :=
      count_flatMap
    rw [hcount, h.sum_split (List.count c) rfl]
    exact (Nat.le_add_left _ _).trans (h.count_le c hne)

end Once

theorem visited_le_of_once {T : Finset α} {names : List α} (h : Once next T names)
    (levels : ℕ) :
    visited next levels names ≤ names.length + ∑ n ∈ T, (next n).length := by
  induction levels generalizing T names with
  | zero => exact Nat.zero_le _
  | succ levels ih =>
    have hlength : (names.flatMap next).length = (names.map fun n => (next n).length).sum :=
      length_flatMap
    have hsplit := h.sum_split List.length rfl
    have hrest := ih h.flatMap
    rw [visited]
    omega

end RefTree
