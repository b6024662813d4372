import PxxlEdge.Lib.Map
import Mathlib.Data.Multiset.Count

/-!
Counters of holders.  A map has a counter for each key, and each holder holds at
most one key; the counters are exact if every one of them is the number of the
holders of its key.
-/

namespace RustStd

variable {κ α : Type} [DecidableEq κ]

def holdersOf (key : α → Option κ) (holders : Multiset α) (k : κ) : ℕ :=
  holders.countP fun a => key a = some k

def Counts (key : α → Option κ) (holders : Multiset α) (m : Map κ ℕ) : Prop :=
  ∀ k, (m.lookup k).getD 0 = holdersOf key holders k

variable {key : α → Option κ} {holders : Multiset α} {m : Map κ ℕ} {a b : α} {k : κ}

@[simp] lemma holdersOf_zero : holdersOf key 0 k = 0 := rfl

@[simp] lemma holdersOf_cons :
    holdersOf key (a ::ₘ holders) k = holdersOf key holders k + if key a = some k then 1 else 0 :=
  Multiset.countP_cons _ _ _

lemma counts_empty : Counts key 0 (∅ : Map κ ℕ) := fun _ => rfl

lemma counts_cons_of_none (ha : key a = none) :
    Counts key (a ::ₘ holders) m ↔ Counts key holders m := by
  simp [Counts, ha]

lemma counts_exchange (hab : key a = key b) :
    Counts key (a ::ₘ holders) m ↔ Counts key (b ::ₘ holders) m := by
  simp [Counts, hab]

lemma Counts.take (h : Counts key holders m) (ha : key a = some k) :
    Counts key (a ::ₘ holders) (m.insert k ((m.lookup k).getD 0 + 1)) := by
  intro j
  rw [holdersOf_cons, ha, ← h j]
  by_cases hj : j = k
  · subst hj
    simp
  · rw [AList.lookup_insert_ne hj, if_neg fun h => hj (Option.some.inj h).symm, Nat.add_zero]

lemma Counts.leave (h : Counts key (a ::ₘ holders) m) (ha : key a = some k) {n : ℕ}
    (hn : m.lookup k = some n) : Counts key holders (m.insert k (n - 1)) := by
  intro j
  have hcount := h j
  rw [holdersOf_cons, ha] at hcount
  by_cases hj : j = k
  · subst hj
    rw [hn, if_pos rfl, Option.getD_some] at hcount
    rw [AList.lookup_insert, Option.getD_some, hcount, Nat.add_sub_cancel]
  · rw [AList.lookup_insert_ne hj, hcount, if_neg fun h => hj (Option.some.inj h).symm,
      Nat.add_zero]

lemma Counts.insert_self (h : Counts key holders m) :
    Counts key holders (m.insert k ((m.lookup k).getD 0)) := by
  intro j
  rw [← h j]
  by_cases hj : j = k
  · subst hj
    simp
  · rw [AList.lookup_insert_ne hj]

lemma Counts.exists_lookup (h : Counts key (a ::ₘ holders) m) (ha : key a = some k) :
    ∃ n, m.lookup k = some n := by
  have hcount := h k
  rw [holdersOf_cons, if_pos ha] at hcount
  cases hn : m.lookup k with
  | some n => exact ⟨n, rfl⟩
  | none => simp [hn] at hcount

lemma Counts.not_leave (h : Counts key (a ::ₘ holders) m) (ha : key a = some k) :
    ¬ Counts key holders m := by
  intro h'
  have hcount := h k
  rw [holdersOf_cons, if_pos ha, h' k] at hcount
  omega

end RustStd
