import PxxlEdge.Lib.Run
import Mathlib.Algebra.Order.Field.Rat

/-!
Meters: systems that grant something step by step and can grant no more than they
have stored.

What is stored is at most a burst, grows at most at a rate, and every grant takes one
from it.  Times are nanoseconds of a monotonic clock.
-/

namespace Meter

open Run

variable {S Λ : Type*}

def seconds (t : ℕ) : ℚ := (t : ℚ) / 1000000000

lemma seconds_mono {t t' : ℕ} (h : t ≤ t') : seconds t ≤ seconds t' := by
  rw [seconds, seconds]
  gcongr

structure Metered (rate burst : ℚ) (step : S → Λ → S) (time : Λ → ℕ) (grants : S → Λ → Bool)
    (side : S → Λ → Prop) (Inv : S → Prop) (stored : S → ℕ → ℚ) : Prop where
  rate_nonneg : 0 ≤ rate
  inv : ∀ s l, Inv s → side s l → Inv (step s l)
  nonneg : ∀ s t, Inv s → 0 ≤ stored s t
  le_burst : ∀ s t, Inv s → stored s t ≤ burst
  grows : ∀ s t t', Inv s → t ≤ t' →
    stored s t' ≤ stored s t + rate * (seconds t' - seconds t)
  pays : ∀ s l, Inv s → side s l →
    stored (step s l) (time l) + (if grants s l then 1 else 0) ≤ stored s (time l)

def grantedWhere (step : S → Λ → S) (grants : S → Λ → Bool) (p : Λ → Bool) : S → List Λ → ℕ
  | _, [] => 0
  | s, l :: steps =>
    (if grants s l && p l then 1 else 0) + grantedWhere step grants p (step s l) steps

section Bound

variable {rate burst : ℚ} {step : S → Λ → S} {time : Λ → ℕ} {grants : S → Λ → Bool}
  {side : S → Λ → Prop} {Inv : S → Prop} {stored : S → ℕ → ℚ} {p q : Λ → Bool} {s : S}
  {steps : List Λ}

lemma grantedWhere_congr (h : ∀ l ∈ steps, p l = q l) :
    grantedWhere step grants p s steps = grantedWhere step grants q s steps := by
  induction steps generalizing s with
  | nil => rfl
  | cons l steps ih =>
    rw [grantedWhere, grantedWhere, h l (by simp), ih fun l' hl' => h l' (by simp [hl'])]

lemma grantedWhere_eq_zero (h : ∀ l ∈ steps, p l = false) :
    grantedWhere step grants p s steps = 0 := by
  induction steps generalizing s with
  | nil => rfl
  | cons l steps ih =>
    rw [grantedWhere, h l (by simp), ih fun l' hl' => h l' (by simp [hl'])]
    simp

lemma time_le_of_mem {l l' : Λ} (hclock : ((l :: steps).map time).Pairwise (· ≤ ·))
    (hl' : l' ∈ l :: steps) : time l ≤ time l' := by
  rw [List.map_cons, List.pairwise_cons] at hclock
  rcases List.mem_cons.mp hl' with rfl | hl'
  · exact le_rfl
  · exact hclock.1 _ (List.mem_map_of_mem hl')

lemma Metered.granted_until_le (h : Metered rate burst step time grants side Inv stored)
    (halong : Along step side s steps) (hs : Inv s) {now : ℕ} {b : ℚ} (hb : seconds now ≤ b)
    (hclock : (now :: steps.map time).Pairwise (· ≤ ·)) :
    (grantedWhere step grants (fun l => decide (seconds (time l) ≤ b)) s steps : ℚ) ≤
      stored s now + rate * (b - seconds now) := by
  induction steps generalizing s now with
  | nil =>
    have hrest : 0 ≤ rate * (b - seconds now) :=
      mul_nonneg h.rate_nonneg (sub_nonneg.mpr hb)
    have hstored := h.nonneg s now hs
    simp only [grantedWhere, Nat.cast_zero]
    linarith
  | cons l steps ih =>
    obtain ⟨hfirst, hclock⟩ := List.pairwise_cons.mp hclock
    have hnow : now ≤ time l := hfirst _ (by simp)
    by_cases hl : seconds (time l) ≤ b
    · have hrest := ih halong.2 (h.inv s l hs halong.1) hl hclock
      have hpays := h.pays s l hs halong.1
      have hgrows := h.grows s now (time l) hs hnow
      rw [grantedWhere]
      simp only [hl, decide_true, Bool.and_true]
      push_cast
      calc (if grants s l = true then (1 : ℚ) else 0) + _
          ≤ (if grants s l = true then (1 : ℚ) else 0) +
              (stored (step s l) (time l) + rate * (b - seconds (time l))) := by gcongr
        _ ≤ stored s (time l) + rate * (b - seconds (time l)) := by linarith
        _ ≤ stored s now + rate * (seconds (time l) - seconds now) +
              rate * (b - seconds (time l)) := by linarith
        _ = stored s now + rate * (b - seconds now) := by ring
    · -- this step and all later ones come too late
      have hlate : ∀ l' ∈ l :: steps, decide (seconds (time l') ≤ b) = false := by
        intro l' hl'
        have hlt := (not_le.mp hl).trans_le (seconds_mono (time_le_of_mem hclock hl'))
        exact decide_eq_false (not_le.mpr hlt)
      have hrest : 0 ≤ rate * (b - seconds now) :=
        mul_nonneg h.rate_nonneg (sub_nonneg.mpr hb)
      have hstored := h.nonneg s now hs
      rw [grantedWhere_eq_zero hlate, Nat.cast_zero]
      linarith

theorem Metered.granted_le (h : Metered rate burst step time grants side Inv stored)
    (halong : Along step side s steps) (hs : Inv s) (hclock : (steps.map time).Pairwise (· ≤ ·))
    {a b : ℚ} (hab : a ≤ b) :
    (grantedWhere step grants
        (fun l => decide (a ≤ seconds (time l) ∧ seconds (time l) ≤ b)) s steps : ℚ) ≤
      burst + rate * (b - a) := by
  have hburst : 0 ≤ burst := (h.nonneg s 0 hs).trans (h.le_burst s 0 hs)
  have hrate : 0 ≤ rate * (b - a) := mul_nonneg h.rate_nonneg (sub_nonneg.mpr hab)
  induction steps generalizing s with
  | nil =>
    simp only [grantedWhere, Nat.cast_zero]
    linarith
  | cons l steps ih =>
    have hlater : ∀ l' ∈ l :: steps, time l ≤ time l' :=
      fun l' hl' => time_le_of_mem hclock hl'
    by_cases ha : a ≤ seconds (time l)
    · by_cases hb : seconds (time l) ≤ b
      · -- from the first step in the interval on, only its end matters
        have hcongr : ∀ l' ∈ l :: steps,
            decide (a ≤ seconds (time l') ∧ seconds (time l') ≤ b) =
              decide (seconds (time l') ≤ b) := by
          intro l' hl'
          have ha' := ha.trans (seconds_mono (hlater l' hl'))
          simp [ha']
        have hclock' : (time l :: (l :: steps).map time).Pairwise (· ≤ ·) := by
          refine List.pairwise_cons.mpr ⟨?_, hclock⟩
          intro t ht
          obtain ⟨l', hl', rfl⟩ := List.mem_map.mp ht
          exact hlater l' hl'
        have huntil := h.granted_until_le halong hs hb hclock'
        have hstored := h.le_burst s (time l) hs
        have hshorter : rate * (b - seconds (time l)) ≤ rate * (b - a) :=
          mul_le_mul_of_nonneg_left (by linarith) h.rate_nonneg
        rw [grantedWhere_congr hcongr]
        linarith
      · have hlate : ∀ l' ∈ l :: steps,
            decide (a ≤ seconds (time l') ∧ seconds (time l') ≤ b) = false := by
          intro l' hl'
          have hlt := (not_le.mp hb).trans_le (seconds_mono (hlater l' hl'))
          simp [hlt]
        rw [grantedWhere_eq_zero hlate, Nat.cast_zero]
        linarith
    · have hrest := ih halong.2 (h.inv s l hs halong.1) (List.pairwise_cons.mp hclock).2
      rw [grantedWhere]
      simpa [ha] using hrest

end Bound

end Meter
