import PxxlEdge.Lib.Meter

/-!
Token buckets: a bucket gains tokens with time, up to a burst, and each request
takes one.  Tokens are exact rationals, times are nanoseconds of a monotonic
clock.
-/

namespace TokenBucket

structure Bucket where
  tokens : ℚ
  lastRefill : ℕ
deriving DecidableEq, Repr

def elapsedSeconds (earlier later : ℕ) : ℚ := ((later - earlier : ℕ) : ℚ) / 1000000000

def Bucket.refill (rate burst : ℚ) (now : ℕ) (b : Bucket) : Bucket :=
  let refill := elapsedSeconds b.lastRefill now * rate
  if 0 < refill then ⟨min (b.tokens + refill) burst, now⟩ else b

def Bucket.take (rate burst : ℚ) (now : ℕ) (b : Bucket) : Bool × Bucket :=
  let b := b.refill rate burst now
  if 1 ≤ b.tokens then (true, { b with tokens := b.tokens - 1 }) else (false, b)

/-! ### The level of a bucket -/

open Meter

section Level

variable {rate burst : ℚ} {now now' : ℕ} {b : Bucket}

lemma elapsedSeconds_eq {earlier later : ℕ} (h : earlier ≤ later) :
    elapsedSeconds earlier later = seconds later - seconds earlier := by
  rw [elapsedSeconds, seconds, seconds, Nat.cast_sub h]
  ring

lemma elapsedSeconds_nonneg (earlier later : ℕ) : 0 ≤ elapsedSeconds earlier later := by
  rw [elapsedSeconds]
  positivity

lemma gain_nonneg (earlier later : ℕ) (hrate : 0 ≤ rate) :
    0 ≤ elapsedSeconds earlier later * rate :=
  mul_nonneg (elapsedSeconds_nonneg earlier later) hrate

@[simp] lemma elapsedSeconds_self (t : ℕ) : elapsedSeconds t t = 0 := by
  simp [elapsedSeconds]

lemma elapsedSeconds_le_add (earlier : ℕ) (h : now ≤ now') :
    elapsedSeconds earlier now' ≤ elapsedSeconds earlier now + (seconds now' - seconds now) := by
  rw [← elapsedSeconds_eq h, elapsedSeconds, elapsedSeconds, elapsedSeconds, ← add_div,
    ← Nat.cast_add]
  gcongr
  omega

def Bucket.level (rate burst : ℚ) (now : ℕ) (b : Bucket) : ℚ :=
  min (b.tokens + elapsedSeconds b.lastRefill now * rate) burst

structure Bucket.Bounded (burst : ℚ) (b : Bucket) : Prop where
  nonneg : 0 ≤ b.tokens
  le_burst : b.tokens ≤ burst

lemma level_le_burst : b.level rate burst now ≤ burst := min_le_right _ _

lemma level_nonneg (hrate : 0 ≤ rate) (h : b.Bounded burst) (now : ℕ) :
    0 ≤ b.level rate burst now := by
  have hgain := gain_nonneg b.lastRefill now hrate
  exact le_min (add_nonneg h.nonneg hgain) (h.nonneg.trans h.le_burst)

lemma level_le_add (hrate : 0 ≤ rate) (h : now ≤ now') :
    b.level rate burst now' ≤
      b.level rate burst now + rate * (seconds now' - seconds now) := by
  have helapsed :=
    mul_le_mul_of_nonneg_right (elapsedSeconds_le_add b.lastRefill h) hrate
  have hgrowth : 0 ≤ rate * (seconds now' - seconds now) :=
    mul_nonneg hrate (sub_nonneg.mpr (seconds_mono h))
  rw [Bucket.level, Bucket.level]
  rcases min_cases (b.tokens + elapsedSeconds b.lastRefill now * rate) burst with
    ⟨hmin, -⟩ | ⟨hmin, -⟩
  · rw [hmin]
    calc min (b.tokens + elapsedSeconds b.lastRefill now' * rate) burst
        ≤ b.tokens + elapsedSeconds b.lastRefill now' * rate := min_le_left _ _
      _ ≤ b.tokens + elapsedSeconds b.lastRefill now * rate +
            rate * (seconds now' - seconds now) := by linarith
  · rw [hmin]
    calc min (b.tokens + elapsedSeconds b.lastRefill now' * rate) burst
        ≤ burst := min_le_right _ _
      _ ≤ burst + rate * (seconds now' - seconds now) := by linarith

lemma level_of_full (hrate : 0 ≤ rate) (h : b.tokens = burst) :
    b.level rate burst now = burst := by
  have hgain := gain_nonneg b.lastRefill now hrate
  exact min_eq_right (by linarith)

lemma level_of_stale (hrate : 0 ≤ rate) (h : b.Bounded burst) {ttl : ℕ}
    (hfills : burst ≤ seconds ttl * rate) (hstale : ttl ≤ now - b.lastRefill) :
    b.level rate burst now = burst := by
  have helapsed : seconds ttl ≤ elapsedSeconds b.lastRefill now := by
    rw [seconds, elapsedSeconds]
    gcongr
  have hrefill := mul_le_mul_of_nonneg_right helapsed hrate
  have htokens := h.nonneg
  exact min_eq_right (by linarith)

lemma tokens_refill (hrate : 0 ≤ rate) (h : b.Bounded burst) (now : ℕ) :
    (b.refill rate burst now).tokens = b.level rate burst now ∧
      elapsedSeconds (b.refill rate burst now).lastRefill now * rate = 0 := by
  have hgain := gain_nonneg b.lastRefill now hrate
  rw [Bucket.refill, Bucket.level]
  split
  · exact ⟨rfl, by simp⟩
  · next hnone =>
    have hzero : elapsedSeconds b.lastRefill now * rate = 0 := by linarith
    refine ⟨?_, hzero⟩
    rw [hzero, add_zero, min_eq_left h.le_burst]

lemma level_take (hrate : 0 ≤ rate) (h : b.Bounded burst) (now : ℕ) :
    (b.take rate burst now).2.level rate burst now +
        (if (b.take rate burst now).1 then 1 else 0) = b.level rate burst now := by
  obtain ⟨htokens, hzero⟩ := tokens_refill hrate h now
  have hle : b.level rate burst now ≤ burst := level_le_burst
  rw [Bucket.take]
  split
  · next hone =>
    rw [if_pos rfl, Bucket.level, hzero, htokens, add_zero, min_eq_left (by linarith)]
    ring
  · rw [if_neg (by simp), Bucket.level, hzero, htokens, add_zero, add_zero, min_eq_left hle]

lemma bounded_take (hrate : 0 ≤ rate) (h : b.Bounded burst) (now : ℕ) :
    (b.take rate burst now).2.Bounded burst := by
  obtain ⟨htokens, -⟩ := tokens_refill hrate h now
  have hle : b.level rate burst now ≤ burst := level_le_burst
  have hnonneg := level_nonneg hrate h now
  rw [Bucket.take, htokens]
  split
  · next hone => exact ⟨by simpa using hone, by simp only; linarith⟩
  · exact ⟨by rw [htokens]; exact hnonneg, by rw [htokens]; exact hle⟩

end Level

end TokenBucket
