import PxxlEdge.Lib.TokenBucket
import PxxlEdge.Lib.Map

/-!
Token buckets by key.  A key without a bucket counts as one with a full bucket: a new
bucket starts full, and a bucket may be dropped once it is full.
-/

namespace TokenBucket

open RustStd Meter

variable {κ : Type} [DecidableEq κ] {rate burst : ℚ} {now now' : ℕ} {buckets : Map κ Bucket}
  {key key' : κ}

def levelOf (rate burst : ℚ) (now : ℕ) (buckets : Map κ Bucket) (key : κ) : ℚ :=
  ((buckets.lookup key).map fun b => b.level rate burst now).getD burst

def BoundedAt (burst : ℚ) (buckets : Map κ Bucket) (key : κ) : Prop :=
  ∀ b, buckets.lookup key = some b → b.Bounded burst

lemma levelOf_of_some {b : Bucket} (h : buckets.lookup key = some b) :
    levelOf rate burst now buckets key = b.level rate burst now := by
  simp [levelOf, h]

lemma levelOf_of_none (h : buckets.lookup key = none) :
    levelOf rate burst now buckets key = burst := by
  simp [levelOf, h]

lemma boundedAt_empty : BoundedAt burst (∅ : Map κ Bucket) key := by
  intro b hb
  simp at hb

lemma levelOf_le_burst (rate : ℚ) (now : ℕ) (buckets : Map κ Bucket) (key : κ) :
    levelOf rate burst now buckets key ≤ burst := by
  cases hb : buckets.lookup key with
  | none => exact (levelOf_of_none hb).le
  | some b =>
    rw [levelOf_of_some hb]
    exact level_le_burst

lemma levelOf_nonneg (hrate : 0 ≤ rate) (hburst : 0 ≤ burst) (h : BoundedAt burst buckets key)
    (now : ℕ) : 0 ≤ levelOf rate burst now buckets key := by
  cases hb : buckets.lookup key with
  | none => rwa [levelOf_of_none hb]
  | some b =>
    rw [levelOf_of_some hb]
    exact level_nonneg hrate (h b hb) now

lemma levelOf_le_add (hrate : 0 ≤ rate) (buckets : Map κ Bucket) (key : κ) (h : now ≤ now') :
    levelOf rate burst now' buckets key ≤
      levelOf rate burst now buckets key + rate * (seconds now' - seconds now) := by
  cases hb : buckets.lookup key with
  | none =>
    have hgrowth : 0 ≤ rate * (seconds now' - seconds now) :=
      mul_nonneg hrate (sub_nonneg.mpr (seconds_mono h))
    rw [levelOf_of_none hb, levelOf_of_none hb]
    linarith
  | some b =>
    rw [levelOf_of_some hb, levelOf_of_some hb]
    exact level_le_add hrate h

lemma levelOf_insert_of_ne (hne : key ≠ key') (b : Bucket) :
    levelOf rate burst now (buckets.insert key' b) key = levelOf rate burst now buckets key := by
  rw [levelOf, levelOf, AList.lookup_insert_ne hne]

lemma BoundedAt.insert_of_ne (h : BoundedAt burst buckets key) (hne : key ≠ key') (b : Bucket) :
    BoundedAt burst (buckets.insert key' b) key := by
  intro b' hb'
  rw [AList.lookup_insert_ne hne] at hb'
  exact h b' hb'

lemma bucket_spec (hrate : 0 ≤ rate) (hburst : 0 ≤ burst) (h : BoundedAt burst buckets key)
    (created now : ℕ) :
    ((buckets.lookup key).getD ⟨burst, created⟩).Bounded burst ∧
      ((buckets.lookup key).getD ⟨burst, created⟩).level rate burst now =
        levelOf rate burst now buckets key := by
  cases hb : buckets.lookup key with
  | none => exact ⟨⟨hburst, le_rfl⟩, by rw [levelOf_of_none hb]; exact level_of_full hrate rfl⟩
  | some b => exact ⟨h b hb, (levelOf_of_some hb).symm⟩

lemma levelOf_take (hrate : 0 ≤ rate) (hburst : 0 ≤ burst) (h : BoundedAt burst buckets key)
    (created : ℕ) {taken : Bool} {bucket : Bucket}
    (htake : ((buckets.lookup key).getD ⟨burst, created⟩).take rate burst now = (taken, bucket)) :
    levelOf rate burst now (buckets.insert key bucket) key + (if taken then 1 else 0) =
      levelOf rate burst now buckets key := by
  obtain ⟨hbounded, hlevel⟩ := bucket_spec hrate hburst h created now
  have hpaid := level_take hrate hbounded now
  rw [htake] at hpaid
  calc levelOf rate burst now (buckets.insert key bucket) key + (if taken then 1 else 0)
      = bucket.level rate burst now + (if taken then 1 else 0) := by
        rw [levelOf_of_some (AList.lookup_insert _)]
    _ = ((buckets.lookup key).getD ⟨burst, created⟩).level rate burst now := hpaid
    _ = levelOf rate burst now buckets key := hlevel

lemma boundedAt_take (hrate : 0 ≤ rate) (hburst : 0 ≤ burst) (h : BoundedAt burst buckets key)
    (created : ℕ) {taken : Bool} {bucket : Bucket}
    (htake : ((buckets.lookup key).getD ⟨burst, created⟩).take rate burst now = (taken, bucket)) :
    BoundedAt burst (buckets.insert key bucket) key := by
  intro b hb
  obtain rfl : bucket = b := by simpa using hb
  have hbounded := bounded_take hrate (bucket_spec hrate hburst h created now).1 now
  rwa [htake] at hbounded

lemma BoundedAt.retain (h : BoundedAt burst buckets key) (p : κ → Bucket → Bool) :
    BoundedAt burst (buckets.retain p) key := by
  intro b hb
  rw [Map.lookup_retain, Option.filter_eq_some_iff] at hb
  exact h b hb.1

lemma levelOf_retain (p : κ → Bucket → Bool)
    (hfull : ∀ b, buckets.lookup key = some b → p key b = false →
      b.level rate burst now = burst) :
    levelOf rate burst now (buckets.retain p) key = levelOf rate burst now buckets key := by
  cases hb : buckets.lookup key with
  | none =>
    have hnone : (buckets.retain p).lookup key = none := by
      rw [Map.lookup_retain, hb]
      rfl
    rw [levelOf_of_none hb, levelOf_of_none hnone]
  | some b =>
    have hkept : (buckets.retain p).lookup key = if p key b then some b else none := by
      rw [Map.lookup_retain, hb]
      rfl
    cases hp : p key b with
    | true =>
      rw [hp, if_pos rfl] at hkept
      rw [levelOf_of_some hb, levelOf_of_some hkept]
    | false =>
      rw [hp, if_neg (by simp)] at hkept
      rw [levelOf_of_some hb, hfull b hb hp, levelOf_of_none hkept]

end TokenBucket
