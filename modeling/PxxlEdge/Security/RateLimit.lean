import PxxlEdge.Security.Engine
import PxxlEdge.Lib.KeyedBuckets

/-!
The rate limiter over whole runs of calls, from any number of addresses, with all its
evictions.
-/

namespace PxxlEdge

open RustStd TokenBucket Meter Run

/-! ### Evictions -/

section Evictions

variable {l : RateLimiter} {ip : IpAddr} {now t : ℕ}

def RateLimiter.level (l : RateLimiter) (t : ℕ) (ip : IpAddr) : ℚ :=
  levelOf l.config.requestsPerSecond l.config.burst t l.buckets ip

def RateLimiter.Bounded (l : RateLimiter) (ip : IpAddr) : Prop :=
  BoundedAt l.config.burst l.buckets ip

def RateLimitConfig.FillsInTime (config : RateLimitConfig) : Prop :=
  config.burst ≤ 600 * config.requestsPerSecond

lemma RateLimitConfig.FillsInTime.le {config : RateLimitConfig} (h : config.FillsInTime) :
    (config.burst : ℚ) ≤ seconds rateBucketTtl * config.requestsPerSecond := by
  have hcast : (config.burst : ℚ) ≤ 600 * config.requestsPerSecond := by exact_mod_cast h
  have httl : seconds rateBucketTtl = 600 := by norm_num [seconds, rateBucketTtl]
  rwa [httl]

lemma levelOf_retainFresh (h : l.Bounded ip) (hfills : l.config.FillsInTime) (ht : now ≤ t) :
    levelOf l.config.requestsPerSecond l.config.burst t
        (retainFresh rateBucketTtl now l.buckets) ip = l.level t ip := by
  refine levelOf_retain _ fun b hb hdropped => ?_
  have hstale : rateBucketTtl ≤ t - b.lastRefill := by
    rw [decide_eq_false_iff_not] at hdropped
    omega
  exact level_of_stale (Nat.cast_nonneg _) (h b hb) hfills.le hstale

structure Evicts (ip : IpAddr) (t : ℕ) (l l' : RateLimiter) : Prop where
  config : l'.config = l.config
  bounded : l.Bounded ip → l'.Bounded ip
  level : l.Bounded ip → l.config.FillsInTime → l'.level t ip = l.level t ip

lemma evicts_evictIfDue (l : RateLimiter) (ip : IpAddr) (ht : now ≤ t) :
    Evicts ip t l (l.evictIfDue now) := by
  rw [RateLimiter.evictIfDue]
  split
  · exact ⟨rfl, id, fun _ _ => rfl⟩
  · exact ⟨rfl, fun h => h.retain _, fun h hfills => levelOf_retainFresh h hfills ht⟩

lemma evicts_evictStale (l : RateLimiter) (ip : IpAddr) (ht : now ≤ t) :
    Evicts ip t l (l.evictStale now) := by
  rw [RateLimiter.evictStale]
  split
  · exact ⟨rfl, id, fun _ _ => rfl⟩
  · exact ⟨rfl, fun h => h.retain _, fun h hfills => levelOf_retainFresh h hfills ht⟩

lemma Evicts.trans {l l' l'' : RateLimiter} (h : Evicts ip t l l') (h' : Evicts ip t l' l'') :
    Evicts ip t l l'' where
  config := h'.config.trans h.config
  bounded := fun hb => h'.bounded (h.bounded hb)
  level := by
    intro hb hfills
    rw [h'.level (h.bounded hb) (by rwa [h.config]), h.level hb hfills]

end Evictions

/-! ### Calls -/

structure AllowCall where
  ip : IpAddr
  clock : ℕ → ℕ

namespace AllowCall

def step (l : RateLimiter) (call : AllowCall) : RateLimiter := (l.allow call.clock call.ip).2

def time (call : AllowCall) : ℕ := call.clock 3

def readings (call : AllowCall) : List ℕ :=
  [call.clock 0, call.clock 1, call.clock 2, call.clock 3]

def allows (ip : IpAddr) (l : RateLimiter) (call : AllowCall) : Bool :=
  call.ip = ip ∧ (l.allow call.clock call.ip).1 = .allowed

def Ordered (call : AllowCall) : Prop :=
  call.clock 0 ≤ call.clock 3 ∧ call.clock 1 ≤ call.clock 3

end AllowCall

section Calls

variable {l : RateLimiter} {ip : IpAddr} {call : AllowCall}

def RateLimiter.evicted (l : RateLimiter) (clock : ℕ → ℕ) : RateLimiter :=
  (l.evictIfDue (clock 0)).evictStale (clock 1)

lemma evicts_evicted (l : RateLimiter) (ip : IpAddr) (h : call.Ordered) :
    Evicts ip call.time l (l.evicted call.clock) :=
  (evicts_evictIfDue l ip h.1).trans (evicts_evictStale _ ip h.2)

lemma exists_allow_eq (l : RateLimiter) (call : AllowCall) :
    ∃ taken bucket,
      ((l.evicted call.clock).bucket (call.clock 2) call.ip).take
          (l.evicted call.clock).config.requestsPerSecond (l.evicted call.clock).config.burst
          call.time = (taken, bucket) ∧
        call.step l = { l.evicted call.clock with
          buckets := (l.evicted call.clock).buckets.insert call.ip bucket } ∧
        ((l.allow call.clock call.ip).1 = .allowed ↔ taken = true) := by
  refine ⟨_, _, rfl, ?_, ?_⟩
  · rw [AllowCall.step, RateLimiter.allow]
    dsimp only
    split <;> rfl
  · rw [RateLimiter.allow]
    dsimp only
    split
    · next htaken => exact iff_of_true rfl htaken
    · next htaken => exact iff_of_false (by simp) htaken

lemma level_step (hb : l.Bounded ip) (hfills : l.config.FillsInTime) (hcall : call.Ordered) :
    (call.step l).config = l.config ∧ (call.step l).Bounded ip ∧
      (call.step l).level call.time ip + (if call.allows ip l then 1 else 0) =
        l.level call.time ip := by
  have hevicts := evicts_evicted l ip hcall
  obtain ⟨taken, bucket, htake, hstep, hallowed⟩ := exists_allow_eq l call
  have hbounded := hevicts.bounded hb
  rw [hstep, ← hevicts.level hb hfills]
  refine ⟨hevicts.config, ?_⟩
  by_cases hip : ip = call.ip
  · subst hip
    have hrate : (0 : ℚ) ≤ (l.evicted call.clock).config.requestsPerSecond := Nat.cast_nonneg _
    have hburst : (0 : ℚ) ≤ (l.evicted call.clock).config.burst := Nat.cast_nonneg _
    have hallows : call.allows call.ip l = taken := by
      rw [Bool.eq_iff_iff, ← hallowed]
      simp [AllowCall.allows]
    rw [hallows]
    exact ⟨boundedAt_take hrate hburst hbounded _ htake,
      levelOf_take hrate hburst hbounded _ htake⟩
  · have hother : call.allows ip l = false := by
      simp [AllowCall.allows, Ne.symm hip]
    rw [hother, if_neg (by simp), add_zero]
    exact ⟨BoundedAt.insert_of_ne hbounded hip bucket, levelOf_insert_of_ne hip bucket⟩

end Calls

/-! ### Runs -/

def allowedBetween (ip : IpAddr) (a b : ℚ) (l : RateLimiter) (calls : List AllowCall) : ℕ :=
  grantedWhere AllowCall.step (AllowCall.allows ip)
    (fun call => decide (a ≤ seconds call.time ∧ seconds call.time ≤ b)) l calls

lemma metered_allow {config : RateLimitConfig} (hfills : config.FillsInTime) (ip : IpAddr) :
    Metered config.requestsPerSecond config.burst AllowCall.step AllowCall.time
      (AllowCall.allows ip) (fun _ call => call.Ordered)
      (fun l => l.config = config ∧ l.Bounded ip) (fun l t => l.level t ip) where
  rate_nonneg := Nat.cast_nonneg _
  inv := by
    rintro l call ⟨rfl, hb⟩ hcall
    obtain ⟨hconfig, hbounded, -⟩ := level_step hb hfills hcall
    exact ⟨hconfig, hbounded⟩
  nonneg := by
    rintro l t ⟨rfl, hb⟩
    exact levelOf_nonneg (Nat.cast_nonneg _) (Nat.cast_nonneg _) hb t
  le_burst := by
    rintro l t ⟨rfl, -⟩
    exact levelOf_le_burst _ _ _ _
  grows := by
    rintro l t t' ⟨rfl, -⟩ ht
    exact levelOf_le_add (Nat.cast_nonneg _) _ _ ht
  pays := by
    rintro l call ⟨rfl, hb⟩ hcall
    exact (level_step hb hfills hcall).2.2.le

/-- **The rate limit.**  In every run of calls, from any number of addresses, an address
is allowed at most a burst and its rate between two times. -/
theorem allowed_between_le (config : RateLimitConfig)
    (hfills : config.burst ≤ 600 * config.requestsPerSecond) (started : ℕ)
    (calls : List AllowCall) (hclock : (calls.flatMap AllowCall.readings).Pairwise (· ≤ ·))
    (ip : IpAddr) (a b : ℚ) (hab : a ≤ b) :
    (allowedBetween ip a b { config, lastEviction := started } calls : ℚ) ≤
      config.burst + config.requestsPerSecond * (b - a) := by
  rw [List.pairwise_flatMap] at hclock
  have hordered : ∀ call ∈ calls, call.Ordered := by
    intro call hcall
    have hreadings := hclock.1 call hcall
    simp only [AllowCall.readings, List.pairwise_cons] at hreadings
    exact ⟨hreadings.1 _ (by simp), hreadings.2.1 _ (by simp)⟩
  have htimes : (calls.map AllowCall.time).Pairwise (· ≤ ·) := by
    rw [List.pairwise_map]
    refine hclock.2.imp fun h => h _ ?_ _ ?_
    · simp [AllowCall.readings, AllowCall.time]
    · simp [AllowCall.readings, AllowCall.time]
  have hnew : RateLimiter.Bounded { config, lastEviction := started } ip := boundedAt_empty
  exact (metered_allow hfills ip).granted_le (along_of_forall hordered) ⟨rfl, hnew⟩ htimes hab

/-- Three calls within a second, with one token a second and two at once. -/
theorem allowed_between_le_three_calls :
    (allowedBetween (.v4 ⟨9, 9, 9, 9⟩) 0 1 { config := ⟨1, 2⟩, lastEviction := 0 }
      [⟨.v4 ⟨9, 9, 9, 9⟩, fun _ => 0⟩, ⟨.v4 ⟨9, 9, 9, 9⟩, fun _ => 0⟩,
        ⟨.v4 ⟨9, 9, 9, 9⟩, fun _ => 5⟩] : ℚ) ≤ 3 := by
  have h := allowed_between_le ⟨1, 2⟩ (by decide) 0
    [⟨.v4 ⟨9, 9, 9, 9⟩, fun _ => 0⟩, ⟨.v4 ⟨9, 9, 9, 9⟩, fun _ => 0⟩,
      ⟨.v4 ⟨9, 9, 9, 9⟩, fun _ => 5⟩] (by decide) (.v4 ⟨9, 9, 9, 9⟩) 0 1 (by norm_num)
  norm_num at h ⊢
  exact h

end PxxlEdge
