import PxxlEdge.Security.AdaptiveBlocker
import PxxlEdge.Lib.TokenBucket

/-!
The security engine in front of every route: a blacklist, the blocks of the
adaptive blocker, and a token bucket for each address.

Each function that reads the clock is given its readings.

* `SecurityEngine.check_allowed`: an address that is allowed is in no blacklist,
  is not blocked, and had a token left.
-/

namespace PxxlEdge

open RustStd TokenBucket

/-! ### Blacklist -/

structure BlacklistEngine where
  domains : Map Text (List IpAddr) := ∅
  cidrBlocks : List IpNet := []

def BlacklistEngine.contains (b : BlacklistEngine) (domainId : Text) (ip : IpAddr) : Bool :=
  b.cidrBlocks.any (fun network => network.contains ip) ||
    (b.domains.lookup domainId).any fun set => set.contains ip

def BlacklistEngine.listed (b : BlacklistEngine) (domainId : Text) (ip : IpAddr) : Bool :=
  (b.domains.lookup domainId).any fun set => set.contains ip

def BlacklistEngine.add (b : BlacklistEngine) (domainId : Text) (ip : IpAddr) : BlacklistEngine :=
  let set := (b.domains.lookup domainId).getD []
  { b with domains := b.domains.insert domainId (set.insert ip) }

def BlacklistEngine.remove (b : BlacklistEngine) (domainId : Text) (ip : IpAddr) :
    BlacklistEngine :=
  match b.domains.lookup domainId with
  | some set => { b with domains := b.domains.insert domainId (set.filter fun ip' => ip' ≠ ip) }
  | none => b

section Blacklist

variable {b : BlacklistEngine} {domainId domainId' : Text} {ip ip' : IpAddr}

lemma BlacklistEngine.contains_eq :
    b.contains domainId ip =
      (b.cidrBlocks.any (fun network => network.contains ip) || b.listed domainId ip) := rfl

@[simp] lemma BlacklistEngine.listed_add :
    (b.add domainId ip).listed domainId' ip' =
      (b.listed domainId' ip' || decide (domainId' = domainId ∧ ip' = ip)) := by
  rw [BlacklistEngine.listed, BlacklistEngine.add]
  by_cases hdomain : domainId' = domainId
  · subst hdomain
    rw [AList.lookup_insert]
    cases hlookup : b.domains.lookup domainId' with
    | none => simp [BlacklistEngine.listed, hlookup]
    | some set => simp [BlacklistEngine.listed, hlookup, Bool.or_comm, Bool.decide_or]
  · rw [AList.lookup_insert_ne hdomain]
    simp [BlacklistEngine.listed, hdomain]

@[simp] lemma BlacklistEngine.listed_remove :
    (b.remove domainId ip).listed domainId' ip' =
      (b.listed domainId' ip' && !decide (domainId' = domainId ∧ ip' = ip)) := by
  rw [BlacklistEngine.remove]
  cases hlookup : b.domains.lookup domainId with
  | none =>
    by_cases hdomain : domainId' = domainId
    · subst hdomain
      simp [BlacklistEngine.listed, hlookup]
    · simp [hdomain]
  | some set =>
    rw [BlacklistEngine.listed]
    by_cases hdomain : domainId' = domainId
    · subst hdomain
      rw [AList.lookup_insert]
      simp [BlacklistEngine.listed, hlookup]
    · rw [AList.lookup_insert_ne hdomain]
      simp [BlacklistEngine.listed, hdomain]

@[simp] lemma BlacklistEngine.cidrBlocks_add : (b.add domainId ip).cidrBlocks = b.cidrBlocks := rfl

@[simp] lemma BlacklistEngine.cidrBlocks_remove :
    (b.remove domainId ip).cidrBlocks = b.cidrBlocks := by
  rw [BlacklistEngine.remove]
  split <;> rfl

end Blacklist

/-! ### Rate limiter -/

structure RateLimitConfig where
  requestsPerSecond : ℕ := 120
  burst : ℕ := 240
deriving DecidableEq, Repr

structure RateLimiter where
  config : RateLimitConfig := {}
  buckets : Map IpAddr Bucket := ∅
  lastEviction : ℕ := 0

def rateBucketTtl : ℕ := 600 * 1000000000

def rateBucketEvictAt : ℕ := 100000

def retainFresh {κ : Type} [DecidableEq κ] (ttl now : ℕ) (buckets : Map κ Bucket) :
    Map κ Bucket :=
  buckets.retain fun _ b => now - b.lastRefill ≤ ttl

def RateLimiter.evictIfDue (l : RateLimiter) (now : ℕ) : RateLimiter :=
  if now - l.lastEviction < 30 * 1000000000 then l
  else { l with lastEviction := now, buckets := retainFresh rateBucketTtl now l.buckets }

def RateLimiter.evictStale (l : RateLimiter) (now : ℕ) : RateLimiter :=
  if l.buckets.entries.length < rateBucketEvictAt then l
  else { l with buckets := retainFresh rateBucketTtl now l.buckets }

def RateLimiter.bucket (l : RateLimiter) (now : ℕ) (ip : IpAddr) : Bucket :=
  (l.buckets.lookup ip).getD ⟨l.config.burst, now⟩

def RateLimiter.allow (l : RateLimiter) (clock : ℕ → ℕ) (ip : IpAddr) :
    SecurityDecision × RateLimiter :=
  let l := (l.evictIfDue (clock 0)).evictStale (clock 1)
  let (taken, bucket) :=
    (l.bucket (clock 2) ip).take l.config.requestsPerSecond l.config.burst (clock 3)
  let l := { l with buckets := l.buckets.insert ip bucket }
  if taken then (.allowed, l)
  else (.rateLimited (1 / (max l.config.requestsPerSecond 1 : ℕ)), l)

def RateLimiter.HasToken (l : RateLimiter) (clock : ℕ → ℕ) (ip : IpAddr) : Prop :=
  let l := (l.evictIfDue (clock 0)).evictStale (clock 1)
  1 ≤ ((l.bucket (clock 2) ip).refill l.config.requestsPerSecond l.config.burst (clock 3)).tokens

lemma RateLimiter.allow_eq_allowed {l : RateLimiter} {clock : ℕ → ℕ} {ip : IpAddr}
    (h : (l.allow clock ip).1 = .allowed) : l.HasToken clock ip := by
  rw [RateLimiter.HasToken]
  by_contra hno
  simp [RateLimiter.allow, Bucket.take, hno] at h

/-! ### The engine -/

structure SecurityEngine where
  blacklist : BlacklistEngine := {}
  rateLimiter : RateLimiter := {}
  adaptiveBlocker : AdaptiveBlocker := {}

def SecurityEngine.check (e : SecurityEngine) (nowMs : ℕ) (clock : ℕ → ℕ) (domainId : Text)
    (ip : IpAddr) : SecurityDecision × SecurityEngine :=
  if e.blacklist.contains domainId ip then (.blocked "ip_blacklisted", e)
  else
    match e.adaptiveBlocker.check nowMs ip with
    | (some decision, adaptiveBlocker) => (decision, { e with adaptiveBlocker })
    | (none, adaptiveBlocker) =>
      let (decision, rateLimiter) := e.rateLimiter.allow clock ip
      (decision, { e with adaptiveBlocker, rateLimiter })

structure SecurityEngine.Allows (e : SecurityEngine) (nowMs : ℕ) (clock : ℕ → ℕ) (domainId : Text)
    (ip : IpAddr) : Prop where
  notBlacklisted : e.blacklist.contains domainId ip = false
  notBlocked : ¬ e.adaptiveBlocker.Blocked nowMs ip
  notLimited : e.rateLimiter.HasToken clock ip

lemma SecurityEngine.check_allowed {e : SecurityEngine} {nowMs : ℕ} {clock : ℕ → ℕ}
    {domainId : Text} {ip : IpAddr} (h : (e.check nowMs clock domainId ip).1 = .allowed) :
    e.Allows nowMs clock domainId ip := by
  rw [SecurityEngine.check] at h
  split at h
  · cases h
  · next hblack =>
    rcases hcheck : e.adaptiveBlocker.check nowMs ip with ⟨decision, a⟩
    have hnone : decision = none := by
      cases decision with
      | none => rfl
      | some d =>
        -- the blocker only ever answers that the address is blocked
        simp only [hcheck] at h
        subst h
        simp only [AdaptiveBlocker.check] at hcheck
        split at hcheck
        · cases hcheck
        · split at hcheck
          · split at hcheck <;> cases hcheck
          · cases hcheck
    subst hnone
    simp only [hcheck] at h
    exact ⟨by simpa using hblack, AdaptiveBlocker.check_eq_none (by rw [hcheck]),
      RateLimiter.allow_eq_allowed h⟩

end PxxlEdge
