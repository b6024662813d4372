import PxxlEdge.Proxy.Handle
import PxxlEdge.Lib.KeyedBuckets

/-!
The rate limit of a domain over whole runs of requests.
-/

namespace PxxlEdge

open RustStd Http TokenBucket Meter Run

/-! ### One request -/

section Evaluate

variable {G : Grammar} (policy : PolicyEnforcer) (W : World G) (req : Request G)
  (rules : DomainRules) (ctx : ProxyRequestContext)

def reachesRateLimit : Bool :=
  (firstMet (accessChecks req rules ctx)).isNone &&
    (policy.wafRejectionReason W req rules ctx).1.isNone &&
    (firstMet (headerChecks req rules)).isNone

def passesRateLimit (limit : DomainRateLimit) : Bool :=
  reachesRateLimit policy W req rules ctx &&
    ((policy.wafRejectionReason W req rules ctx).2.retryAfter limit (W.clock .rateLimit)
      ctx.domain ctx.path ctx.remoteIp).1.isNone

variable {policy W req rules ctx}

lemma retryAfter_congr (bots : Map BotScoreKey BotScoreBucket) (limit : DomainRateLimit)
    (clock : ℕ → ℕ) (domain path : Text) (ip : Option IpAddr) :
    { policy with botScoreBuckets := bots }.retryAfter limit clock domain path ip =
      ((policy.retryAfter limit clock domain path ip).1,
        { (policy.retryAfter limit clock domain path ip).2 with botScoreBuckets := bots }) := by
  rw [PolicyEnforcer.retryAfter, PolicyEnforcer.retryAfter]
  split
  · rfl
  · show (if ((policy.rateBucket limit clock _).take _ _ _).1 then _ else _) = _
    dsimp only
    split <;> rfl

lemma rateBuckets_evaluate :
    (policy.evaluate W req rules ctx).2.rateBuckets =
      match rules.rateLimit with
      | some limit =>
        if reachesRateLimit policy W req rules ctx then
          (policy.retryAfter limit (W.clock .rateLimit) ctx.domain ctx.path
            ctx.remoteIp).2.rateBuckets
        else policy.rateBuckets
      | none => policy.rateBuckets := by
  obtain ⟨bots, hbots⟩ := wafRejectionReason_frame W policy req rules ctx
  rw [reachesRateLimit, PolicyEnforcer.evaluate]
  cases firstMet (accessChecks req rules ctx) with
  | some rejection => cases rules.rateLimit <;> rfl
  | none =>
    rcases hwaf : policy.wafRejectionReason W req rules ctx with ⟨reason, policy'⟩
    rw [hwaf] at hbots
    obtain rfl : policy' = { policy with botScoreBuckets := bots } := hbots
    cases reason with
    | some reason => cases rules.rateLimit <;> rfl
    | none =>
      cases firstMet (headerChecks req rules) with
      | some rejection => cases rules.rateLimit <;> rfl
      | none =>
        cases rules.rateLimit with
        | none => rfl
        | some limit =>
          dsimp only
          rw [retryAfter_congr]
          dsimp only
          split <;> next heq => rw [← (Prod.mk.inj heq).2]; rfl

lemma retryAfter_eq {limit : DomainRateLimit} (henabled : limit.enabled = true)
    (hfew : policy.rateBuckets.entries.length < policyRateBucketEvictAt) (clock : ℕ → ℕ)
    (domain path : Text) (ip : Option IpAddr) :
    ∃ taken bucket,
      ((policy.rateBuckets.lookup (.new domain path ip limit.scope)).getD
          ⟨limit.burstTokens, clock 1⟩).take (effectiveRatePerSecond limit) limit.burstTokens
            (clock 2) = (taken, bucket) ∧
        (policy.retryAfter limit clock domain path ip).2.rateBuckets =
          policy.rateBuckets.insert (.new domain path ip limit.scope) bucket ∧
        (policy.retryAfter limit clock domain path ip).1.isNone = taken := by
  have hlive : policy.liveBuckets clock = policy.rateBuckets := by
    rw [PolicyEnforcer.liveBuckets, if_pos hfew]
  have hbucket : policy.rateBucket limit clock (.new domain path ip limit.scope) =
      (policy.rateBuckets.lookup (.new domain path ip limit.scope)).getD
        ⟨limit.burstTokens, clock 1⟩ := by
    rw [PolicyEnforcer.rateBucket, hlive]
  refine ⟨_, _, rfl, ?_, ?_⟩
  · rw [PolicyEnforcer.retryAfter, if_neg (by simp [henabled])]
    dsimp only
    rw [hbucket, hlive]
    split <;> rfl
  · rw [PolicyEnforcer.retryAfter, if_neg (by simp [henabled])]
    dsimp only
    rw [hbucket, hlive]
    split
    · next htaken => exact htaken.symm
    · next htaken => exact (Bool.eq_false_of_not_eq_true htaken).symm

end Evaluate

/-! ### Arrivals -/

def SameRoute (r route : Route) : Prop :=
  r.source = route.source ∧ r.domain = route.domain ∧ r.id = route.id ∧
    r.rules.rateLimit = route.rules.rateLimit

instance (r route : Route) : Decidable (SameRoute r route) :=
  inferInstanceAs (Decidable (_ ∧ _ ∧ _ ∧ _))

structure Arrival (G : Grammar) where
  table : RouteTable
  world : World G
  conn : Connection
  req : Request G
  host : Text
  path : Text

namespace Arrival

variable {G : Grammar} (arrival : Arrival G)

def context : ProxyRequestContext :=
  targetContext arrival.world arrival.conn arrival.req arrival.host arrival.path

def checked : Option RouteMatch :=
  (find arrival.table arrival.host arrival.path).filter fun m =>
    !redirectsToApex m.route.rules arrival.context.domain m.route.domain

def step (policy : PolicyEnforcer) (arrival : Arrival G) : PolicyEnforcer :=
  match arrival.checked with
  | none => policy
  | some m => (policy.evaluate arrival.world arrival.req m.route.rules arrival.context).2

def time : ℕ := arrival.world.clock .rateLimit 2

def limit : Option DomainRateLimit :=
  (arrival.checked.bind fun m => m.route.rules.rateLimit).filter fun limit => limit.enabled

def rateKey : Option PolicyRateKey :=
  arrival.limit.map fun limit =>
    .new arrival.context.domain arrival.context.path arrival.context.remoteIp limit.scope

def passes (route : Route) (policy : PolicyEnforcer) (arrival : Arrival G) : Bool :=
  arrival.checked.any fun m =>
    decide (SameRoute m.route route) && m.route.rules.rateLimit.any fun limit =>
      passesRateLimit policy arrival.world arrival.req m.route.rules arrival.context limit

structure KeepsTo (route : Route) (domain : Text) (limit : DomainRateLimit) : Prop where
  oneDomain : ∀ m, arrival.checked = some m → SameRoute m.route route →
    normalizeDomain arrival.host = domain
  oneLimit : ∀ limit', arrival.limit = some limit' → limit'.scope = .perDomain →
    normalizeDomain arrival.host = domain →
      effectiveRatePerSecond limit' = effectiveRatePerSecond limit ∧
        limit'.burstTokens = limit.burstTokens

end Arrival

def domainKey (domain : Text) : PolicyRateKey := ⟨domain, .perDomain, none, none⟩

lemma new_eq_domainKey {domain domain' path : Text} {ip : Option IpAddr} {scope : RateLimitScope} :
    PolicyRateKey.new domain' path ip scope = domainKey domain ↔
      domain' = domain ∧ scope = .perDomain := by
  cases scope <;> simp [PolicyRateKey.new, domainKey]

section Arrivals

variable {G : Grammar} {arrival : Arrival G} {policy : PolicyEnforcer} {route : Route}
  {domain : Text} {limit : DomainRateLimit}

lemma effectiveRatePerSecond_nonneg (limit : DomainRateLimit) :
    0 ≤ effectiveRatePerSecond limit := by
  rw [effectiveRatePerSecond]
  split <;> positivity

lemma burstTokens_nonneg (limit : DomainRateLimit) : 0 ≤ limit.burstTokens := by
  rw [DomainRateLimit.burstTokens]
  positivity

lemma rateBuckets_step_of_none (h : arrival.limit = none) :
    (arrival.step policy).rateBuckets = policy.rateBuckets := by
  rw [Arrival.step]
  cases hchecked : arrival.checked with
  | none => rfl
  | some m =>
    dsimp only
    rw [Arrival.limit, hchecked, Option.bind_some] at h
    rw [rateBuckets_evaluate]
    cases hlimit : m.route.rules.rateLimit with
    | none => rfl
    | some limit =>
      have hdisabled : ¬ limit.enabled = true := by
        rw [hlimit] at h
        simpa using h
      dsimp only
      rw [PolicyEnforcer.retryAfter, if_pos hdisabled, ite_self]

variable (route) in
lemma exists_step_eq (hlimit : arrival.limit = some limit)
    (hfew : policy.rateBuckets.entries.length < policyRateBucketEvictAt) :
    (arrival.step policy).rateBuckets = policy.rateBuckets ∧ arrival.passes route policy = false ∨
      ∃ taken bucket,
        ((policy.rateBuckets.lookup (.new arrival.context.domain arrival.context.path
            arrival.context.remoteIp limit.scope)).getD
          ⟨limit.burstTokens, arrival.world.clock .rateLimit 1⟩).take
            (effectiveRatePerSecond limit) limit.burstTokens arrival.time = (taken, bucket) ∧
        (arrival.step policy).rateBuckets = policy.rateBuckets.insert
          (.new arrival.context.domain arrival.context.path arrival.context.remoteIp limit.scope)
          bucket ∧
        (arrival.passes route policy = true → taken = true) := by
  obtain ⟨hbound, henabled⟩ := Option.filter_eq_some_iff.mp hlimit
  obtain ⟨m, hchecked, hrules⟩ := Option.bind_eq_some_iff.mp hbound
  rw [Arrival.step, Arrival.passes, hchecked]
  dsimp only
  rw [Option.any_some, rateBuckets_evaluate, hrules, Option.any_some, passesRateLimit]
  dsimp only
  cases reachesRateLimit policy arrival.world arrival.req m.route.rules arrival.context with
  | false => exact .inl ⟨rfl, by simp⟩
  | true =>
    obtain ⟨taken, bucket, htake, hbuckets, hanswer⟩ := retryAfter_eq henabled hfew
      (arrival.world.clock .rateLimit) arrival.context.domain arrival.context.path
      arrival.context.remoteIp
    refine .inr ⟨taken, bucket, htake, hbuckets, ?_⟩
    obtain ⟨bots, hbots⟩ := wafRejectionReason_frame arrival.world policy arrival.req
      m.route.rules arrival.context
    rw [hbots, retryAfter_congr, hanswer]
    intro h
    simp only [Bool.true_and, Bool.and_eq_true] at h
    exact h.2

lemma limit_of_passes (hroute : route.rules.rateLimit = some limit)
    (henabled : limit.enabled = true) (hkeeps : arrival.KeepsTo route domain limit)
    (h : arrival.passes route policy = true) :
    arrival.limit = some limit ∧ arrival.context.domain = domain := by
  rw [Arrival.passes, Option.any_eq_true] at h
  obtain ⟨m, hchecked, hm⟩ := h
  rw [Bool.and_eq_true, decide_eq_true_eq] at hm
  refine ⟨?_, hkeeps.oneDomain m hchecked hm.1⟩
  rw [Arrival.limit, hchecked, Option.bind_some, hm.1.2.2.2, hroute, Option.filter_some,
    if_pos henabled]

structure RateState (domain : Text) (limit : DomainRateLimit) (keys : Finset PolicyRateKey)
    (policy : PolicyEnforcer) : Prop where
  bounded : BoundedAt limit.burstTokens policy.rateBuckets (domainKey domain)
  known : ∀ key ∈ policy.rateBuckets, key ∈ keys

lemma RateState.congr {keys : Finset PolicyRateKey} {policy' : PolicyEnforcer}
    (h : RateState domain limit keys policy) (heq : policy'.rateBuckets = policy.rateBuckets) :
    RateState domain limit keys policy' :=
  ⟨heq ▸ h.bounded, heq ▸ h.known⟩

lemma RateState.step {keys : Finset PolicyRateKey} (h : RateState domain limit keys policy)
    (hkeys : keys.card < policyRateBucketEvictAt)
    (hroute : route.rules.rateLimit = some limit) (henabled : limit.enabled = true)
    (hscope : limit.scope = .perDomain) (hkeeps : arrival.KeepsTo route domain limit)
    (hkey : ∀ key, arrival.rateKey = some key → key ∈ keys) :
    RateState domain limit keys (arrival.step policy) ∧
      levelOf (effectiveRatePerSecond limit) limit.burstTokens arrival.time
          (arrival.step policy).rateBuckets (domainKey domain) +
            (if arrival.passes route policy then 1 else 0) ≤
        levelOf (effectiveRatePerSecond limit) limit.burstTokens arrival.time
          policy.rateBuckets (domainKey domain) := by
  have hpasses : arrival.passes route policy = true →
      arrival.limit = some limit ∧ arrival.context.domain = domain :=
    limit_of_passes hroute henabled hkeeps
  cases hlimit : arrival.limit with
  | none =>
    have hnot : ¬ arrival.passes route policy = true := by
      intro hp
      rw [hlimit] at hpasses
      cases (hpasses hp).1
    have hsame : (arrival.step policy).rateBuckets = policy.rateBuckets :=
      rateBuckets_step_of_none hlimit
    refine ⟨h.congr hsame, ?_⟩
    rw [hsame, if_neg hnot, add_zero]
  | some limit' =>
    have hfew := (Map.length_le_card h.known).trans_lt hkeys
    rcases exists_step_eq route hlimit hfew with
      ⟨hsame, hnot⟩ | ⟨taken, bucket, htake, hbuckets, htaken⟩
    · refine ⟨h.congr hsame, ?_⟩
      rw [hsame, hnot, if_neg (by simp), add_zero]
    · set key : PolicyRateKey := .new arrival.context.domain arrival.context.path
        arrival.context.remoteIp limit'.scope with hkeydef
      have hknown : ∀ k ∈ (arrival.step policy).rateBuckets, k ∈ keys := by
        intro k hk
        rw [hbuckets, AList.mem_insert] at hk
        rcases hk with rfl | hk
        · exact hkey _ (by rw [Arrival.rateKey, hlimit, Option.map_some])
        · exact h.known k hk
      by_cases hdomain : key = domainKey domain
      · -- the bucket of the domain, under the route's own rate and burst
        obtain ⟨hhost, hscope'⟩ := new_eq_domainKey.mp hdomain
        obtain ⟨hrate, hburst⟩ := hkeeps.oneLimit limit' hlimit hscope' hhost
        rw [hrate, hburst, hdomain] at htake
        have hrate0 := effectiveRatePerSecond_nonneg limit
        have hburst0 := burstTokens_nonneg limit
        have hpaid := levelOf_take hrate0 hburst0 h.bounded _ htake
        have hgranted : (if arrival.passes route policy then (1 : ℚ) else 0) ≤
            if taken then 1 else 0 := by
          split
          · next hp => rw [if_pos (htaken hp)]
          · split <;> norm_num
        refine ⟨⟨?_, hknown⟩, ?_⟩
        · rw [hbuckets, hdomain]
          exact boundedAt_take hrate0 hburst0 h.bounded _ htake
        · rw [hbuckets, hdomain, ← hpaid]
          gcongr
      · -- some other bucket; a request for the route would have used the domain's
        have hnot : ¬ arrival.passes route policy = true := by
          intro hp
          obtain ⟨hlimit', hhost⟩ := hpasses hp
          obtain rfl : limit' = limit := Option.some.inj (hlimit.symm.trans hlimit')
          exact hdomain (new_eq_domainKey.mpr ⟨hhost, hscope⟩)
        have hne : domainKey domain ≠ key := Ne.symm hdomain
        refine ⟨⟨?_, hknown⟩, ?_⟩
        · rw [hbuckets]
          exact h.bounded.insert_of_ne hne bucket
        · rw [hbuckets, levelOf_insert_of_ne hne, if_neg hnot, add_zero]

end Arrivals

/-! ### Runs -/

def passedBetween {G : Grammar} (route : Route) (a b : ℚ) (policy : PolicyEnforcer)
    (arrivals : List (Arrival G)) : ℕ :=
  grantedWhere Arrival.step (Arrival.passes route)
    (fun arrival => decide (a ≤ seconds arrival.time ∧ seconds arrival.time ≤ b)) policy arrivals

def rateKeys {G : Grammar} (arrivals : List (Arrival G)) : Finset PolicyRateKey :=
  (arrivals.filterMap Arrival.rateKey).toFinset

/-- **The rate limit of a domain.**  In every run of requests, a route with a limit per
domain lets pass at most a burst and its rate between two times, if its requests all
come under one domain and every limit per domain under it is the same. -/
theorem domain_rate_le {G : Grammar} (route : Route) (limit : DomainRateLimit)
    (hroute : route.rules.rateLimit = some limit) (henabled : limit.enabled = true)
    (hscope : limit.scope = .perDomain) (hburst : 1 ≤ limit.burst) (domain : Text)
    (arrivals : List (Arrival G)) (hclock : (arrivals.map Arrival.time).Pairwise (· ≤ ·))
    (hkeys : (rateKeys arrivals).card < policyRateBucketEvictAt)
    (hkeeps : ∀ arrival ∈ arrivals, arrival.KeepsTo route domain limit) (a b : ℚ) (hab : a ≤ b) :
    (passedBetween route a b {} arrivals : ℚ) ≤
      limit.burst + effectiveRatePerSecond limit * (b - a) := by
  have hmetered : Metered (effectiveRatePerSecond limit) limit.burstTokens Arrival.step
      Arrival.time (Arrival.passes route)
      (fun _ (arrival : Arrival G) => arrival.KeepsTo route domain limit ∧
        ∀ key, arrival.rateKey = some key → key ∈ rateKeys arrivals)
      (RateState domain limit (rateKeys arrivals))
      (fun policy t => levelOf (effectiveRatePerSecond limit) limit.burstTokens t
        policy.rateBuckets (domainKey domain)) :=
    { rate_nonneg := effectiveRatePerSecond_nonneg limit
      inv := fun policy arrival h hside =>
        (h.step hkeys hroute henabled hscope hside.1 hside.2).1
      nonneg := fun policy t h =>
        levelOf_nonneg (effectiveRatePerSecond_nonneg limit) (burstTokens_nonneg limit) h.bounded t
      le_burst := fun policy t _ => levelOf_le_burst _ _ _ _
      grows := fun policy t t' _ ht =>
        levelOf_le_add (effectiveRatePerSecond_nonneg limit) _ _ ht
      pays := fun policy arrival h hside =>
        (h.step hkeys hroute henabled hscope hside.1 hside.2).2 }
  have hside : ∀ arrival ∈ arrivals, arrival.KeepsTo route domain limit ∧
      ∀ key, arrival.rateKey = some key → key ∈ rateKeys arrivals := by
    intro arrival harrival
    refine ⟨hkeeps arrival harrival, fun key hkey => ?_⟩
    exact List.mem_toFinset.mpr (List.mem_filterMap.mpr ⟨arrival, harrival, hkey⟩)
  have hnew : RateState domain limit (rateKeys arrivals) {} :=
    ⟨boundedAt_empty, fun key hkey => by simp at hkey⟩
  have hbound := hmetered.granted_le (along_of_forall hside) hnew hclock hab
  have htokens : limit.burstTokens = limit.burst := by
    rw [DomainRateLimit.burstTokens, max_eq_left hburst]
  rwa [htokens] at hbound

/-! ### A route with an alias -/

def onePerSecond : DomainRateLimit :=
  { requestsPerSecond := some 1, burst := 1, scope := .perDomain }

def aliasedRules : DomainRules := { wwwAlias := true, rateLimit := some onePerSecond }

def aliasedRoute : Route :=
  { id := "r", domain := "a.io", source := .static, rules := aliasedRules }

def arrivalUnder (host : Text) : Arrival .http1 where
  table := (sampleState aliasedRules []).table
  world := sampleWorld
  conn := sampleConnection
  req := rootRequest []
  host := host
  path := "/"

/-- Two requests under the domain itself. -/
theorem domain_rate_le_two_requests :
    (passedBetween aliasedRoute 0 0 {} [arrivalUnder "a.io", arrivalUnder "A.io"] : ℚ) ≤
      onePerSecond.burst + effectiveRatePerSecond onePerSecond * (0 - 0) := by
  refine domain_rate_le aliasedRoute onePerSecond rfl rfl rfl le_rfl "a.io"
    [arrivalUnder "a.io", arrivalUnder "A.io"] (by decide) (by decide) ?_ 0 0 le_rfl
  have hkeeps : ∀ host : Text, normalizeDomain host = "a.io".toList →
      (arrivalUnder host).limit = some onePerSecond →
        (arrivalUnder host).KeepsTo aliasedRoute "a.io" onePerSecond := by
    intro host hhost hlimit
    refine ⟨fun _ _ _ => hhost, fun limit' hlimit' _ _ => ?_⟩
    obtain rfl : onePerSecond = limit' := Option.some.inj (hlimit.symm.trans hlimit')
    exact ⟨rfl, rfl⟩
  intro arrival harrival
  rcases List.mem_pair.mp harrival with rfl | rfl
  · exact hkeeps _ (by decide) (by decide)
  · exact hkeeps _ (by decide) (by decide)

/-- The domain and its alias have a bucket each: two requests pass at the same time, where
the burst is one. -/
theorem alias_passes_twice :
    ¬ (passedBetween aliasedRoute 0 0 {} [arrivalUnder "a.io", arrivalUnder "www.a.io"] : ℚ) ≤
      onePerSecond.burst + effectiveRatePerSecond onePerSecond * (0 - 0) := by
  have htwo : passedBetween aliasedRoute 0 0 {}
      [arrivalUnder "a.io", arrivalUnder "www.a.io"] = 2 := by
    decide +kernel
  rw [htwo, sub_self, mul_zero, add_zero]
  norm_num [onePerSecond]

end PxxlEdge
