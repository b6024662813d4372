import PxxlEdge.Common.Validate
import PxxlEdge.LoadBalancer.Fairness
import PxxlEdge.Proxy.Failover

/-!
What a weighted selection costs a request: the lists that repeat each choice as often as
its weight says.
-/

namespace PxxlEdge

open RustStd Http List

/-! ### The lists of weighted selections -/

def selectEntries (algorithm : LoadBalancingAlgorithm) (upstreams : List Upstream) : ℕ :=
  match algorithm with
  | .weightedRoundRobin =>
    (LoadBalancer.weightedUpstreams (upstreams.filter fun u => u.healthy)).length
  | _ => 0

def splitEntries (rules : DomainRules) (location : GeoLocation) : ℕ :=
  (LoadBalancer.weightedIndices
    ((matchingTrafficSplits rules location).map fun split => split.weight)).length

def repetitionEntries {G : Grammar} (W : World G) (s : EdgeState) (matched : RouteMatch)
    (location : GeoLocation) (remoteIp : Option IpAddr) (headers : HeaderMap) : List ℕ :=
  let ((suffix, upstreams), lb) := selectUpstreamPool s.loadBalancer matched location
  splitEntries matched.route.rules location ::
    match stickyChoice W s.policy matched upstreams headers matched.middleware with
    | (some _, _) => []
    | (none, policy) =>
      let (primary, policy) :=
        PolicyEnforcer.availableUpstreams matched false (W.clock .circuit) 1 policy upstreams
      selectEntries matched.route.algorithm primary ::
        match (lb.select W.hashes (baseRouteKey matched ++ suffix) matched.route.algorithm primary
          remoteIp).1 with
        | some _ => []
        | none =>
          [selectEntries matched.route.algorithm
            (PolicyEnforcer.availableUpstreams matched true (W.clock .circuit)
              (upstreams.length + 1) policy upstreams).1]

def healthyPart (backup : Bool) (pool : List Upstream) : List Upstream :=
  pool.filter fun u => u.backup = backup ∧ u.healthy

lemma healthyPart_cons (backup : Bool) (u : Upstream) (pool : List Upstream) :
    healthyPart backup (u :: pool) =
      if u.backup = backup ∧ u.healthy = true then u :: healthyPart backup pool
      else healthyPart backup pool := by
  rw [healthyPart, filter_cons]
  simp only [decide_eq_true_eq]
  rfl

def totalWeight (upstreams : List Upstream) : ℕ := (upstreams.map fun u => max u.weight 1).sum

lemma totalWeight_le_of_sublist {l l' : List Upstream} (h : l.Sublist l') :
    totalWeight l ≤ totalWeight l' :=
  (h.map _).sum_le_sum fun _ _ => Nat.zero_le _

lemma totalWeight_le {upstreams : List Upstream} {w : ℕ} (hw : 1 ≤ w)
    (h : ∀ u ∈ upstreams, u.weight ≤ w) : totalWeight upstreams ≤ upstreams.length * w := by
  rw [totalWeight, ← smul_eq_mul, ← length_map (f := fun u : Upstream => max u.weight 1)]
  refine sum_le_card_nsmul _ w fun k hk => ?_
  obtain ⟨u, hu, rfl⟩ := mem_map.mp hk
  exact max_le (h u hu) hw

lemma selectEntries_le (algorithm : LoadBalancingAlgorithm) {backup : Bool}
    {pool upstreams : List Upstream} (h : upstreams.Sublist (healthyPart backup pool)) :
    selectEntries algorithm upstreams ≤
      if algorithm = .weightedRoundRobin then totalWeight (healthyPart backup pool) else 0 := by
  cases algorithm with
  | weightedRoundRobin =>
    rw [selectEntries, length_weightedUpstreams, if_pos rfl]
    exact totalWeight_le_of_sublist (filter_sublist.trans h)
  | _ => exact Nat.zero_le _

lemma selectEntries_healthyPart (backup : Bool) (pool : List Upstream) :
    selectEntries .weightedRoundRobin (healthyPart backup pool) =
      totalWeight (healthyPart backup pool) := by
  have hself : (healthyPart backup pool).filter (fun u => u.healthy) = healthyPart backup pool := by
    rw [filter_eq_self]
    intro u hu
    have := (mem_filter.mp hu).2
    simp_all
  rw [selectEntries, hself, length_weightedUpstreams, totalWeight]

section Available

variable (matched : RouteMatch) (backup : Bool) (clock : ℕ → ℕ)

lemma availableUpstreams_sublist (upstreams : List Upstream) (i : ℕ) (policy : PolicyEnforcer) :
    (PolicyEnforcer.availableUpstreams matched backup clock i policy upstreams).1.Sublist
      (healthyPart backup upstreams) := by
  induction upstreams generalizing i policy with
  | nil => exact List.Sublist.refl _
  | cons u upstreams ih =>
    rw [PolicyEnforcer.availableUpstreams, healthyPart_cons]
    by_cases hu : u.backup = backup ∧ u.healthy = true
    · rw [if_pos hu, if_pos hu]
      dsimp only
      split
      · exact (ih _ _).cons u
      · exact (ih _ _).cons_cons u
    · rw [if_neg hu, if_neg hu]
      exact ih _ _

lemma availableUpstreams_of_answer (isOpen : Bool) (P : PolicyEnforcer → Prop)
    (upstreams : List Upstream) (i : ℕ) (policy : PolicyEnforcer) (hpolicy : P policy)
    (hask : ∀ policy, P policy → ∀ j, i ≤ j → j < i + upstreams.length →
      ∀ u ∈ upstreams, u.backup = backup → u.healthy = true →
        (policy.circuitIsOpen (clock j) matched u.url).1 = isOpen ∧
          P (policy.circuitIsOpen (clock j) matched u.url).2) :
    (PolicyEnforcer.availableUpstreams matched backup clock i policy upstreams).1 =
        (if isOpen then [] else healthyPart backup upstreams) ∧
      P (PolicyEnforcer.availableUpstreams matched backup clock i policy upstreams).2 := by
  induction upstreams generalizing i policy with
  | nil => cases isOpen <;> exact ⟨rfl, hpolicy⟩
  | cons u upstreams ih =>
    have hrest : ∀ policy, P policy → _ := fun policy hpolicy =>
      ih (i + 1) policy hpolicy fun policy' hpolicy' j hij hj v hv =>
        hask policy' hpolicy' j (by omega) (by simp only [length_cons]; omega) v
          (mem_cons_of_mem _ hv)
    rw [PolicyEnforcer.availableUpstreams, healthyPart_cons]
    by_cases hu : u.backup = backup ∧ u.healthy = true
    · obtain ⟨hanswer, hkept⟩ := hask policy hpolicy i le_rfl
        (by simp) u mem_cons_self hu.1 hu.2
      obtain ⟨hlist, hkept'⟩ := hrest _ hkept
      rw [if_pos hu, if_pos hu]
      dsimp only
      rw [hanswer, hlist]
      refine ⟨?_, hkept'⟩
      cases isOpen <;> rfl
    · rw [if_neg hu, if_neg hu]
      exact hrest policy hpolicy

def ClosedFrom (t : ℕ) (policy : PolicyEnforcer) : Prop :=
  ∀ key time, (policy.breakerOf key).openUntil = some time → time ≤ t

lemma closedFrom_default (t : ℕ) : ClosedFrom t {} := by
  intro key time h
  simp [PolicyEnforcer.breakerOf, Map.get] at h

lemma availableUpstreams_of_closed {t i : ℕ} (hclock : ∀ j, i ≤ j → t ≤ clock j)
    {policy : PolicyEnforcer} (hpolicy : ClosedFrom t policy) (upstreams : List Upstream) :
    (PolicyEnforcer.availableUpstreams matched backup clock i policy upstreams).1 =
      healthyPart backup upstreams := by
  refine (availableUpstreams_of_answer matched backup clock false (ClosedFrom t) upstreams i policy
    hpolicy ?_).1
  intro policy' hpolicy' j hij _ u _ _ _
  refine ⟨?_, fun key time htime =>
    hpolicy' key time (remembers_circuitIsOpen policy' matched u.url (clock j) key time htime)⟩
  rw [circuitIsOpen_fst rfl, Option.any_eq_false]
  intro time htime
  simpa using (hpolicy' _ time htime).trans (hclock j hij)

lemma exists_openBreakers (matched : RouteMatch) (pool : List Upstream) :
    ∃ policy, ClosedFrom 1 policy ∧ ∀ u ∈ pool, policy.circuitIsOpen 0 matched u.url =
      (true, policy) := by
  set key : Upstream → Text := fun u => circuitKey matched.route.id matched.path.pathPrefix u.url
  suffices h : ∃ policy : PolicyEnforcer, ClosedFrom 1 policy ∧
      ∀ u ∈ pool, policy.circuitBreakers.get (key u) = some ⟨0, some 1⟩ by
    obtain ⟨policy, hclosed, hopen⟩ := h
    refine ⟨policy, hclosed, fun u hu => ?_⟩
    rw [PolicyEnforcer.circuitIsOpen]
    simp only [show policy.circuitBreakers.get (circuitKey matched.route.id
      matched.path.pathPrefix u.url) = _ from hopen u hu]
    rfl
  induction pool with
  | nil => exact ⟨{}, closedFrom_default 1, by simp⟩
  | cons u pool ih =>
    obtain ⟨policy, hclosed, hopen⟩ := ih
    refine ⟨{ policy with circuitBreakers := policy.circuitBreakers.insert (key u) ⟨0, some 1⟩ },
      fun k time htime => ?_, fun v hv => ?_⟩
    · by_cases hk : k = key u
      · rw [PolicyEnforcer.breakerOf, Map.get, hk, AList.lookup_insert] at htime
        exact (Option.some.inj htime).ge
      · rw [PolicyEnforcer.breakerOf, Map.get, AList.lookup_insert_ne hk] at htime
        exact hclosed k time htime
    · by_cases hv' : key v = key u
      · rw [Map.get, hv', AList.lookup_insert]
      · rw [Map.get, AList.lookup_insert_ne hv']
        exact hopen v ((mem_cons.mp hv).resolve_left fun h => hv' (congrArg key h))

end Available

section Entries

variable {G : Grammar} (W : World G) {matched : RouteMatch} {location : GeoLocation}

lemma stickyChoice_no_headers (policy : PolicyEnforcer) (upstreams : List Upstream) :
    stickyChoice W policy matched upstreams ⟨[]⟩ matched.middleware = (none, policy) := by
  have hnone : stickyUpstream G ⟨[]⟩ upstreams matched.middleware.stickySessions = none := by
    rw [stickyUpstream]
    split
    · rfl
    · rfl
  rw [stickyChoice, hnone]

lemma le_of_mem_repetitionEntries {s : EdgeState} {remoteIp : Option IpAddr} {headers : HeaderMap}
    {n bound : ℕ} (hsplits : splitEntries matched.route.rules location ≤ bound)
    (hpool : matched.route.algorithm = .weightedRoundRobin → ∀ backup,
      totalWeight (healthyPart backup
        (selectUpstreamPool s.loadBalancer matched location).1.2) ≤ bound)
    (hn : n ∈ repetitionEntries W s matched location remoteIp headers) : n ≤ bound := by
  have hselect : ∀ backup policy clock i,
      selectEntries matched.route.algorithm (PolicyEnforcer.availableUpstreams matched backup clock
        i policy (selectUpstreamPool s.loadBalancer matched location).1.2).1 ≤ bound := by
    intro backup policy clock i
    refine (selectEntries_le _
      (availableUpstreams_sublist matched backup clock _ i policy)).trans ?_
    split
    · next halgorithm => exact hpool halgorithm backup
    · exact Nat.zero_le _
  rw [repetitionEntries] at hn
  dsimp only at hn
  rcases mem_cons.mp hn with rfl | hn
  · exact hsplits
  split at hn
  · cases hn
  · rcases mem_cons.mp hn with rfl | hn
    · exact hselect false _ _ _
    · split at hn
      · cases hn
      · rw [mem_singleton] at hn
        rw [hn]
        exact hselect true _ _ _

lemma exists_mem_repetitionEntries (matched : RouteMatch) (location : GeoLocation)
    (lb : LoadBalancer) (halgorithm : matched.route.algorithm = .weightedRoundRobin)
    (backup : Bool) :
    ∃ clock s, totalWeight (healthyPart backup (selectUpstreamPool lb matched location).1.2) ∈
      repetitionEntries { W with clock } s matched location none ⟨[]⟩ := by
  set pool := (selectUpstreamPool lb matched location).1.2 with hpool
  cases backup with
  | false =>
    refine ⟨fun _ _ => 0, { table := .new [], loadBalancer := lb }, ?_⟩
    rw [repetitionEntries]
    dsimp only
    rw [stickyChoice_no_headers, ← hpool, halgorithm]
    dsimp only
    rw [availableUpstreams_of_closed matched false (fun _ => 0) (fun _ _ => le_rfl)
      (closedFrom_default 0), selectEntries_healthyPart]
    exact mem_cons_of_mem _ mem_cons_self
  | true =>
    obtain ⟨policy, hclosed, hopen⟩ := exists_openBreakers matched pool
    set clock : ClockSite → ℕ → ℕ := fun _ i => if i ≤ pool.length then 0 else 1 with hclock
    refine ⟨clock, { table := .new [], loadBalancer := lb, policy }, ?_⟩
    obtain ⟨hprimary, hsame⟩ := availableUpstreams_of_answer matched false (clock .circuit) true
      (fun p => p = policy) pool 1 policy rfl (by
        rintro _ rfl j - hj u hu - -
        rw [hclock]
        dsimp only
        rw [if_pos (by omega), hopen u hu]
        exact ⟨rfl, rfl⟩)
    have hlate : ∀ j, pool.length + 1 ≤ j → 1 ≤ clock .circuit j := by
      intro j hj
      rw [hclock]
      dsimp only
      rw [if_neg (by omega)]
    have hbackup := availableUpstreams_of_closed matched true (clock .circuit) hlate hclosed pool
    rw [repetitionEntries]
    dsimp only
    rw [stickyChoice_no_headers, ← hpool]
    dsimp only
    rw [hsame, hprimary, hbackup, halgorithm, selectEntries_healthyPart]
    exact mem_cons_of_mem _ (mem_cons_of_mem _ mem_cons_self)

end Entries

lemma length_pool_le {U : UrlParser} {vars : EnvVars} {route : Route} {p : PathRoute}
    (hp : p ∈ route.paths) (haccepted : route.validateForDynamicControlPlane U vars = .ok ())
    (lb : LoadBalancer) (location : GeoLocation) :
    (selectUpstreamPool lb ⟨route, p⟩ location).1.2.length ≤ maxUpstreamsPerRoute ∧
      ∀ u ∈ (selectUpstreamPool lb ⟨route, p⟩ location).1.2, u ∈ route.allUpstreams := by
  obtain ⟨-, hpaths, hrules, -⟩ := validateForDynamicControlPlane_ok haccepted
  obtain ⟨hlocations, hsplits⟩ := length_le_of_validateRulesForRuntime hrules
  rcases selectUpstreamPool_cases lb ⟨route, p⟩ location with
    ⟨split, hsplit, heq⟩ | ⟨rule, hrule, heq⟩ | heq
  · have hmem : split ∈ route.rules.trafficSplits := mem_of_mem_filter hsplit
    rw [heq]
    refine ⟨hsplits split hmem, fun u hu => ?_⟩
    simp only [Route.allUpstreams, mem_append, mem_flatMap]
    exact .inl (.inr ⟨split, hmem, hu⟩)
  · rw [heq]
    refine ⟨hlocations rule hrule, fun u hu => ?_⟩
    simp only [Route.allUpstreams, mem_append, mem_flatMap]
    exact .inl (.inl (.inr ⟨rule, hrule, hu⟩))
  · rw [heq]
    refine ⟨length_le_of_validatePath (hpaths p hp), fun u hu => ?_⟩
    simp only [Route.allUpstreams, mem_append, mem_flatMap]
    exact .inl (.inl (.inl ⟨p, hp, hu⟩))

/-- **Weighted selections.**  For an accepted route, the lists that the choice of an upstream builds
have at most a million entries, in every state and for every request, exactly if the weights of the
traffic splits that match a location and, under weighted round robin, those of the healthy primary
or backup upstreams of a pool sum up to no more.  As pools are small, weights up to 7812 are safe in
them; the number of traffic splits is not bounded. -/
theorem weighted_selection_bounded_iff {G : Grammar} (W : World G) {U : UrlParser} {vars : EnvVars}
    {route : Route} {p : PathRoute} (hp : p ∈ route.paths)
    (haccepted : route.validateForDynamicControlPlane U vars = .ok ()) :
    ((∀ clock s location remoteIp headers,
        ∀ n ∈ repetitionEntries { W with clock } s ⟨route, p⟩ location remoteIp headers,
          n ≤ 1000000) ↔
      (∀ location, ((matchingTrafficSplits route.rules location).map fun split =>
        max split.weight 1).sum ≤ 1000000) ∧
      (route.algorithm = .weightedRoundRobin → ∀ lb location backup,
        totalWeight (healthyPart backup (selectUpstreamPool lb ⟨route, p⟩ location).1.2) ≤
          1000000)) ∧
    ((∀ u ∈ route.allUpstreams, u.weight ≤ 7812) →
      (route.rules.trafficSplits.map fun split => max split.weight 1).sum ≤ 1000000 →
      ∀ clock s location remoteIp headers,
        ∀ n ∈ repetitionEntries { W with clock } s ⟨route, p⟩ location remoteIp headers,
          n ≤ 1000000) := by
  have hentries : ∀ location, splitEntries route.rules location =
      ((matchingTrafficSplits route.rules location).map fun split => max split.weight 1).sum := by
    intro location
    rw [splitEntries, length_weightedIndices, map_map]
    rfl
  refine ⟨⟨fun h => ⟨fun location => ?_, fun halgorithm lb location backup => ?_⟩, ?_⟩, ?_⟩
  · rw [← hentries]
    exact h (fun _ _ => 0) { table := .new [] } location none ⟨[]⟩ _ mem_cons_self
  · obtain ⟨clock, s, hmem⟩ := exists_mem_repetitionEntries W ⟨route, p⟩ location lb
      halgorithm backup
    exact h clock s location none ⟨[]⟩ _ hmem
  · rintro ⟨hsplits, hpools⟩ clock s location remoteIp headers n hn
    refine le_of_mem_repetitionEntries _ ?_ (fun halgorithm => hpools halgorithm _ location) hn
    rw [hentries]
    exact hsplits location
  · intro hweights hsplits clock s location remoteIp headers n hn
    refine le_of_mem_repetitionEntries _ ?_ (fun _ backup => ?_) hn
    · rw [hentries]
      exact ((filter_sublist.map _).sum_le_sum fun _ _ => Nat.zero_le _).trans hsplits
    · obtain ⟨hlength, hmem⟩ := length_pool_le hp haccepted s.loadBalancer location
      set pool := (selectUpstreamPool s.loadBalancer ⟨route, p⟩ location).1.2
      calc totalWeight (healthyPart backup pool)
          ≤ totalWeight pool := totalWeight_le_of_sublist filter_sublist
        _ ≤ pool.length * 7812 := totalWeight_le (by omega) fun u hu => hweights u (hmem u hu)
        _ ≤ maxUpstreamsPerRoute * 7812 := Nat.mul_le_mul_right 7812 hlength
        _ ≤ 1000000 := by decide

def weightedRoute (weight : ℕ) : Route where
  id := "r"
  domain := "a.io"
  source := .api
  algorithm := .weightedRoundRobin
  paths := [{ pathPrefix := "/", upstreams := [{ url := "http://app:80", weight }] }]
  rules := { trafficSplits := [{ weight, upstreams := [{ url := "http://app:80", weight }] }] }

lemma weightedRoute_accepted (weight : ℕ) :
    (weightedRoute weight).validateForDynamicControlPlane .basic (fun _ => none) = .ok () := by
  rfl

theorem weighted_selection_bounded_light :
    (weightedRoute 3).validateForDynamicControlPlane .basic (fun _ => none) = .ok () ∧
      ∀ p ∈ (weightedRoute 3).paths, ∀ n ∈ repetitionEntries sampleWorld { table := .new [] }
        ⟨weightedRoute 3, p⟩ {} none ⟨[]⟩, n ≤ 1000000 :=
  ⟨weightedRoute_accepted 3, fun _ hp => (weighted_selection_bounded_iff sampleWorld hp
    (weightedRoute_accepted 3)).2 (by simp [weightedRoute, Route.allUpstreams])
      (by simp [weightedRoute]) _ _ _ _ _⟩

lemma repetitionEntries_weightedRoute (weight : ℕ) (p : PathRoute)
    (hp : p ∈ (weightedRoute weight).paths) :
    ∃ rest, repetitionEntries sampleWorld { table := .new [] } ⟨weightedRoute weight, p⟩ {} none
      ⟨[]⟩ = max weight 1 :: max weight 1 :: rest := by
  obtain rfl : p = _ := mem_singleton.mp hp
  set matched : RouteMatch := ⟨weightedRoute weight, _⟩ with hmatched
  have hsplit : splitEntries matched.route.rules {} = max weight 1 := by
    rw [splitEntries, length_weightedIndices]
    rfl
  -- the split and the path have the same pool
  have hpool : (selectUpstreamPool {} matched {}).1.2 = [{ url := "http://app:80", weight }] := by
    rcases selectUpstreamPool_cases {} matched {} with ⟨split, hmem, heq⟩ | ⟨rule, hmem, -⟩ | heq
    · obtain rfl := mem_singleton.mp (mem_of_mem_filter hmem)
      exact heq
    · cases hmem
    · exact heq
  have hweight : totalWeight (healthyPart false [{ url := "http://app:80", weight }]) =
      max weight 1 := rfl
  rw [repetitionEntries]
  dsimp only
  rw [hsplit, stickyChoice_no_headers, hpool]
  dsimp only
  rw [availableUpstreams_of_closed matched false (sampleWorld.clock .circuit)
      (fun _ _ => Nat.zero_le _) (closedFrom_default 0),
    show matched.route.algorithm = .weightedRoundRobin from rfl, selectEntries_healthyPart, hweight]
  exact ⟨_, rfl⟩

/-- A route with the largest weight that an API request can carry is accepted; the first request
for it builds lists of as many entries, for the split and for the pool. -/
theorem heavy_weight_accepted :
    (weightedRoute (2 ^ 32 - 1)).validateForDynamicControlPlane .basic (fun _ => none) = .ok () ∧
      ∀ p ∈ (weightedRoute (2 ^ 32 - 1)).paths, ∃ rest,
        repetitionEntries sampleWorld { table := .new [] } ⟨weightedRoute (2 ^ 32 - 1), p⟩ {} none
          ⟨[]⟩ = (2 ^ 32 - 1) :: (2 ^ 32 - 1) :: rest :=
  ⟨weightedRoute_accepted _, repetitionEntries_weightedRoute (2 ^ 32 - 1)⟩

end PxxlEdge
