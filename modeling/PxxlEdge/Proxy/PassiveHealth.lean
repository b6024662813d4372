import PxxlEdge.Proxy.Handle
import PxxlEdge.Core.Health
import PxxlEdge.Lib.History

/-!
Passive health over whole runs of results.
-/

namespace PxxlEdge

open RustStd Http Run History Handlers List

/-! ### Results -/

structure HealthResult where
  host : Text
  matched : RouteMatch
  upstream : Upstream
  status : ℕ
  error : Bool

namespace HealthResult

variable (o : HealthResult)

def config : PassiveHealthConfig := o.matched.middleware.passiveHealth

def failed : Bool :=
  o.error || o.config.failureStatuses.any (· == o.status) || isServerError o.status

def update : RouteUpstreamHealth :=
  ⟨normalizeDomain o.host, o.matched.path.pathPrefix, o.upstream.url, false⟩

def record (s : EdgeState) (o : HealthResult) : EdgeState :=
  (recordPassiveHealth s o.config (normalizeDomain o.host) o.matched.path.pathPrefix
    o.upstream.url o.status o.error).2

end HealthResult

def RouteUpstreamHealth.key (update : RouteUpstreamHealth) : Text :=
  routeHealthKey update.domain update.pathPrefix update.upstreamUrl

def failuresOf (s : EdgeState) (key : Text) : ℕ := (s.policy.passiveHealth.get key).getD 0

def HealthResult.count (s : EdgeState) (o : HealthResult) : ℕ :=
  if o.failed then min (failuresOf s o.update.key + 1) (2 ^ 32 - 1) else 0

def HealthResult.marks (s : EdgeState) (o : HealthResult) : Prop :=
  o.config.enabled = true ∧ o.failed = true ∧ max o.config.failureThreshold 1 ≤ o.count s

section Record

variable {s : EdgeState} {o : HealthResult} {key : Text}

lemma record_of_disabled (h : o.config.enabled = false) : o.record s = s := by
  rw [HealthResult.record, recordPassiveHealth, if_pos (by simp [h])]

lemma recordPassiveHealth_of_enabled (h : o.config.enabled = true) :
    recordPassiveHealth s o.config (normalizeDomain o.host) o.matched.path.pathPrefix
        o.upstream.url o.status o.error =
      let counted := { s with
        policy := { s.policy with
          passiveHealth := s.policy.passiveHealth.insert o.update.key (o.count s) } }
      if o.failed = true ∧ max o.config.failureThreshold 1 ≤ o.count s then
        (some { o.update with healthy := true },
          if o.update.ignored then counted
          else { counted with table := .new (withRouteUpstreamHealth o.update s.table.routes) })
      else (none, counted) := by
  rw [recordPassiveHealth, if_neg (by simp [h])]
  rfl

lemma record_of_enabled (h : o.config.enabled = true) :
    (o.record s).policy.passiveHealth = s.policy.passiveHealth.insert o.update.key (o.count s) ∧
      (o.record s).table =
        if (o.failed = true ∧ max o.config.failureThreshold 1 ≤ o.count s) ∧
            o.update.ignored = false then
          .new (withRouteUpstreamHealth o.update s.table.routes)
        else s.table := by
  rw [HealthResult.record, recordPassiveHealth_of_enabled h]
  dsimp only
  by_cases hmarks : o.failed = true ∧ max o.config.failureThreshold 1 ≤ o.count s
  · rw [if_pos hmarks]
    cases o.update.ignored with
    | true => exact ⟨rfl, (if_neg fun h => nomatch h.2).symm⟩
    | false => exact ⟨rfl, (if_pos ⟨hmarks, rfl⟩).symm⟩
  · rw [if_neg hmarks, if_neg fun h => hmarks h.1]
    exact ⟨rfl, rfl⟩

lemma failuresOf_record :
    failuresOf (o.record s) key =
      if o.config.enabled = true ∧ key = o.update.key then o.count s else failuresOf s key := by
  cases henabled : o.config.enabled with
  | false => rw [record_of_disabled henabled, if_neg (by simp)]
  | true =>
    rw [failuresOf, (record_of_enabled henabled).1, Map.get]
    by_cases hkey : key = o.update.key
    · rw [if_pos ⟨rfl, hkey⟩, hkey, AList.lookup_insert, Option.getD_some]
    · rw [if_neg fun h => hkey h.2, AList.lookup_insert_ne hkey, failuresOf, Map.get]

lemma table_record_of_marks (h : o.marks s) (hignored : o.update.ignored = false) :
    (o.record s).table = .new (withRouteUpstreamHealth o.update s.table.routes) := by
  rw [(record_of_enabled h.1).2, if_pos ⟨h.2, hignored⟩]

lemma table_record_cases (s : EdgeState) (o : HealthResult) :
    (o.record s).table = s.table ∨
      (o.record s).table = .new (withRouteUpstreamHealth o.update s.table.routes) := by
  cases henabled : o.config.enabled with
  | false => exact .inl (by rw [record_of_disabled henabled])
  | true =>
    rw [(record_of_enabled henabled).2]
    split
    · exact .inr rfl
    · exact .inl rfl

end Record

/-! ### The handler -/

section Handler

variable {s s' : EdgeState}

def SameHealth (s s' : EdgeState) : Prop :=
  s.table = s'.table ∧ s.policy.passiveHealth = s'.policy.passiveHealth

lemma SameHealth.trans {s'' : EdgeState} (h : SameHealth s s') (h' : SameHealth s' s'') :
    SameHealth s s'' :=
  ⟨h.1.trans h'.1, h.2.trans h'.2⟩

lemma SameHealth.record (h : SameHealth s s') (o : HealthResult) :
    SameHealth (o.record s) (o.record s') := by
  have hcount : o.count s = o.count s' := by
    rw [HealthResult.count, HealthResult.count, failuresOf, failuresOf, h.2]
  cases henabled : o.config.enabled with
  | false => rwa [record_of_disabled henabled, record_of_disabled henabled]
  | true =>
    obtain ⟨hcounts, htable⟩ := record_of_enabled henabled (s := s)
    obtain ⟨hcounts', htable'⟩ := record_of_enabled henabled (s := s')
    exact ⟨by rw [htable, htable', hcount, h.1], by rw [hcounts, hcounts', hcount, h.2]⟩

lemma sameHealth_releaseInFlight (s : EdgeState) (key : Option Text) (lb : LoadBalancer) :
    SameHealth { s with policy := s.policy.releaseInFlight key, loadBalancer := lb } s := by
  refine ⟨rfl, ?_⟩
  show (s.policy.releaseInFlight key).passiveHealth = s.policy.passiveHealth
  cases key with
  | none => rfl
  | some key =>
    rw [PolicyEnforcer.releaseInFlight]
    split <;> rfl

lemma sameHealth_recordCircuitResult (s : EdgeState) (now : ℕ) (config : CircuitBreakerConfig)
    (matched : RouteMatch) (upstream : Text) (status : ℕ) (error : Bool) :
    SameHealth
      { s with policy := s.policy.recordCircuitResult now config matched upstream status error }
      s := by
  refine ⟨rfl, ?_⟩
  show (s.policy.recordCircuitResult now config matched upstream status error).passiveHealth = _
  rw [PolicyEnforcer.recordCircuitResult]
  dsimp only
  repeat' split
  all_goals rfl

/-- For the health, the end of a request is a recorded result. -/
lemma concludeForward_record {G : Grammar} (W : World G) (ctx : ProxyRequestContext)
    (o : HealthResult) (routeKey : Text) (inFlightKey : Option Text) (s : EdgeState) :
    SameHealth
      (concludeForward W { ctx with domain := normalizeDomain o.host } o.matched routeKey o.upstream
        inFlightKey o.status o.error s).state (o.record s) := by
  set released : EdgeState := { s with
    policy := s.policy.releaseInFlight inFlightKey
    loadBalancer := s.loadBalancer.endRequest routeKey o.upstream.url W.elapsedMicros }
    with hreleased
  have hsame : SameHealth released s := sameHealth_releaseInFlight s inFlightKey _
  unfold concludeForward
  simp only [Bind.bind, Handler.bind, Handler.update]
  rw [← hreleased]
  rcases hrecord : recordPassiveHealth released o.matched.middleware.passiveHealth
    (normalizeDomain o.host) o.matched.path.pathPrefix o.upstream.url o.status o.error
    with ⟨timer, s₂⟩
  obtain rfl : o.record released = s₂ := by rw [HealthResult.record, HealthResult.config, hrecord]
  have hcircuit := (sameHealth_recordCircuitResult (o.record released) (W.clock .circuitResult 0)
    o.matched.middleware.circuitBreaker o.matched o.upstream.url o.status o.error).trans
      (hsame.record o)
  cases timer with
  | some update => exact hcircuit
  | none => exact hcircuit

end Handler

/-! ### Runs -/

section Runs

variable {s : EdgeState} {results : List HealthResult} {update : RouteUpstreamHealth}

def resultsFor (update : RouteUpstreamHealth) (results : List HealthResult) : List HealthResult :=
  results.filter fun o => o.update = update

def OwnKey (update : RouteUpstreamHealth) (results : List HealthResult) : Prop :=
  ∀ o ∈ results, o.update.key = update.key → o.update = update

lemma failures_ge (henabled : ∀ o ∈ results, o.update = update → o.config.enabled = true)
    (hkey : OwnKey update results) :
    min (trailing HealthResult.failed (resultsFor update results)) (2 ^ 32 - 1) ≤
      failuresOf (run HealthResult.record s results) update.key := by
  -- on the last result
  induction results using List.reverseRecOn with
  | nil => simp [resultsFor]
  | append_singleton results o ih =>
    have ih := ih (fun o' ho' => henabled o' (by simp [ho']))
      fun o' ho' => hkey o' (by simp [ho'])
    rw [run_append, run_cons, run_nil, failuresOf_record, resultsFor, filter_append,
      ← resultsFor]
    by_cases ho : o.update = update
    · rw [if_pos ⟨henabled o (by simp) ho, by rw [ho]⟩,
        filter_cons_of_pos (by simpa using ho), filter_nil, HealthResult.count, ho]
      cases hfailed : o.failed with
      | true =>
        rw [trailing_concat_of_pos hfailed, if_pos rfl]
        omega
      | false =>
        rw [trailing_concat_of_neg hfailed]
        exact Nat.zero_le _
    · have hne : ¬ (o.config.enabled = true ∧ update.key = o.update.key) := fun h =>
        ho (hkey o (by simp) h.2.symm)
      rw [if_neg hne, filter_cons_of_neg (by simpa using ho), filter_nil,
        append_nil]
      exact ih

lemma record_keeps (o : HealthResult) (hnodup : (s.table.routes.map dedupeKey).Nodup) :
    SameDefinitions (o.record s).table.routes s.table.routes ∧
      ∀ domain pathPrefix url, Marked domain pathPrefix url s.table.routes →
        Marked domain pathPrefix url (o.record s).table.routes := by
  rcases table_record_cases s o with h | h
  · rw [h]
    exact ⟨rfl, fun _ _ _ h => h⟩
  · rw [h, routes_new_withRouteUpstreamHealth _ hnodup]
    exact ⟨sameDefinitions_withRouteUpstreamHealth _ _,
      fun _ _ _ hmarked => hmarked.withRouteUpstreamHealth rfl⟩

lemma run_record (results : List HealthResult) (hnodup : (s.table.routes.map dedupeKey).Nodup) :
    SameDefinitions (run HealthResult.record s results).table.routes s.table.routes ∧
      ∀ domain pathPrefix url, Marked domain pathPrefix url s.table.routes →
        Marked domain pathPrefix url (run HealthResult.record s results).table.routes := by
  induction results generalizing s with
  | nil => exact ⟨rfl, fun _ _ _ h => h⟩
  | cons o results ih =>
    obtain ⟨hsame, hmarked⟩ := record_keeps o hnodup
    obtain ⟨hsame', hmarked'⟩ := ih (hsame.nodup hnodup)
    rw [run_cons]
    exact ⟨hsame'.trans hsame, fun d p u h => hmarked' d p u (hmarked d p u h)⟩

theorem marked_after_failures {before : List HealthResult} {o : HealthResult}
    (after : List HealthResult)
    (hnodup : (s.table.routes.map dedupeKey).Nodup) (hignored : o.update.ignored = false)
    (henabled : ∀ o' ∈ before ++ [o], o'.update = o.update → o'.config.enabled = true)
    (hkey : OwnKey o.update (before ++ [o])) (hrange : o.config.failureThreshold < 2 ^ 32)
    (hfailed : max o.config.failureThreshold 1 ≤
      trailing HealthResult.failed (resultsFor o.update (before ++ [o]))) :
    Marked (normalizeDomain o.update.domain) o.update.pathPrefix o.update.upstreamUrl
      (run HealthResult.record s (before ++ o :: after)).table.routes := by
  have hbefore := run_record before hnodup
  set s₁ := run HealthResult.record s before with hs₁
  have hnodup₁ : (s₁.table.routes.map dedupeKey).Nodup := hbefore.1.nodup hnodup
  have hmarks : o.marks s₁ := by
    have hcount := failures_ge (s := s) henabled hkey
    rw [run_append, run_cons, run_nil, ← hs₁, failuresOf_record,
      if_pos ⟨henabled o (by simp) rfl, rfl⟩] at hcount
    have hcount' : max o.config.failureThreshold 1 ≤ o.count s₁ := by omega
    refine ⟨henabled o (by simp) rfl, ?_, hcount'⟩
    -- a result that has not failed leaves the counter at zero
    by_contra hok
    rw [HealthResult.count, if_neg hok] at hcount'
    omega
  have hmarked : Marked (normalizeDomain o.update.domain) o.update.pathPrefix
      o.update.upstreamUrl (o.record s₁).table.routes := by
    rw [table_record_of_marks hmarks hignored, routes_new_withRouteUpstreamHealth _ hnodup₁]
    exact marked_withRouteUpstreamHealth rfl
  have hnodup₂ : ((o.record s₁).table.routes.map dedupeKey).Nodup :=
    (record_keeps o hnodup₁).1.nodup hnodup₁
  rw [run_append, run_cons, ← hs₁]
  exact (run_record after hnodup₂).2 _ _ _ hmarked

/-- **Passive health.**  After as many failures of an upstream in a row as the threshold asks,
recorded for requests under a host and the prefix that the lookup gives a path, the lookup
offers the upstream as unhealthy under that host and path; the routes of the host itself must
serve the path, under one prefix. -/
theorem unhealthy_after_failures (routes : List Route) (s : EdgeState)
    (htable : s.table = .new routes) (host path url : Text) (m : RouteMatch)
    (hfind : find s.table host path = some m) (before after : List HealthResult) (o : HealthResult)
    (ho : o.update = ⟨normalizeDomain host, m.path.pathPrefix, url, false⟩)
    (henabled : ∀ o' ∈ before ++ [o], o'.update = o.update → o'.config.enabled = true)
    (hrange : o.config.failureThreshold < 2 ^ 32)
    (hfailed : max o.config.failureThreshold 1 ≤
      trailing HealthResult.failed (resultsFor o.update (before ++ [o])))
    (hurl : url.trim ≠ []) (hkey : OwnKey o.update (before ++ [o]))
    (hnormal : normalizeDomain (normalizeDomain host) = normalizeDomain host)
    (hown : OwnPrefix s.table host path) :
    ∃ m', find (run HealthResult.record s (before ++ o :: after)).table host path = some m' ∧
      m'.eraseHealth = m.eraseHealth ∧
      ∀ u ∈ m'.offered, u.url = url → u.healthy = false := by
  have hnodup : (s.table.routes.map dedupeKey).Nodup := by
    rw [htable]
    exact nodup_dedupeRoutes routes
  have hhost : normalizeDomain host ≠ [] := by
    intro hempty
    rw [find, if_pos hempty] at hfind
    cases hfind
  have hignored : o.update.ignored = false := by
    rw [ho, RouteUpstreamHealth.ignored]
    simp [hnormal, hhost, hurl]
  have hsame := (run_record (before ++ o :: after) hnodup).1
  have hmarked := marked_after_failures after hnodup hignored henabled hkey hrange hfailed
  have hlookup := find_eraseHealth hsame host path
  rw [hfind, Option.map_some] at hlookup
  obtain ⟨m', hm', herase⟩ := Option.map_eq_some_iff.mp hlookup
  refine ⟨m', hm', herase, ?_⟩
  have hpath : m'.path.pathPrefix = m.path.pathPrefix :=
    show m'.eraseHealth.path.pathPrefix = m.eraseHealth.path.pathPrefix by rw [herase]
  rw [ho, hnormal] at hmarked
  exact unhealthy_of_marked (hown.of_sameDefinitions hsame) hm' (hpath ▸ hmarked)

end Runs

/-! ### A route with passive health -/

def watchedRules (wwwAlias : Bool) : DomainRules :=
  { wwwAlias, passiveHealth := { enabled := true, failureThreshold := 2 } }

def serverError (wwwAlias : Bool) (host : Text) : HealthResult where
  host := host
  matched := sampleMatch (watchedRules wwwAlias) []
  upstream := { url := "http://app:80" }
  status := 500
  error := false

/-- Two failures under the domain itself. -/
theorem unhealthy_after_failures_own_domain :
    ∃ m', find (run HealthResult.record (sampleState (watchedRules false) [])
        [serverError false "a.io", serverError false "a.io"]).table "a.io" "/" = some m' ∧
      m'.eraseHealth = (sampleMatch (watchedRules false) []).eraseHealth ∧
      ∀ u ∈ m'.offered, u.url = "http://app:80".toList → u.healthy = false := by
  refine unhealthy_after_failures _ (sampleState (watchedRules false) []) rfl "a.io" "/"
    "http://app:80" (sampleMatch (watchedRules false) []) (Option.some_get _).symm
    [serverError false "a.io"] [] (serverError false "a.io") (by decide) ?_
    (by decide) (by decide) (by decide) ?_ (by decide)
    ⟨⟨_, mem_cons_self, by decide, _, mem_cons_self, by decide⟩, ?_⟩
  · intro o ho _
    obtain rfl : o = serverError false "a.io" := by simpa using ho
    rfl
  · intro o ho _
    obtain rfl : o = serverError false "a.io" := by simpa using ho
    rfl
  · intro r hr _ r' hr' _ p hp p' hp' _ _ _
    obtain rfl := mem_singleton.mp hr
    obtain rfl := mem_singleton.mp hr'
    rw [mem_singleton.mp hp, mem_singleton.mp hp']

def offeredHealth (s : EdgeState) (host path : Text) : Option (List Bool) :=
  (find s.table host path).map fun m => m.offered.map fun u => u.healthy

/-- Under the alias the upstream is offered as healthy after any number of failures, of which
the second should have marked it. -/
theorem alias_stays_healthy :
    find (sampleState (watchedRules true) []).table "www.a.io" "/" =
        some (serverError true "www.a.io").matched ∧
      (serverError true "www.a.io").upstream ∈ (serverError true "www.a.io").matched.offered ∧
      (serverError true "www.a.io").config = { enabled := true, failureThreshold := 2 } ∧
      (serverError true "www.a.io").failed = true ∧
      offeredHealth (run HealthResult.record (sampleState (watchedRules true) [])
        [serverError true "www.a.io", serverError true "www.a.io"]) "www.a.io" "/" =
          some [true] := by
  refine ⟨by rfl, by decide, by decide, by decide, by decide⟩

end PxxlEdge
