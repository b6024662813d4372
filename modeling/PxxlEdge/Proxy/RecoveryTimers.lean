import PxxlEdge.Core.HealthChecks
import PxxlEdge.Proxy.PassiveHealth

/-!
The timers of passive health.  Every failure at or past the threshold marks the upstream
and starts a timer of its own, which marks the upstream healthy again when it is due,
whatever has happened in between.
-/

namespace PxxlEdge

open RustStd Run List

/-! ### Results and timers -/

structure RecoveryTimer where
  update : RouteUpstreamHealth
  dueAt : ℕ
deriving DecidableEq, Repr

structure WatchedState where
  edge : EdgeState
  timers : List RecoveryTimer := []

def HealthResult.recoveryTime (o : HealthResult) : ℕ :=
  max o.config.recoverySeconds 1 * 1000000000

inductive HealthEvent where
  | result (time : ℕ) (o : HealthResult)
  | recovery (time : ℕ) (timer : RecoveryTimer)

namespace HealthEvent

def time : HealthEvent → ℕ
  | result time _ => time
  | recovery time _ => time

def step (s : WatchedState) : HealthEvent → WatchedState
  | result time o =>
    let (undo, edge) := recordPassiveHealth s.edge o.config (normalizeDomain o.host)
      o.matched.path.pathPrefix o.upstream.url o.status o.error
    { edge
      timers := (undo.map fun update => ⟨update, time + o.recoveryTime⟩).toList ++ s.timers }
  | recovery _ timer =>
    { edge := { s.edge with
        table := (Call.setRouteUpstreamHealth timer.update).prog.exec s.edge.table }
      timers := s.timers.erase timer }

def enabled (s : WatchedState) : HealthEvent → Prop
  | result _ _ => True
  | recovery time timer => timer ∈ s.timers ∧ timer.dueAt ≤ time

instance decidableEnabled (s : WatchedState) : (e : HealthEvent) → Decidable (e.enabled s)
  | result _ _ => inferInstanceAs (Decidable True)
  | recovery _ _ => inferInstanceAs (Decidable (_ ∧ _))

end HealthEvent

structure TimedRun (s : WatchedState) (events : List HealthEvent) : Prop where
  enabled : Along HealthEvent.step HealthEvent.enabled s events
  ordered : events.Pairwise fun e e' => e.time ≤ e'.time

/-! ### What an update reaches -/

def InPool (routes : List Route) (domain url : Text) : Prop :=
  ∃ r ∈ routes, r.domain = domain ∧ ∃ u ∈ r.rules.poolUpstreams, u.url = url

def Offers (routes : List Route) (domain pathPrefix url : Text) : Prop :=
  ∃ r ∈ routes, r.domain = domain ∧ ∃ u ∈ r.upstreamsUnder pathPrefix, u.url = url

def Recovers (routes : List Route) (update marked : RouteUpstreamHealth) : Prop :=
  normalizeDomain update.domain = normalizeDomain marked.domain ∧
    update.upstreamUrl = marked.upstreamUrl ∧
    (update.pathPrefix = marked.pathPrefix ∨
      InPool routes (normalizeDomain marked.domain) marked.upstreamUrl)

section Reach

variable {routes routes' : List Route} {domain pathPrefix url : Text}

lemma map_url_poolUpstreams (r : Route) :
    r.eraseHealth.rules.poolUpstreams.map (fun u => u.url) =
      r.rules.poolUpstreams.map fun u => u.url := by
  simp only [Route.eraseHealth, DomainRules.eraseHealth, DomainRules.poolUpstreams,
    flatMap_map, map_append, map_flatMap, map_map, Function.comp_def,
    Upstream.eraseHealth]

lemma map_url_upstreamsUnder (r : Route) (pathPrefix : Text) :
    (r.eraseHealth.upstreamsUnder pathPrefix).map (fun u => u.url) =
      (r.upstreamsUnder pathPrefix).map fun u => u.url := by
  rw [Route.upstreamsUnder, Route.upstreamsUnder, map_append, map_append,
    map_url_poolUpstreams]
  congr 1
  simp only [Route.eraseHealth, filter_map, flatMap_map, map_flatMap,
    PathRoute.eraseHealth, map_map, Function.comp_def, Upstream.eraseHealth]

lemma exists_url_of_sameDefinitions (domain url : Text) (urls : Route → List Text)
    (hurls : ∀ r : Route, urls r.eraseHealth = urls r) (hsame : SameDefinitions routes' routes)
    (h : ∃ r ∈ routes, r.domain = domain ∧ url ∈ urls r) :
    ∃ r ∈ routes', r.domain = domain ∧ url ∈ urls r := by
  obtain ⟨r, hr, hdomain, hurl⟩ := h
  have hmem : r.eraseHealth ∈ routes'.map Route.eraseHealth := by
    rw [show routes'.map Route.eraseHealth = _ from hsame]
    exact mem_map_of_mem hr
  obtain ⟨r', hr', heq⟩ := mem_map.mp hmem
  refine ⟨r', hr', ?_, ?_⟩
  · show r'.eraseHealth.domain = domain
    rw [heq]
    exact hdomain
  · rwa [← hurls r', heq, hurls]

lemma InPool.of_sameDefinitions (h : InPool routes domain url)
    (hsame : SameDefinitions routes' routes) : InPool routes' domain url := by
  have := exists_url_of_sameDefinitions domain url
    (fun r => r.rules.poolUpstreams.map fun u => u.url) map_url_poolUpstreams hsame
  simp only [mem_map] at this
  exact this h

lemma Offers.of_sameDefinitions (h : Offers routes domain pathPrefix url)
    (hsame : SameDefinitions routes' routes) : Offers routes' domain pathPrefix url := by
  have := exists_url_of_sameDefinitions domain url
    (fun r => (r.upstreamsUnder pathPrefix).map fun u => u.url)
    (fun r => map_url_upstreamsUnder r pathPrefix) hsame
  simp only [mem_map] at this
  exact this h

lemma Recovers.of_sameDefinitions {update marked : RouteUpstreamHealth}
    (h : Recovers routes update marked) (hsame : SameDefinitions routes' routes) :
    Recovers routes' update marked :=
  ⟨h.1, h.2.1, h.2.2.imp_right fun hpool => hpool.of_sameDefinitions hsame⟩

lemma marked_of_not_recovers {update marked : RouteUpstreamHealth}
    (h : Marked (normalizeDomain marked.domain) marked.pathPrefix marked.upstreamUrl routes)
    (hnot : ¬ Recovers routes update marked) :
    Marked (normalizeDomain marked.domain) marked.pathPrefix marked.upstreamUrl
      (withRouteUpstreamHealth update routes) := by
  intro r hr hdomain v hv hurl
  obtain ⟨r₀, hr₀, rfl⟩ := mem_map.mp hr
  split at hv
  · next hne =>
    rw [if_pos hne] at hdomain
    exact h r₀ hr₀ hdomain v hv hurl
  next heq =>
  rw [if_neg heq] at hdomain
  have hdomain₀ : r₀.domain = normalizeDomain marked.domain := hdomain
  have hsame : normalizeDomain update.domain = normalizeDomain marked.domain :=
    (not_not.mp heq).symm.trans hdomain₀
  -- an upstream of another URL is left as it is
  have hkeep : ∀ u : Upstream, (if u.url = update.upstreamUrl then
      { u with healthy := update.healthy } else u).url = marked.upstreamUrl →
        update.upstreamUrl ≠ marked.upstreamUrl →
          u ∈ r₀.upstreamsUnder marked.pathPrefix →
            (if u.url = update.upstreamUrl then { u with healthy := update.healthy }
              else u).healthy = false := by
    intro u hu hne hmem
    by_cases hupdate : u.url = update.upstreamUrl
    · rw [if_pos hupdate] at hu
      exact absurd (hupdate.symm.trans hu) hne
    · rw [if_neg hupdate] at hu ⊢
      exact h r₀ hr₀ hdomain₀ u hmem hu
  rcases mem_append.mp hv with hv | hv
  · obtain ⟨p', hp', hv⟩ := mem_flatMap.mp hv
    obtain ⟨hp', hpre⟩ := mem_filter.mp hp'
    obtain ⟨p, hp, rfl⟩ := mem_map.mp hp'
    have hunder : ∀ u ∈ p.upstreams, p.pathPrefix = marked.pathPrefix →
        u ∈ r₀.upstreamsUnder marked.pathPrefix := fun u hu hp' =>
      mem_append_left _ (mem_flatMap.mpr
        ⟨p, mem_filter.mpr ⟨hp, beq_iff_eq.mpr hp'⟩, hu⟩)
    split at hv
    · next hupdate =>
      rw [if_pos hupdate] at hpre
      obtain ⟨u, hu, rfl⟩ := mem_map.mp hv
      refine hkeep u hurl (fun hurl' => hnot ⟨hsame, hurl', .inl ?_⟩)
        (hunder u hu (beq_iff_eq.mp hpre))
      exact (beq_iff_eq.mp hupdate).symm.trans (beq_iff_eq.mp hpre)
    · next hupdate =>
      rw [if_neg hupdate] at hpre
      exact h r₀ hr₀ hdomain₀ v (hunder v hv (beq_iff_eq.mp hpre)) hurl
  · rw [poolUpstreams_mapUpstreams] at hv
    obtain ⟨u, hu, rfl⟩ := mem_map.mp hv
    refine hkeep u hurl (fun hurl' => hnot ⟨hsame, hurl', .inr ?_⟩) (mem_append_right _ hu)
    refine ⟨r₀, hr₀, hdomain₀, u, hu, ?_⟩
    by_cases hupdate : u.url = update.upstreamUrl
    · exact hupdate.trans hurl'
    · rwa [if_neg hupdate] at hurl

lemma Recovers.not_marked {update marked : RouteUpstreamHealth} (h : Recovers routes update marked)
    (hhealthy : update.healthy = true)
    (hoffers : Offers routes (normalizeDomain marked.domain) marked.pathPrefix
      marked.upstreamUrl) :
    ¬ Marked (normalizeDomain marked.domain) marked.pathPrefix marked.upstreamUrl
      (withRouteUpstreamHealth update routes) := by
  intro hmarked
  obtain ⟨hdomain, hurl, hreach⟩ := h
  have hset := healthIs_withRouteUpstreamHealth update routes
  have hsame := sameDefinitions_withRouteUpstreamHealth update routes
  rw [hdomain, hurl, hhealthy] at hset
  rcases hreach with hpre | hpool
  · rw [hpre] at hset
    obtain ⟨r, hr, hr_domain, u, hu, hu_url⟩ := hoffers.of_sameDefinitions hsame
    have htrue := hset r hr hr_domain u hu hu_url
    rw [hmarked r hr hr_domain u hu hu_url] at htrue
    cases htrue
  · obtain ⟨r, hr, hr_domain, u, hu, hu_url⟩ := hpool.of_sameDefinitions hsame
    have htrue := hset r hr hr_domain u (mem_append_right _ hu) hu_url
    rw [hmarked r hr hr_domain u (mem_append_right _ hu) hu_url] at htrue
    cases htrue

end Reach

/-! ### Steps -/

section Steps

variable {s : WatchedState}

lemma edge_step_result (time : ℕ) (o : HealthResult) :
    (HealthEvent.step s (.result time o)).edge = o.record s.edge :=
  rfl

lemma timers_step_result (time : ℕ) (o : HealthResult) :
    (o.marks s.edge ∧ (HealthEvent.step s (.result time o)).timers =
        ⟨{ o.update with healthy := true }, time + o.recoveryTime⟩ :: s.timers) ∨
      (¬ o.marks s.edge ∧ (HealthEvent.step s (.result time o)).timers = s.timers) := by
  have htimers : (HealthEvent.step s (.result time o)).timers =
      ((recordPassiveHealth s.edge o.config (normalizeDomain o.host) o.matched.path.pathPrefix
        o.upstream.url o.status o.error).1.map fun update =>
          (⟨update, time + o.recoveryTime⟩ : RecoveryTimer)).toList ++ s.timers := rfl
  rw [htimers]
  cases henabled : o.config.enabled with
  | false =>
    refine .inr ⟨fun hmarks => ?_, by rw [recordPassiveHealth, if_pos (by simp [henabled])]; rfl⟩
    cases henabled.symm.trans hmarks.1
  | true =>
    rw [recordPassiveHealth_of_enabled henabled]
    dsimp only
    by_cases hreached : o.failed = true ∧ max o.config.failureThreshold 1 ≤ o.count s.edge
    · rw [if_pos hreached]
      exact .inl ⟨⟨henabled, hreached⟩, rfl⟩
    · rw [if_neg hreached]
      exact .inr ⟨fun hmarks => hreached hmarks.2, rfl⟩

lemma table_step_recovery (time : ℕ) (timer : RecoveryTimer) :
    (HealthEvent.step s (.recovery time timer)).edge.table =
      if timer.update.ignored then s.edge.table
      else .new (withRouteUpstreamHealth timer.update s.edge.table.routes) :=
  exec_setRouteUpstreamHealth timer.update s.edge.table

lemma sameDefinitions_step (e : HealthEvent)
    (hnodup : (s.edge.table.routes.map dedupeKey).Nodup) :
    SameDefinitions (HealthEvent.step s e).edge.table.routes s.edge.table.routes := by
  cases e with
  | result time o => exact (record_keeps o hnodup).1
  | recovery time timer =>
    rw [table_step_recovery]
    split
    · rfl
    · rw [routes_new_withRouteUpstreamHealth _ hnodup]
      exact sameDefinitions_withRouteUpstreamHealth _ _

structure TimersRecover (routes : List Route) (s : WatchedState) : Prop where
  same : SameDefinitions s.edge.table.routes routes
  recovers : ∀ timer ∈ s.timers, timer.update.healthy = true

lemma TimersRecover.step {routes : List Route} (hnodup : (routes.map dedupeKey).Nodup)
    (h : TimersRecover routes s) (e : HealthEvent) :
    TimersRecover routes (HealthEvent.step s e) where
  same := (sameDefinitions_step e (h.same.nodup hnodup)).trans h.same
  recovers := by
    intro timer htimer
    cases e with
    | result time o =>
      rcases timers_step_result time o (s := s) with ⟨-, htimers⟩ | ⟨-, htimers⟩
      · rw [htimers] at htimer
        rcases mem_cons.mp htimer with rfl | htimer
        · rfl
        · exact h.recovers timer htimer
      · rw [htimers] at htimer
        exact h.recovers timer htimer
    | recovery time fired => exact h.recovers timer (mem_of_mem_erase htimer)

end Steps

/-! ### Until the recovery time is over -/

section Waiting

variable {routes : List Route} {s : WatchedState} {o : HealthResult} {t : ℕ}

structure Waiting (routes : List Route) (marked : RouteUpstreamHealth) (limit : ℕ)
    (s : WatchedState) : Prop extends TimersRecover routes s where
  isMarked : Marked (normalizeDomain marked.domain) marked.pathPrefix marked.upstreamUrl
    s.edge.table.routes
  due : ∀ timer ∈ s.timers, Recovers routes timer.update marked → limit ≤ timer.dueAt

lemma waiting_of_marks (hnodup : (routes.map dedupeKey).Nodup) (hs : TimersRecover routes s)
    (hmarks : o.marks s.edge) (hignored : o.update.ignored = false)
    (hdue : ∀ timer ∈ s.timers, Recovers routes timer.update o.update →
      t + o.recoveryTime ≤ timer.dueAt) :
    Waiting routes o.update (t + o.recoveryTime) (HealthEvent.step s (.result t o)) where
  toTimersRecover := hs.step hnodup _
  isMarked := by
    rw [edge_step_result, table_record_of_marks hmarks hignored,
      routes_new_withRouteUpstreamHealth _ (hs.same.nodup hnodup)]
    exact marked_withRouteUpstreamHealth rfl
  due := by
    intro timer htimer hrecovers
    rcases timers_step_result t o (s := s) with ⟨-, htimers⟩ | ⟨hnot, -⟩
    · rw [htimers] at htimer
      rcases mem_cons.mp htimer with rfl | htimer
      · exact le_rfl
      · exact hdue timer htimer hrecovers
    · exact absurd hmarks hnot

structure During (routes : List Route) (o : HealthResult) (t : ℕ) (e : HealthEvent) : Prop where
  before_recovery : e.time < t + o.recoveryTime
  same_time : ∀ t' o', e = .result t' o' → Recovers routes o'.update o.update →
    o'.recoveryTime = o.recoveryTime

lemma Waiting.step (hnodup : (routes.map dedupeKey).Nodup)
    (h : Waiting routes o.update (t + o.recoveryTime) s) {e : HealthEvent}
    (henabled : e.enabled s) (hafter : t ≤ e.time) (hduring : During routes o t e) :
    Waiting routes o.update (t + o.recoveryTime) (HealthEvent.step s e) where
  toTimersRecover := h.toTimersRecover.step hnodup e
  isMarked := by
    have hnodup' := h.same.nodup hnodup
    cases e with
    | result time o' => exact (record_keeps o' hnodup').2 _ _ _ h.isMarked
    | recovery time timer =>
      rw [table_step_recovery]
      split
      · exact h.isMarked
      · rw [routes_new_withRouteUpstreamHealth _ hnodup']
        refine marked_of_not_recovers h.isMarked fun hrecovers => ?_
        -- a timer that reaches the upstream is not due yet
        have hlate := h.due timer henabled.1 (hrecovers.of_sameDefinitions h.same.symm)
        have htime : time < t + o.recoveryTime := hduring.before_recovery
        have hdue : timer.dueAt ≤ time := henabled.2
        omega
  due := by
    intro timer htimer hrecovers
    cases e with
    | result time o' =>
      have hafter : t ≤ time := hafter
      rcases timers_step_result time o' (s := s) with ⟨-, htimers⟩ | ⟨-, htimers⟩
      · rw [htimers] at htimer
        rcases mem_cons.mp htimer with rfl | htimer
        · show t + o.recoveryTime ≤ time + o'.recoveryTime
          have := hduring.same_time time o' rfl hrecovers
          omega
        · exact h.due timer htimer hrecovers
      · rw [htimers] at htimer
        exact h.due timer htimer hrecovers
    | recovery time fired => exact h.due timer (mem_of_mem_erase htimer) hrecovers

end Waiting

/-- **Recovery.**  A failure that marks its upstream keeps it out for the recovery time, whatever
results and timers follow, exactly if no timer of an earlier failure that reaches the upstream is
pending and due before. -/
theorem marked_until_recovery_iff (s : EdgeState) (hnodup : (s.table.routes.map dedupeKey).Nodup)
    (before : List HealthEvent) (t : ℕ) (o : HealthResult)
    (hrun : TimedRun ⟨s, []⟩ (before ++ [.result t o]))
    (hmarks : o.marks (run HealthEvent.step ⟨s, []⟩ before).edge)
    (hignored : o.update.ignored = false)
    (hoffers : Offers s.table.routes (normalizeDomain o.update.domain) o.update.pathPrefix
      o.update.upstreamUrl) :
    (∀ after, TimedRun ⟨s, []⟩ (before ++ .result t o :: after) →
        (∀ e ∈ after, During s.table.routes o t e) →
        Marked (normalizeDomain o.update.domain) o.update.pathPrefix o.update.upstreamUrl
          (run HealthEvent.step ⟨s, []⟩ (before ++ .result t o :: after)).edge.table.routes) ↔
      ∀ timer ∈ (run HealthEvent.step ⟨s, []⟩ before).timers,
        Recovers s.table.routes timer.update o.update → t + o.recoveryTime ≤ timer.dueAt := by
  set s₁ := run HealthEvent.step ⟨s, []⟩ before with hs₁
  have hstart : TimersRecover s.table.routes ⟨s, []⟩ := ⟨rfl, by simp⟩
  have hwatched : TimersRecover s.table.routes s₁ :=
    run_invariant (TimersRecover s.table.routes) (fun _ e h => h.step hnodup e) hstart before
  constructor
  · intro h timer htimer hrecovers
    by_contra hearly
    -- the timer goes off as soon as it is due
    set e : HealthEvent := .recovery (max timer.dueAt t) timer with he
    have hafter : before ++ .result t o :: [e] = (before ++ [.result t o]) ++ [e] := by simp
    have hs₂ : run HealthEvent.step ⟨s, []⟩ (before ++ [.result t o]) =
        HealthEvent.step s₁ (.result t o) := by
      rw [run_append, run_cons, run_nil]
    have htimer' : timer ∈ (HealthEvent.step s₁ (.result t o)).timers := by
      rcases timers_step_result t o (s := s₁) with ⟨-, htimers⟩ | ⟨-, htimers⟩
      · rw [htimers]
        exact mem_cons_of_mem _ htimer
      · rwa [htimers]
    have htimed : TimedRun ⟨s, []⟩ (before ++ .result t o :: [e]) := by
      rw [hafter]
      refine ⟨along_concat.mpr ⟨hrun.enabled, ?_⟩, ?_⟩
      · rw [hs₂]
        exact ⟨htimer', le_max_left _ _⟩
      · refine pairwise_append.mpr ⟨hrun.ordered, pairwise_singleton _ _, ?_⟩
        intro a ha b hb
        obtain rfl := mem_singleton.mp hb
        refine le_trans ?_ (le_max_right timer.dueAt t)
        rcases mem_append.mp ha with ha | ha
        · exact (pairwise_append.mp hrun.ordered).2.2 a ha _ (mem_singleton_self _)
        · obtain rfl := mem_singleton.mp ha
          exact le_rfl
    have hpos : 0 < o.recoveryTime := by
      rw [HealthResult.recoveryTime]
      positivity
    have hmarked := h [e] htimed (by
      intro e' he'
      obtain rfl := mem_singleton.mp he'
      refine ⟨?_, fun t' o' hresult => nomatch hresult⟩
      show max timer.dueAt t < t + o.recoveryTime
      omega)
    -- its update is not ignored, and recovers the upstream
    have hnot_ignored : timer.update.ignored = false := by
      rw [RouteUpstreamHealth.ignored, hrecovers.1, hrecovers.2.1]
      exact hignored
    have hwatched' := hwatched.step hnodup (.result t o)
    rw [hafter, run_append, hs₂, run_cons, run_nil, he, table_step_recovery, hnot_ignored,
      if_neg Bool.false_ne_true,
      routes_new_withRouteUpstreamHealth _ (hwatched'.same.nodup hnodup)] at hmarked
    exact (hrecovers.of_sameDefinitions hwatched'.same).not_marked
      (hwatched.recovers timer htimer) (hoffers.of_sameDefinitions hwatched'.same) hmarked
  · intro hdue after hrun' hduring
    have hwaiting := waiting_of_marks hnodup hwatched hmarks hignored hdue
    rw [run_append, run_cons]
    have henabled : Along HealthEvent.step HealthEvent.enabled
        (HealthEvent.step s₁ (.result t o)) after := (along_append.mp hrun'.enabled).2.2
    have hlater : ∀ e ∈ after, t ≤ e.time ∧ During s.table.routes o t e := by
      intro e he
      have hordered := (pairwise_append.mp hrun'.ordered).2.1
      exact ⟨(pairwise_cons.mp hordered).1 e he, hduring e he⟩
    exact ((henabled.and (along_of_forall hlater)).invariant
      (Waiting s.table.routes o.update (t + o.recoveryTime))
      (fun _ e hw hcond => hw.step hnodup hcond.1 hcond.2.1 hcond.2.2) hwaiting).isMarked

/-- Two failures, of which the second marks the upstream, and a third one a second later. -/
theorem marked_until_recovery_third_failure :
    TimedRun ⟨sampleState (watchedRules false) [], []⟩
        [.result 0 (serverError false "a.io"), .result 0 (serverError false "a.io"),
          .result 1000000000 (serverError false "a.io")] ∧
      Marked "a.io" "/" "http://app:80"
        (run HealthEvent.step ⟨sampleState (watchedRules false) [], []⟩
          [.result 0 (serverError false "a.io"), .result 0 (serverError false "a.io"),
            .result 1000000000 (serverError false "a.io")]).edge.table.routes := by
  have hrun : TimedRun ⟨sampleState (watchedRules false) [], []⟩
      [.result 0 (serverError false "a.io"), .result 0 (serverError false "a.io"),
        .result 1000000000 (serverError false "a.io")] :=
    ⟨⟨trivial, trivial, trivial, trivial⟩, by simp [HealthEvent.time]⟩
  have hnone : (run HealthEvent.step ⟨sampleState (watchedRules false) [], []⟩
      [.result 0 (serverError false "a.io")]).timers = [] := by
    decide
  have hmarked := (marked_until_recovery_iff (sampleState (watchedRules false) [])
    (by decide) [.result 0 (serverError false "a.io")] 0 (serverError false "a.io")
    ⟨⟨trivial, trivial, trivial⟩, by simp [HealthEvent.time]⟩
    ⟨by decide, by decide, by decide⟩ (by decide)
    ⟨_, mem_cons_self, by decide, _, mem_cons_self, by decide⟩).mpr
    (by rw [hnone]; exact fun _ h => absurd h not_mem_nil)
    [.result 1000000000 (serverError false "a.io")] hrun ?_
  · exact ⟨hrun, hmarked⟩
  · intro e he
    obtain rfl := mem_singleton.mp he
    refine ⟨by decide, fun t' o' hresult _ => ?_⟩
    cases hresult
    rfl

def firstTimer : RecoveryTimer where
  update := ⟨"a.io", "/", "http://app:80", true⟩
  dueAt := 30000000000

/-- A failure twenty seconds after the first mark marks the upstream again; ten seconds later, and
not thirty, the timer of the first mark makes it healthy. -/
theorem early_recovery :
    (serverError false "a.io").recoveryTime = 30000000000 ∧
      TimedRun ⟨sampleState (watchedRules false) [], []⟩
        [.result 0 (serverError false "a.io"), .result 0 (serverError false "a.io"),
          .result 20000000000 (serverError false "a.io"), .recovery 30000000000 firstTimer] ∧
      (serverError false "a.io").marks
        (run HealthEvent.step ⟨sampleState (watchedRules false) [], []⟩
          [.result 0 (serverError false "a.io"), .result 0 (serverError false "a.io")]).edge ∧
      offeredHealth (run HealthEvent.step ⟨sampleState (watchedRules false) [], []⟩
        [.result 0 (serverError false "a.io"), .result 0 (serverError false "a.io"),
          .result 20000000000 (serverError false "a.io")]).edge "a.io" "/" = some [false] ∧
      offeredHealth (run HealthEvent.step ⟨sampleState (watchedRules false) [], []⟩
        [.result 0 (serverError false "a.io"), .result 0 (serverError false "a.io"),
          .result 20000000000 (serverError false "a.io"),
          .recovery 30000000000 firstTimer]).edge "a.io" "/" = some [true] := by
  refine ⟨by decide, ⟨by decide, by simp [HealthEvent.time]⟩,
    ⟨by decide, by decide, by decide⟩, by decide,
    by decide⟩

end PxxlEdge
