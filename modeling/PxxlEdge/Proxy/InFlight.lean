import PxxlEdge.Lib.Counts
import PxxlEdge.LoadBalancer.Calls
import PxxlEdge.Proxy.Handle

/-!
Requests in flight.  A handler raises the counter of its limit and the one of its
upstream, awaits the answer of the upstream and lowers both.  Handlers run side by
side, and a handler that is dropped while it awaits the answer lowers neither.
-/

namespace PxxlEdge

open RustStd Http Run

/-! ### Handlers that hold something -/

inductive FlightPhase where
  | acquired | forwarding | released
deriving DecidableEq

structure Flight where
  /-- what `try_acquire_in_flight` has returned -/
  limitKey : Option Text
  routeKey : Text
  upstream : Text
  phase : FlightPhase := .acquired
deriving DecidableEq

namespace Flight

def limit (f : Flight) : Option Text := if f.phase = .released then none else f.limitKey

def balancer (f : Flight) : Option Text :=
  if f.phase = .acquired then none else some (LoadBalancer.upstreamKey f.routeKey f.upstream)

end Flight

structure Traffic where
  shared : EdgeState
  flights : Multiset Flight := 0

def KeepsCounters (s s' : EdgeState) : Prop :=
  s'.policy.inFlightLimits = s.policy.inFlightLimits ∧
    (s.loadBalancer.inFlight.entries.length ≤ maxLoadBalancerKeys →
      s'.loadBalancer.inFlight = s.loadBalancer.inFlight)

structure OtherStep where
  act : EdgeState → EdgeState
  keeps : ∀ s, KeepsCounters s (act s)

inductive TrafficAction where
  | acquire (matched : RouteMatch) (routeKey : Text) (upstream : Upstream)
  | start (f : Flight)
  | release (f : Flight)
  | finish (f : Flight) (latencyMicros : ℕ)
  | drop (f : Flight)
  | other (step : OtherStep)

namespace Traffic

def step (t : Traffic) : TrafficAction → Traffic
  | .acquire matched routeKey upstream =>
    match t.shared.policy.tryAcquireInFlight matched.middleware.inFlightLimit matched
        upstream with
    | (.ok limitKey, policy) =>
      ⟨{ t.shared with policy }, { limitKey, routeKey, upstream := upstream.url } ::ₘ t.flights⟩
    | (.error _, policy) => ⟨{ t.shared with policy }, t.flights⟩
  | .start f =>
    if f ∈ t.flights ∧ f.phase = .acquired then
      ⟨{ t.shared with
          loadBalancer := t.shared.loadBalancer.beginRequest f.routeKey f.upstream },
        { f with phase := .forwarding } ::ₘ t.flights.erase f⟩
    else t
  | .release f =>
    if f ∈ t.flights ∧ f.phase = .forwarding then
      ⟨{ t.shared with policy := t.shared.policy.releaseInFlight f.limitKey },
        { f with phase := .released } ::ₘ t.flights.erase f⟩
    else t
  | .finish f latencyMicros =>
    if f ∈ t.flights ∧ f.phase = .released then
      ⟨{ t.shared with
          loadBalancer :=
            t.shared.loadBalancer.endRequest f.routeKey f.upstream latencyMicros },
        t.flights.erase f⟩
    else t
  | .drop f =>
    if f ∈ t.flights ∧ f.phase = .forwarding then ⟨t.shared, t.flights.erase f⟩ else t
  | .other step => ⟨step.act t.shared, t.flights⟩

def init (table : RouteTable) (security : SecurityEngine) : Traffic := ⟨{ table, security }, 0⟩

def FewKeys (t : Traffic) (_ : TrafficAction) : Prop :=
  t.shared.loadBalancer.inFlight.entries.length ≤ maxLoadBalancerKeys

instance (t : Traffic) (a : TrafficAction) : Decidable (t.FewKeys a) :=
  inferInstanceAs (Decidable (_ ≤ _))

def Orderly (t : Traffic) : TrafficAction → Prop
  | .drop f => f ∈ t.flights → f.phase ≠ .forwarding
  | .start f =>
    f ∈ t.flights → f.phase = .acquired →
      t.shared.loadBalancer.upstreamInFlight f.routeKey f.upstream + 1 < 2 ^ 64
  | _ => True

lemma exists_eq_cons {t : Traffic} {f : Flight} (hf : f ∈ t.flights) :
    ∃ shared rest, t = ⟨shared, f ::ₘ rest⟩ := by
  obtain ⟨rest, hrest⟩ := Multiset.exists_cons_of_mem hf
  exact ⟨t.shared, rest, by rw [← hrest]⟩

end Traffic

structure CountersExact (t : Traffic) : Prop where
  limits : Counts Flight.limit t.flights t.shared.policy.inFlightLimits
  balancer : Counts Flight.balancer t.flights t.shared.loadBalancer.inFlight

/-! ### The functions -/

section Counters

variable {flights : Multiset Flight} {policy policy' : PolicyEnforcer}
  {config : InFlightLimitConfig} {matched : RouteMatch} {upstream : Upstream}

lemma counts_tryAcquireInFlight {limitKey : Option Text}
    (h : Counts Flight.limit flights policy.inFlightLimits)
    (hacquire : policy.tryAcquireInFlight config matched upstream = (.ok limitKey, policy'))
    {f : Flight} (hf : f.limit = limitKey) :
    Counts Flight.limit (f ::ₘ flights) policy'.inFlightLimits := by
  rw [PolicyEnforcer.tryAcquireInFlight] at hacquire
  split at hacquire
  · cases hacquire
    exact (counts_cons_of_none hf).2 h
  · split at hacquire
    · cases hacquire
      exact (counts_cons_of_none hf).2 h
    · dsimp only at hacquire
      split at hacquire
      · cases hacquire
      · cases hacquire
        exact h.take hf

lemma counts_of_refused {scope : InFlightLimitScope}
    (h : Counts Flight.limit flights policy.inFlightLimits)
    (hacquire : policy.tryAcquireInFlight config matched upstream = (.error scope, policy')) :
    Counts Flight.limit flights policy'.inFlightLimits := by
  rw [PolicyEnforcer.tryAcquireInFlight] at hacquire
  split at hacquire
  · cases hacquire
  · split at hacquire
    · cases hacquire
    · dsimp only at hacquire
      split at hacquire
      · cases hacquire
        exact h.insert_self
      · cases hacquire

lemma counts_releaseInFlight {f : Flight}
    (h : Counts Flight.limit (f ::ₘ flights) policy.inFlightLimits) (hf : f.limit = f.limitKey) :
    Counts Flight.limit flights (policy.releaseInFlight f.limitKey).inFlightLimits := by
  cases hkey : f.limitKey with
  | none =>
    rw [hkey] at hf
    exact (counts_cons_of_none hf).1 h
  | some k =>
    rw [hkey] at hf
    obtain ⟨n, hn⟩ := h.exists_lookup hf
    have hrelease : (policy.releaseInFlight (some k)).inFlightLimits =
        policy.inFlightLimits.insert k (n - 1) := by
      simp only [PolicyEnforcer.releaseInFlight, Map.get, hn]
    rw [hrelease]
    exact h.leave hf hn

end Counters

/-! ### One step -/

namespace CountersExact

variable {t : Traffic}

lemma init (table : RouteTable) (security : SecurityEngine) :
    CountersExact (.init table security) :=
  ⟨counts_empty, counts_empty⟩

lemma acquire (h : CountersExact t) (matched : RouteMatch) (routeKey : Text)
    (upstream : Upstream) : CountersExact (t.step (.acquire matched routeKey upstream)) := by
  simp only [Traffic.step]
  split
  · next limitKey policy hacquire =>
    refine ⟨counts_tryAcquireInFlight h.limits hacquire rfl, ?_⟩
    exact (counts_cons_of_none rfl).2 h.balancer
  · next scope policy hacquire => exact ⟨counts_of_refused h.limits hacquire, h.balancer⟩

lemma release (h : CountersExact t) (f : Flight) : CountersExact (t.step (.release f)) := by
  simp only [Traffic.step]
  split
  · next hf =>
    obtain ⟨shared, rest, rfl⟩ := Traffic.exists_eq_cons hf.1
    rw [Multiset.erase_cons_head]
    refine ⟨(counts_cons_of_none rfl).2 (counts_releaseInFlight h.limits ?_), ?_⟩
    · simp [Flight.limit, hf.2]
    · refine (counts_exchange ?_).1 h.balancer
      simp [Flight.balancer, hf.2]
  · exact h

lemma finish (h : CountersExact t) (f : Flight) (latencyMicros : ℕ) :
    CountersExact (t.step (.finish f latencyMicros)) := by
  simp only [Traffic.step]
  split
  · next hf =>
    obtain ⟨shared, rest, rfl⟩ := Traffic.exists_eq_cons hf.1
    rw [Multiset.erase_cons_head]
    have hkey : f.balancer = some (LoadBalancer.upstreamKey f.routeKey f.upstream) := by
      simp [Flight.balancer, hf.2]
    have hnone : f.limit = none := by simp [Flight.limit, hf.2]
    obtain ⟨n, hn⟩ := h.balancer.exists_lookup hkey
    refine ⟨(counts_cons_of_none hnone).1 h.limits, ?_⟩
    rw [LoadBalancer.inFlight_endRequest hn]
    exact h.balancer.leave hkey hn
  · exact h

lemma other (h : CountersExact t) {step : OtherStep} (hkeys : t.FewKeys (.other step)) :
    CountersExact (t.step (.other step)) := by
  obtain ⟨hlimits, hbalancer⟩ := step.keeps t.shared
  refine ⟨?_, ?_⟩
  · change Counts Flight.limit t.flights (step.act t.shared).policy.inFlightLimits
    rw [hlimits]
    exact h.limits
  · change Counts Flight.balancer t.flights (step.act t.shared).loadBalancer.inFlight
    rw [hbalancer hkeys]
    exact h.balancer

lemma start_iff (h : CountersExact t) {f : Flight} (hkeys : t.FewKeys (.start f)) :
    CountersExact (t.step (.start f)) ↔ t.Orderly (.start f) := by
  by_cases hf : f ∈ t.flights ∧ f.phase = .acquired
  · obtain ⟨shared, rest, rfl⟩ := Traffic.exists_eq_cons hf.1
    have hnone : f.balancer = none := by simp [Flight.balancer, hf.2]
    have hstarted : Flight.balancer { f with phase := .forwarding } =
        some (LoadBalancer.upstreamKey f.routeKey f.upstream) := rfl
    have hheld : Counts Flight.balancer rest shared.loadBalancer.inFlight :=
      (counts_cons_of_none hnone).1 h.balancer
    simp only [Traffic.step, if_pos hf, Multiset.erase_cons_head, Traffic.Orderly]
    rw [imp_iff_right hf.1, imp_iff_right hf.2]
    constructor
    · intro h'
      have hcount := h'.balancer (LoadBalancer.upstreamKey f.routeKey f.upstream)
      rw [LoadBalancer.inFlight_beginRequest f.routeKey f.upstream hkeys, AList.lookup_insert,
        Option.getD_some, holdersOf_cons, ← hheld, if_pos hstarted] at hcount
      have hlt := Nat.mod_lt (shared.loadBalancer.upstreamInFlight f.routeKey f.upstream + 1)
        (show 0 < 2 ^ 64 by decide)
      rw [hcount] at hlt
      exact hlt
    · intro hlt
      refine ⟨(counts_exchange ?_).1 h.limits, ?_⟩
      · simp [Flight.limit, hf.2]
      · change Counts Flight.balancer _
          (shared.loadBalancer.beginRequest f.routeKey f.upstream).inFlight
        rw [LoadBalancer.inFlight_beginRequest f.routeKey f.upstream hkeys, Nat.mod_eq_of_lt hlt]
        exact hheld.take hstarted
  · simp only [Traffic.step, if_neg hf, Traffic.Orderly]
    exact iff_of_true h fun hmem hphase => absurd ⟨hmem, hphase⟩ hf

lemma drop_iff (h : CountersExact t) (f : Flight) :
    CountersExact (t.step (.drop f)) ↔ t.Orderly (.drop f) := by
  by_cases hf : f ∈ t.flights ∧ f.phase = .forwarding
  · obtain ⟨shared, rest, rfl⟩ := Traffic.exists_eq_cons hf.1
    have hkey : f.balancer = some (LoadBalancer.upstreamKey f.routeKey f.upstream) := by
      simp [Flight.balancer, hf.2]
    simp only [Traffic.step, if_pos hf, Multiset.erase_cons_head, Traffic.Orderly]
    refine iff_of_false (fun h' => ?_) fun hdrop => hdrop hf.1 hf.2
    exact h.balancer.not_leave hkey h'.balancer
  · simp only [Traffic.step, if_neg hf, Traffic.Orderly]
    exact iff_of_true h fun hmem hphase => hf ⟨hmem, hphase⟩

lemma step_iff (h : CountersExact t) (a : TrafficAction) (hkeys : t.FewKeys a) :
    CountersExact (t.step a) ↔ t.Orderly a := by
  cases a with
  | acquire matched routeKey upstream =>
    exact iff_of_true (h.acquire matched routeKey upstream) trivial
  | start f => exact h.start_iff hkeys
  | release f => exact iff_of_true (h.release f) trivial
  | finish f latencyMicros => exact iff_of_true (h.finish f latencyMicros) trivial
  | drop f => exact h.drop_iff f
  | other step => exact iff_of_true (h.other hkeys) trivial

end CountersExact

/-! ### Runs -/

/-- In every run of handlers side by side, with not more keys than the load balancer keeps:
all counters are exact in every state of the run, exactly if no handler is dropped while it
awaits the answer of its upstream, and no counter overflows. -/
theorem counters_exact_iff (table : RouteTable) (security : SecurityEngine)
    (actions : List TrafficAction)
    (hkeys : Along Traffic.step Traffic.FewKeys (.init table security) actions) :
    (∀ n, CountersExact (run Traffic.step (.init table security) (actions.take n))) ↔
      Along Traffic.step Traffic.Orderly (.init table security) actions :=
  forall_take_iff_along CountersExact hkeys (.init table security) fun _ a h hfew =>
    h.step_iff a hfew

section Sample

def limitedMatch : RouteMatch :=
  sampleMatch { inFlightLimit := { enabled := true, max := some 1 } } []

def limitedFlight (phase : FlightPhase) : Flight where
  limitKey := some (inFlightKey limitedMatch.middleware.inFlightLimit limitedMatch
    { url := "http://app:80" })
  routeKey := baseRouteKey limitedMatch
  upstream := "http://app:80"
  phase

def limitedRun (rest : List TrafficAction) : List TrafficAction :=
  .acquire limitedMatch (baseRouteKey limitedMatch) { url := "http://app:80" } ::
    .start (limitedFlight .acquired) :: rest

def answeredRun : List TrafficAction :=
  limitedRun [.release (limitedFlight .forwarding), .finish (limitedFlight .released) 5]

/-- A request that is answered leaves no counter behind. -/
theorem counters_exact_iff_answered :
    (run Traffic.step (.init (.new []) {}) (answeredRun.take 4)).flights = 0 ∧
      CountersExact (run Traffic.step (.init (.new []) {}) (answeredRun.take 4)) := by
  refine ⟨by decide, (counters_exact_iff (.new []) {} answeredRun ?_).2 ?_ 4⟩
  · refine ⟨?_, ?_, ?_, ?_, trivial⟩ <;> decide
  · refine ⟨trivial, ?_, trivial, trivial, trivial⟩
    intro _ _
    decide

/-- The handler is dropped while it awaits the answer, and no request is active any more.  Both
counters stay at one, and so the next request is refused. -/
theorem counters_left_behind :
    let t := run Traffic.step (.init (.new []) {})
      (limitedRun [.drop (limitedFlight .forwarding)])
    t.flights = 0 ∧
      t.shared.loadBalancer.upstreamInFlight (baseRouteKey limitedMatch) "http://app:80" = 1 ∧
      t.shared.policy.inFlightLimits.get
        (inFlightKey limitedMatch.middleware.inFlightLimit limitedMatch
          { url := "http://app:80" }) = some 1 ∧
      (t.shared.policy.tryAcquireInFlight limitedMatch.middleware.inFlightLimit limitedMatch
        { url := "http://app:80" }).1.isOk = false := by
  decide

end Sample

end PxxlEdge
