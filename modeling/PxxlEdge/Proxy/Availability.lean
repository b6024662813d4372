import PxxlEdge.Proxy.Failover

/-!
Availability: at one instant, a request of a known client gets an upstream whenever
one of the pool can take it.
-/

namespace PxxlEdge

open RustStd Http

/-! ### Breakers at one instant -/

section Breakers

variable {policy policy' policy'' : PolicyEnforcer} {t : ℕ}

def AgreeAt (t : ℕ) (policy policy' : PolicyEnforcer) : Prop :=
  ∀ matched upstream,
    (policy'.circuitIsOpen t matched upstream).1 = (policy.circuitIsOpen t matched upstream).1

lemma AgreeAt.refl (t : ℕ) (policy : PolicyEnforcer) : AgreeAt t policy policy := fun _ _ => rfl

lemma AgreeAt.trans (h : AgreeAt t policy policy') (h' : AgreeAt t policy' policy'') :
    AgreeAt t policy policy'' := fun matched upstream =>
  (h' matched upstream).trans (h matched upstream)

lemma AgreeAt.available_iff (h : AgreeAt t policy policy') {matched : RouteMatch} {u : Upstream} :
    Available policy' t matched u ↔ Available policy t matched u := by
  rw [Available, Available, h]

lemma agreeAt_circuitIsOpen (t : ℕ) (policy : PolicyEnforcer) (matched : RouteMatch)
    (upstream : Text) : AgreeAt t policy (policy.circuitIsOpen t matched upstream).2 := by
  intro matched' upstream'
  rw [circuitIsOpen_fst rfl, circuitIsOpen_fst rfl]
  rcases breakerOf_circuitIsOpen policy _ matched upstream t with heq | ⟨hover, heq⟩
  · rw [heq]
  · rw [heq, Option.any_none, eq_comm, Option.any_eq_false]
    intro time htime
    simpa using hover time htime

end Breakers

/-! ### The search -/

section Search

variable {matched : RouteMatch} {backup : Bool} {clock : ℕ → ℕ} {t : ℕ}

lemma agreeAt_availableUpstreams (ht : ∀ i, clock i = t) (upstreams : List Upstream) (i : ℕ)
    (policy : PolicyEnforcer) :
    AgreeAt t policy
      (PolicyEnforcer.availableUpstreams matched backup clock i policy upstreams).2 := by
  induction upstreams generalizing i policy with
  | nil => exact .refl t policy
  | cons x upstreams ih =>
    rw [PolicyEnforcer.availableUpstreams, ht i]
    split
    · exact (agreeAt_circuitIsOpen t policy matched x.url).trans (ih (i + 1) _)
    · exact ih (i + 1) policy

lemma mem_availableUpstreams_iff (ht : ∀ i, clock i = t) {upstreams : List Upstream} {i : ℕ}
    {policy : PolicyEnforcer} {u : Upstream} :
    u ∈ (PolicyEnforcer.availableUpstreams matched backup clock i policy upstreams).1 ↔
      u ∈ upstreams ∧ u.backup = backup ∧ Available policy t matched u := by
  refine ⟨fun hu => ?_, fun ⟨hu, hbackup, havail⟩ =>
    (availableUpstreams_spec matched backup (fun i => (ht i).ge) upstreams i policy).2 u hu hbackup
      havail⟩
  obtain ⟨hmem, hbackup, hhealthy⟩ := mem_availableUpstreams hu
  refine ⟨hmem, hbackup, hhealthy, ?_⟩
  clear hmem hhealthy
  induction upstreams generalizing i policy with
  | nil => cases hu
  | cons x upstreams ih =>
    rw [PolicyEnforcer.availableUpstreams, ht i] at hu
    split at hu
    · -- the breakers asked before give the answers they gave at the start
      have hagree := agreeAt_circuitIsOpen t policy matched x.url matched u.url
      have hrest := fun h => hagree.symm.trans (ih (i := i + 1) h)
      dsimp only at hu
      split at hu
      · exact hrest hu
      · next hclosed =>
        rcases List.mem_cons.mp hu with rfl | hu
        · exact Bool.eq_false_of_not_eq_true hclosed
        · exact hrest hu
    · exact ih hu

end Search

/-! ### The choice -/

section Choice

variable {G : Grammar} {W : World G} {s : EdgeState} {routeKey : Text} {matched : RouteMatch}
  {upstreams : List Upstream} {headers : HeaderMap} {middleware : EffectiveMiddleware} {t : ℕ}

lemma select_availableUpstreams (hclock : ∀ i, W.clock .circuit i = t) {backup : Bool} {i : ℕ}
    {policy policy' : PolicyEnforcer} {pool : List Upstream}
    (hpool : PolicyEnforcer.availableUpstreams matched backup (W.clock .circuit) i policy
      upstreams = (pool, policy'))
    {lb lb' : LoadBalancer} {algorithm : LoadBalancingAlgorithm} {ip : IpAddr}
    {selected : Option Upstream}
    (hselect : lb.select W.hashes routeKey algorithm pool (some ip) = (selected, lb')) :
    (∀ u, selected = some u → u ∈ upstreams ∧ Available policy t matched u) ∧
      (selected = none →
        ∀ u ∈ upstreams, u.backup = backup → ¬ Available policy t matched u) := by
  have hmem : ∀ u, u ∈ pool ↔ u ∈ upstreams ∧ u.backup = backup ∧ Available policy t matched u := by
    intro u
    rw [← mem_availableUpstreams_iff hclock, hpool]
  have hchooses := (lb.select_cases W.hashes routeKey algorithm pool (some ip)).resolve_right
    fun h => by cases h.2.1
  rw [hselect] at hchooses
  constructor
  · intro u hu
    obtain ⟨hu', -, havail⟩ := (hmem u).mp (List.mem_of_mem_filter (hchooses.mem u hu))
    exact ⟨hu', havail⟩
  · rintro rfl u hu hbackup havail
    have hu' := List.mem_filter.mpr ⟨(hmem u).mpr ⟨hu, hbackup, havail⟩, havail.1⟩
    cases hchooses.isSome (List.ne_nil_of_mem hu')

lemma mem_of_stickyUpstream {sticky : StickySessionConfig} {u : Upstream}
    (h : stickyUpstream G headers upstreams sticky = some u) : u ∈ upstreams := by
  rw [stickyUpstream] at h
  split at h
  · obtain ⟨_, -, h⟩ := Option.bind_eq_some_iff.mp h
    obtain ⟨_, -, h⟩ := Option.bind_eq_some_iff.mp h
    exact List.mem_of_find?_eq_some h
  · cases h

lemma agreeAt_stickyChoice (hclock : ∀ i, W.clock .circuit i = t) (policy : PolicyEnforcer) :
    AgreeAt t policy (stickyChoice W policy matched upstreams headers middleware).2 := by
  rw [stickyChoice, hclock]
  split
  · exact .refl t policy
  · split
    · exact agreeAt_circuitIsOpen t policy matched _
    · exact .refl t policy

lemma selectAvailableUpstream_of_none (hclock : ∀ i, W.clock .circuit i = t)
    {policy : PolicyEnforcer}
    (hchoice : stickyChoice W s.policy matched upstreams headers middleware = (none, policy))
    {ip : IpAddr} {selected : Option Upstream}
    (hselected : (selectAvailableUpstream W s routeKey matched upstreams (some ip) headers
      middleware).1 = selected) :
    (∀ u, selected = some u → u ∈ upstreams ∧ Available policy t matched u) ∧
      (selected = none → ∀ u ∈ upstreams, ¬ Available policy t matched u) := by
  rw [selectAvailableUpstream, hchoice] at hselected
  dsimp only at hselected
  have hprimary : AgreeAt t policy
      (PolicyEnforcer.availableUpstreams matched false (W.clock .circuit) 1 policy upstreams).2 :=
    agreeAt_availableUpstreams hclock upstreams 1 policy
  rcases hpool : PolicyEnforcer.availableUpstreams matched false (W.clock .circuit) 1 policy
    upstreams with ⟨primary, policy'⟩
  rcases hselect : s.loadBalancer.select W.hashes routeKey matched.route.algorithm primary
    (some ip) with ⟨first, lb⟩
  obtain ⟨hsome, hnone⟩ := select_availableUpstreams hclock hpool hselect
  rw [hpool] at hprimary hselected
  dsimp only at hselected
  rw [hselect] at hselected
  cases first with
  | some v =>
    subst hselected
    exact ⟨hsome, fun h => by cases h⟩
  | none =>
    rcases hpool' : PolicyEnforcer.availableUpstreams matched true (W.clock .circuit)
      (upstreams.length + 1) policy' upstreams with ⟨backup, policy''⟩
    rcases hselect' : lb.select W.hashes routeKey matched.route.algorithm backup
      (some ip) with ⟨second, lb'⟩
    obtain ⟨hsome', hnone'⟩ := select_availableUpstreams hclock hpool' hselect'
    simp only [hprimary.available_iff] at hsome' hnone'
    obtain rfl : second = selected := by
      rw [← hselected]
      dsimp only
      rw [hpool', hselect']
    refine ⟨hsome', fun h u hu => ?_⟩
    cases hbackup : u.backup with
    | false => exact hnone rfl u hu hbackup
    | true => exact hnone' h u hu hbackup

end Choice

/-- **Availability.**  At one instant, for a known address, nothing is selected exactly if no
upstream of the pool is healthy with a closed circuit; what is selected is of the pool, healthy,
and its circuit is closed. -/
theorem available_upstream_selected {G : Grammar} (W : World G) {t : ℕ}
    (hclock : ∀ i, W.clock .circuit i = t) (s : EdgeState) (routeKey : Text)
    (matched : RouteMatch) (upstreams : List Upstream) (ip : IpAddr) (headers : HeaderMap)
    (middleware : EffectiveMiddleware) :
    ((selectAvailableUpstream W s routeKey matched upstreams (some ip) headers
          middleware).1 = none ↔
        ∀ u ∈ upstreams, ¬ Available s.policy t matched u) ∧
      ∀ u, (selectAvailableUpstream W s routeKey matched upstreams (some ip) headers
          middleware).1 = some u → u ∈ upstreams ∧ Available s.policy t matched u := by
  -- a choice is right, and without one nothing of the pool is available
  suffices h : (∀ u, (selectAvailableUpstream W s routeKey matched upstreams (some ip) headers
        middleware).1 = some u → u ∈ upstreams ∧ Available s.policy t matched u) ∧
      ((selectAvailableUpstream W s routeKey matched upstreams (some ip) headers
        middleware).1 = none → ∀ u ∈ upstreams, ¬ Available s.policy t matched u) by
    refine ⟨⟨h.2, fun hnone => ?_⟩, h.1⟩
    rw [Option.eq_none_iff_forall_ne_some]
    intro u hu
    exact hnone u (h.1 u hu).1 (h.1 u hu).2
  have hsticky : AgreeAt t s.policy
      (stickyChoice W s.policy matched upstreams headers middleware).2 :=
    agreeAt_stickyChoice hclock s.policy
  rcases hchoice : stickyChoice W s.policy matched upstreams headers middleware with
    ⟨choice, policy⟩
  rw [hchoice] at hsticky
  cases choice with
  | some v =>
    obtain ⟨hv, havail⟩ := stickyChoice_fst.mp (congrArg Prod.fst hchoice)
    rw [hclock] at havail
    rw [selectAvailableUpstream, hchoice]
    refine ⟨fun u hu => ?_, fun hnone => by cases hnone⟩
    obtain rfl : v = u := Option.some.inj hu
    exact ⟨mem_of_stickyUpstream hv, havail⟩
  | none =>
    simp only [← hsticky.available_iff]
    exact selectAvailableUpstream_of_none hclock hchoice rfl

/-- Of one primary upstream and one backup, one is selected. -/
theorem available_upstream_selected_primary :
    Available {} 0 backedUpMatch { url := "http://primary:80" } ∧
      (selectAvailableUpstream sampleWorld (sampleState {} []) "r:/" backedUpMatch
        primaryAndBackup (some (.v4 ⟨10, 0, 0, 1⟩)) ⟨[]⟩ {}).1 ≠ none := by
  have havail : Available {} 0 backedUpMatch { url := "http://primary:80" } := ⟨rfl, rfl⟩
  refine ⟨havail, fun hnone => ?_⟩
  exact (available_upstream_selected sampleWorld (fun _ => rfl) (sampleState {} []) "r:/"
    backedUpMatch primaryAndBackup (.v4 ⟨10, 0, 0, 1⟩) ⟨[]⟩ {}).1.mp hnone _ List.mem_cons_self
      havail

end PxxlEdge
