import PxxlEdge.Proxy.CircuitBreaker
import PxxlEdge.Proxy.Handle

/-!
Failover: a backup upstream takes a request only when no primary one can, unless a
sticky session asks for it.
-/

namespace PxxlEdge

open RustStd Http

/-! ### Breakers along a selection -/

section Breakers

variable {policy policy' policy'' : PolicyEnforcer} {matched : RouteMatch} {t : ℕ}

def Remembers (policy policy' : PolicyEnforcer) : Prop :=
  ∀ key time, (policy'.breakerOf key).openUntil = some time →
    (policy.breakerOf key).openUntil = some time

lemma Remembers.refl (policy : PolicyEnforcer) : Remembers policy policy := fun _ _ h => h

lemma Remembers.trans (h : Remembers policy policy') (h' : Remembers policy' policy'') :
    Remembers policy policy'' := fun key time hopen => h key time (h' key time hopen)

lemma remembers_circuitIsOpen (policy : PolicyEnforcer) (matched : RouteMatch) (upstream : Text)
    (t : ℕ) : Remembers policy (policy.circuitIsOpen t matched upstream).2 := by
  intro key time hopen
  rcases breakerOf_circuitIsOpen policy key matched upstream t with heq | ⟨-, heq⟩
  · rwa [heq] at hopen
  · rw [heq] at hopen
    cases hopen

lemma Remembers.isOpen (h : Remembers policy policy') {upstream : Text} {t' : ℕ} (ht : t ≤ t')
    (hopen : (policy'.circuitIsOpen t' matched upstream).1 = true) :
    (policy.circuitIsOpen t matched upstream).1 = true := by
  rw [circuitIsOpen_fst rfl, Option.any_eq_true] at hopen ⊢
  obtain ⟨time, htime, hlt⟩ := hopen
  refine ⟨time, h _ _ htime, ?_⟩
  rw [decide_eq_true_eq] at hlt ⊢
  exact ht.trans_lt hlt

end Breakers

/-! ### Available upstreams -/

def Available (policy : PolicyEnforcer) (t : ℕ) (matched : RouteMatch) (u : Upstream) : Prop :=
  u.healthy = true ∧ (policy.circuitIsOpen t matched u.url).1 = false

lemma Remembers.available {policy policy' : PolicyEnforcer} (h : Remembers policy policy')
    {t t' : ℕ} (ht : t ≤ t') {matched : RouteMatch} {u : Upstream}
    (havail : Available policy t matched u) : Available policy' t' matched u := by
  refine ⟨havail.1, Bool.eq_false_of_not_eq_true fun hopen => ?_⟩
  have hearlier := h.isOpen ht hopen
  rw [havail.2] at hearlier
  cases hearlier

def NoPrimary (policy : PolicyEnforcer) (t : ℕ) (matched : RouteMatch)
    (upstreams : List Upstream) : Prop :=
  ∀ u ∈ upstreams, u.backup = false → ¬ Available policy t matched u

lemma availableUpstreams_spec (matched : RouteMatch) (backup : Bool) {clock : ℕ → ℕ} {t : ℕ}
    (ht : ∀ i, t ≤ clock i) (upstreams : List Upstream) (i : ℕ) (policy : PolicyEnforcer) :
    Remembers policy
        (PolicyEnforcer.availableUpstreams matched backup clock i policy upstreams).2 ∧
      ∀ u ∈ upstreams, u.backup = backup → Available policy t matched u →
        u ∈ (PolicyEnforcer.availableUpstreams matched backup clock i policy upstreams).1 := by
  induction upstreams generalizing i policy with
  | nil => exact ⟨.refl policy, by simp⟩
  | cons x upstreams ih =>
    rw [PolicyEnforcer.availableUpstreams]
    split
    · have hx := remembers_circuitIsOpen policy matched x.url (clock i)
      rcases hask : policy.circuitIsOpen (clock i) matched x.url with ⟨isOpen, policy'⟩
      rw [hask] at hx
      obtain ⟨hrest, hmem⟩ := ih (i + 1) policy'
      refine ⟨hx.trans hrest, fun u hu hbackup havail => ?_⟩
      dsimp only
      rcases List.mem_cons.mp hu with rfl | hu
      · -- asked later, its breaker is still closed
        have hclosed := ((Remembers.refl policy).available (ht i) havail).2
        rw [hask] at hclosed
        simp [show isOpen = false from hclosed]
      · have hstill : Available policy' t matched u := hx.available le_rfl havail
        have hu' := hmem u hu hbackup hstill
        split
        · exact hu'
        · exact List.mem_cons_of_mem _ hu'
    · next hskip =>
      obtain ⟨hrest, hmem⟩ := ih (i + 1) policy
      refine ⟨hrest, fun u hu hbackup havail => ?_⟩
      rcases List.mem_cons.mp hu with rfl | hu
      · exact absurd ⟨hbackup, havail.1⟩ hskip
      · exact hmem u hu hbackup havail

/-! ### The choice -/

section Choice

variable {G : Grammar} {W : World G} {s : EdgeState} {routeKey : Text} {matched : RouteMatch}
  {upstreams : List Upstream} {remoteIp : Option IpAddr} {headers : HeaderMap}
  {middleware : EffectiveMiddleware}

lemma stickyChoice_fst {policy : PolicyEnforcer} {u : Upstream} :
    (stickyChoice W policy matched upstreams headers middleware).1 = some u ↔
      stickyUpstream G headers upstreams middleware.stickySessions = some u ∧
        Available policy (W.clock .circuit 0) matched u := by
  rw [stickyChoice, Available]
  cases hsticky : stickyUpstream G headers upstreams middleware.stickySessions with
  | none => simp
  | some v =>
    dsimp only
    rw [Option.some.injEq]
    split
    · next hhealthy =>
      cases hopen : (policy.circuitIsOpen (W.clock .circuit 0) matched v.url).1 with
      | true =>
        refine iff_of_false (by simp) ?_
        rintro ⟨rfl, -, hclosed⟩
        rw [hopen] at hclosed
        cases hclosed
      | false =>
        simp only [Bool.false_eq_true, if_false, Option.some.injEq]
        constructor
        · rintro rfl
          exact ⟨rfl, hhealthy, hopen⟩
        · exact fun h => h.1
    · next hunhealthy =>
      refine iff_of_false (by simp) ?_
      rintro ⟨rfl, hhealthy, -⟩
      exact hunhealthy hhealthy

variable (W matched upstreams headers middleware) in
lemma remembers_stickyChoice (policy : PolicyEnforcer) :
    Remembers policy (stickyChoice W policy matched upstreams headers middleware).2 := by
  rw [stickyChoice]
  split
  · exact .refl policy
  · split
    · exact remembers_circuitIsOpen policy matched _ _
    · exact .refl policy

lemma selectAvailableUpstream_of_sticky {u : Upstream}
    (h : (stickyChoice W s.policy matched upstreams headers middleware).1 = some u) :
    (selectAvailableUpstream W s routeKey matched upstreams remoteIp headers middleware).1 =
      some u := by
  rcases hchoice : stickyChoice W s.policy matched upstreams headers middleware with ⟨choice, p⟩
  rw [hchoice] at h
  obtain rfl : choice = some u := h
  rw [selectAvailableUpstream, hchoice]

lemma noPrimary_of_select (hclock : ∀ i, W.clock .circuit 0 ≤ W.clock .circuit i)
    (hsticky : (stickyChoice W s.policy matched upstreams headers middleware).1 = none)
    {u : Upstream}
    (hu : (selectAvailableUpstream W s routeKey matched upstreams remoteIp headers middleware).1 =
      some u) (hbackup : u.backup = true) :
    NoPrimary s.policy (W.clock .circuit 0) matched upstreams := by
  have hkept := remembers_stickyChoice W matched upstreams headers middleware s.policy
  rcases hchoice : stickyChoice W s.policy matched upstreams headers middleware with ⟨choice, p⟩
  rw [hchoice] at hsticky hkept
  subst hsticky
  rw [selectAvailableUpstream, hchoice] at hu
  dsimp only at hu
  have havailable := (availableUpstreams_spec matched false hclock upstreams 1 p).2
  have hprimary : ∀ v ∈ (PolicyEnforcer.availableUpstreams matched false (W.clock .circuit) 1 p
      upstreams).1, v.backup = false := fun v hv => (mem_availableUpstreams hv).2.1
  set primary := (PolicyEnforcer.availableUpstreams matched false (W.clock .circuit) 1 p
    upstreams).1
  rcases s.loadBalancer.select_cases W.hashes routeKey matched.route.algorithm primary remoteIp with
    hchooses | ⟨halgorithm, hip, -⟩
  · rcases hselect : s.loadBalancer.select W.hashes routeKey matched.route.algorithm primary
      remoteIp with ⟨selected, lb⟩
    rw [hselect] at hchooses
    cases selected with
    | some v =>
      -- a primary upstream was selected
      rw [hselect] at hu
      obtain rfl : v = u := Option.some.inj hu
      have hv := hprimary v (List.mem_of_mem_filter (hchooses.mem v rfl))
      rw [hbackup] at hv
      cases hv
    | none =>
      intro v hv hprim havail
      have hmem := havailable v hv hprim (hkept.available le_rfl havail)
      have hne : primary.filter (fun u => u.healthy) ≠ [] :=
        List.ne_nil_of_mem (List.mem_filter.mpr ⟨hmem, havail.1⟩)
      cases hchooses.isSome hne
  · -- the hash of an unknown address selects no backup either
    subst hip
    rw [halgorithm] at hu
    rcases hselect : s.loadBalancer.select W.hashes routeKey .ipHash primary none with
      ⟨selected, lb⟩
    have hnone := LoadBalancer.select_ipHash_none W.hashes s.loadBalancer routeKey primary
    rw [hselect] at hnone
    obtain rfl : selected = none := hnone
    rw [hselect] at hu
    dsimp only at hu
    rw [LoadBalancer.select_ipHash_none] at hu
    cases hu

end Choice

/-- **Failover.**  A backup upstream is selected only when no primary one is healthy with
a closed circuit, exactly if the same is true of a backup that a sticky session asks for
and that is available. -/
theorem backup_only_without_primary_iff {G : Grammar} (W : World G)
    (hclock : ∀ i, W.clock .circuit 0 ≤ W.clock .circuit i) (s : EdgeState) (routeKey : Text)
    (matched : RouteMatch) (upstreams : List Upstream) (remoteIp : Option IpAddr)
    (headers : HeaderMap) (middleware : EffectiveMiddleware) :
    (∀ u, (selectAvailableUpstream W s routeKey matched upstreams remoteIp headers
        middleware).1 = some u → u.backup = true →
          NoPrimary s.policy (W.clock .circuit 0) matched upstreams) ↔
      ∀ u, stickyUpstream G headers upstreams middleware.stickySessions = some u →
        u.backup = true → Available s.policy (W.clock .circuit 0) matched u →
          NoPrimary s.policy (W.clock .circuit 0) matched upstreams := by
  cases hsticky : (stickyChoice W s.policy matched upstreams headers middleware).1 with
  | none =>
    refine iff_of_true (fun u hu hbackup => noPrimary_of_select hclock hsticky hu hbackup) ?_
    intro u hu hbackup havail
    rw [stickyChoice_fst.mpr ⟨hu, havail⟩] at hsticky
    cases hsticky
  | some v =>
    obtain ⟨hv, havail⟩ := stickyChoice_fst.mp hsticky
    rw [selectAvailableUpstream_of_sticky hsticky, hv]
    constructor
    · intro h u hu hbackup _
      exact h u hu hbackup
    · intro h u hu hbackup
      obtain rfl : v = u := Option.some.inj hu
      exact h v hu hbackup havail

/-! ### A pool with a backup -/

def primaryAndBackup : List Upstream :=
  [{ url := "http://primary:80" }, { url := "http://backup:80", backup := true }]

def backedUpMatch : RouteMatch where
  route := { id := "r", domain := "a.io", source := .api }
  path := { pathPrefix := "/", upstreams := primaryAndBackup }

def stickyHeaders (upstream : Text) : HeaderMap :=
  ⟨[(Header.cookie, .fromStatic ("pxxl_upstream=".toList ++ stickyUpstreamId upstream))]⟩

/-- A cookie that names the primary upstream keeps the rule. -/
theorem backup_only_without_primary_iff_primary_cookie :
    (stickyUpstream .http1 (stickyHeaders "http://primary:80") primaryAndBackup
        { enabled := true }).map (fun u => u.backup) = some false ∧
      ∀ u, (selectAvailableUpstream sampleWorld (sampleState {} []) "r:/" backedUpMatch
          primaryAndBackup none (stickyHeaders "http://primary:80")
          { stickySessions := { enabled := true } }).1 = some u → u.backup = true →
            NoPrimary {} 0 backedUpMatch primaryAndBackup := by
  have hsticky : (stickyUpstream .http1 (stickyHeaders "http://primary:80") primaryAndBackup
      { enabled := true }).map (fun u => u.backup) = some false := by decide
  refine ⟨hsticky, ?_⟩
  refine (backup_only_without_primary_iff sampleWorld (fun _ => le_rfl) (sampleState {} []) "r:/"
    backedUpMatch primaryAndBackup none _ _).mpr ?_
  intro u hu hbackup
  rw [hu, Option.map_some, hbackup] at hsticky
  cases hsticky

/-- A cookie that names the backup selects it, although the primary upstream is
available. -/
theorem backup_selected_by_cookie :
    ∃ u, (selectAvailableUpstream sampleWorld (sampleState {} []) "r:/" backedUpMatch
        primaryAndBackup none (stickyHeaders "http://backup:80")
        { stickySessions := { enabled := true } }).1 = some u ∧ u.backup = true ∧
      ¬ NoPrimary {} 0 backedUpMatch primaryAndBackup := by
  have hselect : (selectAvailableUpstream sampleWorld (sampleState {} []) "r:/" backedUpMatch
      primaryAndBackup none (stickyHeaders "http://backup:80")
      { stickySessions := { enabled := true } }).1.map (fun u => u.backup) = some true := by
    decide
  obtain ⟨u, hu, hbackup⟩ := Option.map_eq_some_iff.mp hselect
  refine ⟨u, hu, hbackup, fun h => h { url := "http://primary:80" } ?_ rfl ⟨rfl, rfl⟩⟩
  exact List.mem_cons_self

end PxxlEdge
