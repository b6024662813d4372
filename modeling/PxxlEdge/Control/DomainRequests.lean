import PxxlEdge.Control.AdminApi
import PxxlEdge.Lib.Fields

/-!
The requests about a domain.  Their arms overlap: one of them takes every URL below
`/v1/domains/`, others those that end in a certain way, and the first one in the
order of the source serves the request.
-/

namespace PxxlEdge

open RustStd List

/-! ### The views of a domain -/

inductive DomainView where
  | stats
  | visits
  | logs
  | cert
  | publicCert
  | bandwidth
  | bandwidthHistory
  | bandwidthRealtime
deriving DecidableEq, Repr

namespace DomainView

def ending : DomainView → String
  | stats => "/stats"
  | visits => "/visits"
  | logs => "/logs"
  | cert => "/cert"
  | publicCert => "/cert/public"
  | bandwidth => "/bandwidth"
  | bandwidthHistory => "/bandwidth/history"
  | bandwidthRealtime => "/bandwidth/realtime"

def scope : DomainView → Text
  | cert => scopeRoutesRead
  | publicCert => scopeRoutesRead
  | _ => scopeAnalyticsRead

def endpoint : DomainView → Endpoint
  | stats => .domainStats
  | visits => .domainVisits
  | logs => .domainLogs
  | cert => .domainCert
  | publicCert => .domainPublicCert
  | bandwidth => .bandwidthUsage
  | bandwidthHistory => .bandwidthHistory
  | bandwidthRealtime => .bandwidthRealtime

def arm (v : DomainView) : Arm :=
  ⟨"GET", .between "/v1/domains/" v.ending, some v.scope, v.endpoint⟩

def served : List DomainView := [stats, visits, logs, cert, publicCert]

def hidden : List DomainView := [bandwidth, bandwidthHistory, bandwidthRealtime]

end DomainView

def lookupArm : Arm := ⟨"GET", .under "/v1/domains/", some scopeRoutesRead, .domain⟩

def domainUrl (domain : Text) : Text := "/v1/domains/" ++ domain

def viewUrl (domain : Text) (v : DomainView) : Text := domainUrl domain ++ v.ending.toList

/-! ### The arm of a request -/

def Arm.misses (method start : String) (arm : Arm) : Bool :=
  arm.method != method ||
    match arm.pattern with
    | .exact path => !Text.startsWith path.toList start.toList
    | .under start' =>
      !Text.startsWith start'.toList start.toList && !Text.startsWith start.toList start'.toList
    | .between start' _ =>
      !Text.startsWith start'.toList start.toList && !Text.startsWith start.toList start'.toList

lemma startsWith_append_eq_false {start start' : Text} (rest : Text)
    (h : start'.startsWith start = false) (h' : start.startsWith start' = false) :
    (start ++ rest).startsWith start' = false := by
  simp only [Text.startsWith, Bool.eq_false_iff, ne_eq, isPrefixOf_iff_prefix] at h h' ⊢
  intro hstart
  rcases prefix_or_prefix_of_prefix hstart (prefix_append start rest) with hle | hle
  · exact h' hle
  · exact h hle

lemma Arm.holds_of_misses {method start : String} {arm : Arm} (rest : Text)
    (h : arm.misses method start = true) :
    arm.holds method.toList (start.toList ++ rest) = false := by
  rw [misses, Bool.or_eq_true, bne_iff_ne] at h
  rw [holds, Bool.and_eq_false_iff, beq_eq_false_iff_ne]
  rcases h with hmethod | hpattern
  · exact .inl fun heq => hmethod (String.toList_inj.mp heq).symm
  · refine .inr ?_
    cases hp : arm.pattern with
    | exact path =>
      simp only [hp, Bool.not_eq_true'] at hpattern
      rw [PathPattern.holds, beq_eq_false_iff_ne]
      intro heq
      rw [← heq, Text.startsWith, Bool.eq_false_iff, ne_eq,
        isPrefixOf_iff_prefix] at hpattern
      exact hpattern (prefix_append _ _)
    | under start' =>
      simp only [hp, Bool.and_eq_true, Bool.not_eq_true'] at hpattern
      exact startsWith_append_eq_false rest hpattern.1 hpattern.2
    | between start' stop =>
      simp only [hp, Bool.and_eq_true, Bool.not_eq_true'] at hpattern
      rw [PathPattern.holds, startsWith_append_eq_false rest hpattern.1 hpattern.2,
        Bool.false_and]

lemma dispatch_append (method start : String) (rest : Text) :
    dispatch method.toList (start.toList ++ rest) =
      (arms.filter fun arm => !arm.misses method start).find? fun arm =>
        arm.holds method.toList (start.toList ++ rest) := by
  rw [dispatch, find?_filter]
  congr 1
  funext arm
  cases hmisses : arm.misses method start with
  | false => simp
  | true => simp [arm.holds_of_misses rest hmisses]

lemma arms_below_domains :
    (arms.filter fun arm => !arm.misses "GET" "/v1/domains/") =
      DomainView.served.map DomainView.arm ++
        lookupArm :: DomainView.hidden.map DomainView.arm := by
  decide

lemma startsWith_domainUrl (rest : Text) :
    (domainUrl rest).startsWith "/v1/domains/" = true :=
  isPrefixOf_iff_prefix.mpr (prefix_append _ _)

lemma DomainView.holds_arm (v : DomainView) (rest : Text) :
    v.arm.holds "GET" (domainUrl rest) = (domainUrl rest).endsWith v.ending.toList := by
  rw [Arm.holds, arm, PathPattern.holds, startsWith_domainUrl, beq_self_eq_true, Bool.true_and,
    Bool.true_and]

lemma holds_lookupArm (rest : Text) : lookupArm.holds "GET" (domainUrl rest) = true := by
  rw [Arm.holds, lookupArm, PathPattern.holds, startsWith_domainUrl, beq_self_eq_true,
    Bool.true_and]

lemma find_served (rest : Text) :
    (DomainView.served.map DomainView.arm).find? (fun arm =>
        arm.holds "GET" (domainUrl rest)) =
      (DomainView.served.find? fun v => (domainUrl rest).endsWith v.ending.toList).map
        DomainView.arm := by
  rw [find?_map, Function.comp_def]
  simp only [DomainView.holds_arm]

lemma dispatch_domainUrl (rest : Text) :
    dispatch "GET" (domainUrl rest) =
      some ((DomainView.served.find? fun v => (domainUrl rest).endsWith v.ending.toList).elim
        lookupArm DomainView.arm) := by
  have happend : dispatch "GET" (domainUrl rest) =
      (arms.filter fun arm => !arm.misses "GET" "/v1/domains/").find? fun arm =>
        arm.holds "GET" (domainUrl rest) := dispatch_append _ _ rest
  rw [happend, arms_below_domains, find?_append, find_served,
    find?_cons, holds_lookupArm]
  cases DomainView.served.find? fun v => (domainUrl rest).endsWith v.ending.toList with
  | none => rfl
  | some v => rfl

def Demands (method path scope : Text) : Prop :=
  ∀ (auth : AdminApiAuth) (crypto : AdminCrypto) (env : AdminEnv) (req : AdminRequest)
    (hashes : TokenHashes), req.method = method → req.path = path →
    (ApiServer.handle auth crypto env req hashes).response.success = true →
    ∃ principal, (auth.authorize crypto env.authEvent req hashes).1 = .ok principal ∧
      principal.hasScope scope = true

lemma demands_of_dispatch {method path scope : Text} {arm : Arm}
    (h : dispatch method path = some arm) (hscope : arm.scope = some scope) :
    Demands method path scope := by
  rintro auth crypto env req hashes rfl rfl hsuccess
  obtain ⟨principal, arm', hprincipal, hdispatch, hpassed⟩ := dispatch_of_success hsuccess
  obtain rfl : arm = arm' := Option.some.inj (h.symm.trans hdispatch)
  exact ⟨principal, hprincipal, hpassed scope hscope⟩

/-! ### Views and lookups -/

lemma DomainView.eq_of_suffix {v w : DomainView}
    (h : w.ending.toList <:+ v.ending.toList ∨ v.ending.toList <:+ w.ending.toList) : v = w := by
  revert h
  cases v <;> cases w <;> decide

lemma endsWith_viewUrl (domain : Text) (v w : DomainView) :
    (viewUrl domain v).endsWith w.ending.toList = decide (v = w) := by
  by_cases hvw : v = w
  · subst hvw
    rw [decide_eq_true rfl]
    exact isSuffixOf_iff_suffix.mpr (suffix_append _ _)
  · rw [decide_eq_false hvw]
    exact Text.endsWith_append_of_not_suffix (fun h => hvw (DomainView.eq_of_suffix (.inl h)))
      fun h => hvw (DomainView.eq_of_suffix (.inr h))

lemma dispatch_viewUrl (domain : Text) (v : DomainView) :
    dispatch "GET" (viewUrl domain v) =
      some (if v ∈ DomainView.served then v.arm else lookupArm) := by
  have hurl : viewUrl domain v = domainUrl (domain ++ v.ending.toList) := append_assoc _ _ _
  have hends : ∀ w : DomainView,
      (domainUrl (domain ++ v.ending.toList)).endsWith w.ending.toList = decide (v = w) := by
    rw [← hurl]
    exact endsWith_viewUrl domain v
  rw [hurl, dispatch_domainUrl]
  simp only [hends]
  cases v <;> rfl

lemma endsWith_domainUrl {domain name : Text} (hdomain : '/' ∉ domain) (hname : '/' ∉ name) :
    (domainUrl domain).endsWith ('/' :: name) = decide (domain = name) := by
  have hurl : domainUrl domain = "/v1/domains" ++ '/' :: domain := rfl
  rw [hurl, Bool.eq_iff_iff, Text.endsWith_cons_append_cons hname hdomain, decide_eq_true_iff]

lemma endsWith_domainUrl_publicCert {domain : Text} (hdomain : '/' ∉ domain) :
    (domainUrl domain).endsWith "/cert/public" = false := by
  rw [Bool.eq_false_iff]
  intro h
  have hpublic : (domainUrl domain).endsWith "/public" = true := by
    rw [Text.endsWith, isSuffixOf_iff_suffix] at h ⊢
    exact List.IsSuffix.trans ⟨"/cert", rfl⟩ h
  have hname : domain = "public" := by
    rw [show "/public" = '/' :: "public" from rfl,
      endsWith_domainUrl hdomain (by decide), decide_eq_true_iff] at hpublic
    exact hpublic
  subst hname
  exact absurd h (by decide)

def viewNames : List Text := ["stats", "visits", "logs", "cert"]

lemma dispatch_lookup_iff {domain : Text} (hdomain : '/' ∉ domain) :
    dispatch "GET" (domainUrl domain) = some lookupArm ↔ domain ∉ viewNames := by
  have hstats : (domainUrl domain).endsWith DomainView.stats.ending.toList =
      decide (domain = "stats") := endsWith_domainUrl hdomain (by decide)
  have hvisits : (domainUrl domain).endsWith DomainView.visits.ending.toList =
      decide (domain = "visits") := endsWith_domainUrl hdomain (by decide)
  have hlogs : (domainUrl domain).endsWith DomainView.logs.ending.toList =
      decide (domain = "logs") := endsWith_domainUrl hdomain (by decide)
  have hcert : (domainUrl domain).endsWith DomainView.cert.ending.toList =
      decide (domain = "cert") := endsWith_domainUrl hdomain (by decide)
  have hpublic : (domainUrl domain).endsWith DomainView.publicCert.ending.toList = false :=
    endsWith_domainUrl_publicCert hdomain
  have harm : ∀ v : DomainView, v.arm ≠ lookupArm := by
    intro v
    cases v <;> decide
  calc dispatch "GET" (domainUrl domain) = some lookupArm
      ↔ DomainView.served.find? (fun v => (domainUrl domain).endsWith v.ending.toList) = none := by
        rw [dispatch_domainUrl, Option.some_inj]
        cases DomainView.served.find? fun v => (domainUrl domain).endsWith v.ending.toList with
        | none => simp
        | some v => simp [harm v]
    _ ↔ domain ∉ viewNames := by
        rw [find?_eq_none, DomainView.served, viewNames, forall_mem_cons,
          forall_mem_cons, forall_mem_cons, forall_mem_cons, hstats, hvisits, hlogs,
          hcert]
        simp [hpublic]

/-- **The requests about a domain.**  The request for a view is served by the arm written for the
view, and demands its scope, exactly if it is not one of the bandwidth; and a domain is looked
up exactly if it is not the name of a view. -/
theorem domain_requests_dispatched_iff (domain : Text) (hdomain : '/' ∉ domain) :
    (∀ v : DomainView,
      (dispatch "GET".toList (viewUrl domain v) = some v.arm ∧
        Demands "GET".toList (viewUrl domain v) v.scope) ↔ v ∉ DomainView.hidden) ∧
    (dispatch "GET".toList (domainUrl domain) = some lookupArm ↔ domain ∉ viewNames) := by
  refine ⟨fun v => ?_, dispatch_lookup_iff hdomain⟩
  constructor
  · rintro ⟨hdispatch, -⟩
    rw [dispatch_viewUrl] at hdispatch
    cases v <;> simp_all [DomainView.served, DomainView.hidden, lookupArm, DomainView.arm]
  · intro hv
    have hserved : v ∈ DomainView.served := by
      revert hv
      cases v <;> decide
    have hdispatch := dispatch_viewUrl domain v
    rw [if_pos hserved] at hdispatch
    exact ⟨hdispatch, demands_of_dispatch hdispatch rfl⟩

theorem domain_requests_dispatched_example :
    dispatch "GET".toList (viewUrl "a.com" .logs) = some DomainView.logs.arm ∧
      dispatch "GET".toList (domainUrl "a.com") = some lookupArm := by
  have h := domain_requests_dispatched_iff "a.com" (by decide)
  exact ⟨((h.1 .logs).2 (by decide)).1, h.2.2 (by decide)⟩

/-- The bandwidth of a domain is asked for, and the domain is looked up; `stats` is looked up,
and its statistics are what is asked for. -/
theorem bandwidth_request_is_lookup :
    (dispatch "GET".toList "/v1/domains/a.com/bandwidth".toList).map
        (fun arm => (arm.endpoint, arm.scope)) = some (.domain, some scopeRoutesRead) ∧
      (dispatch "GET".toList "/v1/domains/stats".toList).map Arm.endpoint =
        some .domainStats := by
  decide

end PxxlEdge
