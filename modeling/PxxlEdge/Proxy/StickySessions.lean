import PxxlEdge.Lib.Digits
import PxxlEdge.Lib.Fields
import PxxlEdge.LoadBalancer.Fairness
import PxxlEdge.Proxy.Availability

/-!
Sticky sessions: the answer of an upstream sets a cookie that names it, and a request that
returns the cookie goes to that upstream again.
-/

namespace PxxlEdge

open RustStd Http LoadBalancer List

/-! ### Pools -/

section Pools

variable {lb : LoadBalancer} {matched : RouteMatch} {location : GeoLocation}

def locationPool (matched : RouteMatch) (location : GeoLocation) : List Upstream :=
  match locationUpstreams matched.route.rules location with
  | some (_, upstreams) => upstreams
  | none => matched.path.upstreams

def pools (matched : RouteMatch) (location : GeoLocation) : List (List Upstream) :=
  let splits := matchingTrafficSplits matched.route.rules location
  if splits = [] then [locationPool matched location]
  else splits.map fun split => split.upstreams

lemma selectUpstreamPool_of_no_split
    (hnone : matchingTrafficSplits matched.route.rules location = []) :
    (selectUpstreamPool lb matched location).1.2 = locationPool matched location := by
  rw [selectUpstreamPool, locationPool]
  dsimp only
  rw [if_pos hnone]
  cases locationUpstreams matched.route.rules location <;> rfl

lemma selectUpstreamPool_of_index {i : ℕ} {split : TrafficSplitRule}
    (hindex : (lb.selectWeightedIndex (baseRouteKey matched ++ ":traffic_split")
      ((matchingTrafficSplits matched.route.rules location).map fun split => split.weight)).1 =
        some i)
    (hsplit : (matchingTrafficSplits matched.route.rules location)[i]? = some split) :
    (selectUpstreamPool lb matched location).1.2 = split.upstreams := by
  have hne : matchingTrafficSplits matched.route.rules location ≠ [] := by
    rintro hnil
    simp [hnil] at hsplit
  rw [selectUpstreamPool]
  dsimp only
  rw [if_neg hne, hindex, Option.bind_some, hsplit]
  rfl

lemma mem_pools_iff {pool : List Upstream} :
    pool ∈ pools matched location ↔
      ∃ lb, (selectUpstreamPool lb matched location).1.2 = pool := by
  set splits := matchingTrafficSplits matched.route.rules location with hsplits
  set weights := splits.map fun split => split.weight with hweights
  set key := baseRouteKey matched ++ ":traffic_split" with hkey
  by_cases hnone : splits = []
  · simp only [pools, ← hsplits, if_pos hnone, mem_singleton,
      selectUpstreamPool_of_no_split (hsplits ▸ hnone)]
    exact ⟨fun h => ⟨{}, h.symm⟩, fun ⟨_, h⟩ => h.symm⟩
  rw [pools, ← hsplits, if_neg hnone, mem_map]
  have hne : weights ≠ [] := by simpa [hweights] using hnone
  constructor
  · rintro ⟨split, hmem, rfl⟩
    obtain ⟨i, hi, rfl⟩ := mem_iff_getElem.mp hmem
    -- the counter stands where the list of indices has this one
    have hdrawn : i ∈ weightedIndices weights := mem_weightedIndices.mpr (by simpa [hweights])
    obtain ⟨n, hn, hget⟩ := mem_iff_getElem.mp hdrawn
    refine ⟨{ counters := (∅ : Map Text ℕ).insert key n }, ?_⟩
    refine selectUpstreamPool_of_index (i := i) ?_ (getElem?_eq_getElem hi)
    have hkeys : ((∅ : Map Text ℕ).insert key n).entries.length ≤ maxLoadBalancerKeys :=
      show 1 ≤ maxLoadBalancerKeys by decide
    rw [← hsplits, ← hweights, ← hkey, selectWeightedIndex_fst hne hkeys, counterOf,
      AList.lookup_insert, Option.getD_some, Nat.mod_eq_of_lt hn, getElem?_eq_getElem hn, hget]
  · rintro ⟨lb, rfl⟩
    have hchooses : Chooses (weightedIndices weights) (lb.selectWeightedIndex key weights).1 := by
      rw [selectWeightedIndex]
      dsimp only
      rw [if_neg hne]
      exact chooses_getElem?_mod _ _
    have hindices : weightedIndices weights ≠ [] := by
      have hfirst : 0 ∈ weightedIndices weights :=
        mem_weightedIndices.mpr (length_pos_of_ne_nil hne)
      exact ne_nil_of_mem hfirst
    obtain ⟨i, hi⟩ := Option.isSome_iff_exists.mp (hchooses.isSome hindices)
    have hlt : i < splits.length := by
      have hmem := mem_weightedIndices.mp (hchooses.mem i hi)
      rwa [hweights, length_map] at hmem
    refine ⟨splits[i], getElem_mem hlt, ?_⟩
    exact (selectUpstreamPool_of_index hi (getElem?_eq_getElem hlt)).symm

end Pools

/-! ### Cookies -/

section Cookies

def returnedCookie (setCookie : Text) : Text := setCookie.takeWhile fun c => c != ';'

def FirstCookie (G : Grammar) (headers : HeaderMap) (name cookie : Text) : Prop :=
  ∃ text, headerText G headers Header.cookie = some text ∧
    (((text.splitOn ';').map Text.trim).find? fun part =>
      (Text.splitOnce '=' part).map Prod.fst = some name) = some cookie

lemma cookieValue_eq (text name : Text) :
    cookieValue text name =
      (((text.splitOn ';').map Text.trim).find? fun part =>
        (Text.splitOnce '=' part).map Prod.fst = some name).bind fun part =>
          (Text.splitOnce '=' part).map Prod.snd := by
  rw [cookieValue]
  induction text.splitOn ';' with
  | nil => rfl
  | cons part parts ih =>
    rw [findSome?_cons, map_cons, find?_cons, ih]
    cases hsplit : Text.splitOnce '=' (Text.trim part) with
    | none => simp
    | some pair =>
      by_cases hname : pair.1 = name
      · simp [hname, hsplit]
      · simp [hname]

lemma returnedCookie_stickyCookie {sticky : StickySessionConfig} (hname : ';' ∉ sticky.cookieName)
    (u : Upstream) :
    returnedCookie (stickyCookie sticky u) =
      sticky.cookieName ++ '=' :: stickyUpstreamId u.url := by
  have hid : ';' ∉ stickyUpstreamId u.url :=
    not_mem_toDigits (by decide) le_rfl (by decide) _
  obtain ⟨attributes, hcookie⟩ : ∃ attributes, stickyCookie sticky u =
      (sticky.cookieName ++ '=' :: stickyUpstreamId u.url) ++ ';' :: attributes := by
    rw [stickyCookie]
    generalize stickyUpstreamId u.url = id
    simp only [append_assoc, cons_append]
    exact ⟨_, rfl⟩
  have hpair : ∀ c ∈ sticky.cookieName ++ '=' :: stickyUpstreamId u.url, (c != ';') = true := by
    intro c hc
    rw [bne_iff_ne]
    rintro rfl
    rcases mem_append.mp hc with hc | hc
    · exact hname hc
    · exact hid (mem_of_ne_of_mem (by decide) hc)
  rw [returnedCookie, hcookie, takeWhile_append_of_pos hpair,
    takeWhile_cons_of_neg (by simp), append_nil]

lemma cookieValue_of_firstCookie {G : Grammar} {headers : HeaderMap}
    {sticky : StickySessionConfig} {u : Upstream}
    (h : FirstCookie G headers sticky.cookieName (returnedCookie (stickyCookie sticky u))) :
    ∃ text, headerText G headers Header.cookie = some text ∧
      cookieValue text sticky.cookieName = some (stickyUpstreamId u.url) := by
  obtain ⟨text, htext, hfind⟩ := h
  refine ⟨text, htext, ?_⟩
  rw [cookieValue_eq, hfind, Option.bind_some]
  have hname := find?_some hfind
  rw [decide_eq_true_eq] at hname
  obtain ⟨⟨name, value⟩, hsplit, rfl : name = sticky.cookieName⟩ := Option.map_eq_some_iff.mp hname
  obtain ⟨hpair, -⟩ := Text.splitOnce_eq_some_iff.mp hsplit
  -- the name is a part of what was returned, which ends before the attributes
  have hsemicolon : ';' ∉ sticky.cookieName := by
    intro hmem
    have hmem' : ';' ∈ returnedCookie (stickyCookie sticky u) := by
      rw [hpair]
      exact mem_append_left _ hmem
    simpa using mem_takeWhile_imp hmem'
  rw [returnedCookie_stickyCookie hsemicolon] at hpair hsplit
  rw [returnedCookie_stickyCookie hsemicolon, hsplit]
  exact congrArg some (List.cons.inj (append_cancel_left hpair)).2.symm

end Cookies

/-! ### The choice -/

section Choice

variable {G : Grammar} {W : World G} {s : EdgeState} {routeKey : Text} {matched : RouteMatch}
  {upstreams : List Upstream} {remoteIp : Option IpAddr} {headers : HeaderMap}
  {middleware : EffectiveMiddleware} {u v : Upstream}

def chooseUpstream (W : World G) (s : EdgeState) (matched : RouteMatch) (location : GeoLocation)
    (remoteIp : Option IpAddr) (headers : HeaderMap) : Option Upstream × EdgeState :=
  let ((suffix, upstreams), loadBalancer) := selectUpstreamPool s.loadBalancer matched location
  selectAvailableUpstream W { s with loadBalancer } (baseRouteKey matched ++ suffix) matched
    upstreams remoteIp headers matched.middleware

lemma mem_of_selectAvailableUpstream
    (h : (selectAvailableUpstream W s routeKey matched upstreams remoteIp headers middleware).1 =
      some u) : u ∈ upstreams ∧ u.healthy = true := by
  have hselect : ∀ {lb : LoadBalancer} {backup clock i policy lb'},
      lb.select W.hashes routeKey matched.route.algorithm (PolicyEnforcer.availableUpstreams matched
        backup clock i policy upstreams).1 remoteIp = (some u, lb') →
        u ∈ upstreams ∧ u.healthy = true := by
    intro lb backup clock i policy lb' hu
    rcases lb.select_cases W.hashes routeKey matched.route.algorithm
      (PolicyEnforcer.availableUpstreams matched backup clock i policy upstreams).1 remoteIp with
      hchooses | ⟨-, -, hnone⟩
    · have hmem := mem_of_mem_filter (hchooses.mem u (congrArg Prod.fst hu))
      exact ⟨(mem_availableUpstreams hmem).1, (mem_availableUpstreams hmem).2.2⟩
    · rw [hu] at hnone
      cases hnone
  rcases hchoice : stickyChoice W s.policy matched upstreams headers middleware with ⟨choice, p⟩
  rw [selectAvailableUpstream, hchoice] at h
  cases choice with
  | some v =>
    obtain ⟨hv, havail⟩ := stickyChoice_fst.mp (congrArg Prod.fst hchoice)
    obtain rfl : v = u := Option.some.inj h
    exact ⟨mem_of_stickyUpstream hv, havail.1⟩
  | none =>
    dsimp only at h
    split at h
    · next hprimary =>
      cases h
      exact hselect hprimary
    · exact hselect (Prod.ext h rfl)

lemma stickyUpstream_of_firstCookie {sticky : StickySessionConfig}
    (henabled : sticky.enabled = true)
    (hdistinct : (upstreams.map fun v => stickyUpstreamId v.url).Nodup)
    (hcookie : FirstCookie G headers sticky.cookieName (returnedCookie (stickyCookie sticky u)))
    (hv : v ∈ upstreams) (hurl : v.url = u.url) :
    stickyUpstream G headers upstreams sticky = some v := by
  obtain ⟨text, htext, hvalue⟩ := cookieValue_of_firstCookie hcookie
  rw [stickyUpstream, if_pos henabled, htext, Option.bind_eq_bind, Option.bind_some, hvalue,
    Option.bind_some, ← hurl]
  cases hfind : upstreams.find? fun w => stickyUpstreamId w.url == stickyUpstreamId v.url with
  | none => simpa using find?_eq_none.mp hfind v hv
  | some w =>
    have hid : stickyUpstreamId w.url = stickyUpstreamId v.url := by
      simpa using find?_some hfind
    rw [inj_on_of_nodup_map hdistinct (mem_of_find?_eq_some hfind) hv hid]

end Choice

/-- **Affinity.**  Let a route have sticky sessions, and distinct ids in each of its pools.
Requests that return the cookie of an upstream, as the first of its name in the first Cookie
field, are served by that upstream whenever its circuit is closed, in every state of the edge,
exactly if it is in every pool of the route and healthy. -/
theorem sticky_affinity_iff {G : Grammar} (W : World G) (matched : RouteMatch)
    (location : GeoLocation) (headers : HeaderMap) (u : Upstream)
    (henabled : matched.middleware.stickySessions.enabled = true)
    (hdistinct : ∀ pool ∈ pools matched location,
      (pool.map fun v => stickyUpstreamId v.url).Nodup)
    (hcookie : FirstCookie G headers matched.middleware.stickySessions.cookieName
      (returnedCookie (stickyCookie matched.middleware.stickySessions u))) :
    (∀ s remoteIp, (s.policy.circuitIsOpen (W.clock .circuit 0) matched u.url).1 = false →
        (chooseUpstream W s matched location remoteIp headers).1.map (fun v => v.url) =
          some u.url) ↔
      ∀ pool ∈ pools matched location, ∃ v ∈ pool, v.url = u.url ∧ v.healthy = true := by
  constructor
  · intro h pool hpool
    obtain ⟨lb, rfl⟩ := mem_pools_iff.mp hpool
    obtain ⟨v, hv, hurl⟩ := Option.map_eq_some_iff.mp
      (h { table := .new [], loadBalancer := lb } none rfl)
    obtain ⟨hmem, hhealthy⟩ := mem_of_selectAvailableUpstream hv
    exact ⟨v, hmem, hurl, hhealthy⟩
  · intro h s remoteIp hclosed
    have hpool : (selectUpstreamPool s.loadBalancer matched location).1.2 ∈
        pools matched location := mem_pools_iff.mpr ⟨s.loadBalancer, rfl⟩
    obtain ⟨v, hv, hurl, hhealthy⟩ := h _ hpool
    have hsticky := stickyUpstream_of_firstCookie henabled (hdistinct _ hpool) hcookie hv hurl
    have havail : Available s.policy (W.clock .circuit 0) matched v :=
      ⟨hhealthy, hurl ▸ hclosed⟩
    have hchoice : (chooseUpstream W s matched location remoteIp headers).1 = some v :=
      selectAvailableUpstream_of_sticky (stickyChoice_fst.mpr ⟨hsticky, havail⟩)
    rw [hchoice, Option.map_some, hurl]

/-! ### A route with two upstreams -/

section Sample

def stickyMatch (trafficSplits : List TrafficSplitRule) : RouteMatch where
  route :=
    { id := "r", domain := "a.io", source := .api
      rules := { stickySessions := { enabled := true }, trafficSplits } }
  path :=
    { pathPrefix := "/", upstreams := [{ url := "http://blue:80" }, { url := "http://green:80" }] }

def blueGreenSplits : List TrafficSplitRule :=
  [{ upstreams := [{ url := "http://blue:80" }] }, { upstreams := [{ url := "http://green:80" }] }]

lemma firstCookie_stickyHeaders :
    FirstCookie .http1 (stickyHeaders "http://blue:80") "pxxl_upstream"
      (returnedCookie (stickyCookie { enabled := true } { url := "http://blue:80" })) :=
  ⟨"pxxl_upstream=" ++ stickyUpstreamId "http://blue:80", by decide,
    by decide⟩

/-- Without splits a client stays with its upstream, though it is the turn of the other. -/
theorem sticky_affinity_iff_one_pool :
    (chooseUpstream sampleWorld
      (chooseUpstream sampleWorld (sampleState {} []) (stickyMatch []) {} none ⟨[]⟩).2
      (stickyMatch []) {} none (stickyHeaders "http://blue:80")).1.map (fun v => v.url) =
        some "http://blue:80" := by
  have hpools : pools (stickyMatch []) {} =
      [[{ url := "http://blue:80" }, { url := "http://green:80" }]] := rfl
  have haffinity := (sticky_affinity_iff sampleWorld (stickyMatch []) {}
    (stickyHeaders "http://blue:80") { url := "http://blue:80" } rfl
    (by rw [hpools]; decide) firstCookie_stickyHeaders).mpr (by rw [hpools]; simp)
  exact haffinity _ none (by decide)

/-- The traffic of a route is split between two upstreams.  A first request is served by one of
them; the next one returns its cookie and is served by the other.  And without splits, a cookie in
a second Cookie field is not seen. -/
theorem affinity_lost :
    let first := chooseUpstream sampleWorld (sampleState {} []) (stickyMatch blueGreenSplits) {}
      none ⟨[]⟩
    first.1.map (fun u => u.url) = some "http://blue:80" ∧
      (first.2.policy.circuitIsOpen 0 (stickyMatch blueGreenSplits) "http://blue:80").1 = false ∧
      (chooseUpstream sampleWorld first.2 (stickyMatch blueGreenSplits) {} none
        (stickyHeaders "http://blue:80")).1.map (fun u => u.url) = some "http://green:80" ∧
      (chooseUpstream sampleWorld (sampleState {} []) (stickyMatch []) {} none
        ⟨(Header.cookie, .fromStatic "theme=dark") ::
          (stickyHeaders "http://green:80").entries⟩).1.map (fun u => u.url) =
        some "http://blue:80" := by
  decide

end Sample

end PxxlEdge
