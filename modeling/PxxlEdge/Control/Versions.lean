import PxxlEdge.Control.Writes
import PxxlEdge.Lib.Run

/-!
Concurrent internal updates of one host.  An update is checked against the
version that is registered, then waits for the name service, and only then
enters the registry: what the check has seen may be out of date by then.
-/

namespace PxxlEdge

open RustStd Run

/-! ### What the version check reads -/

lemma sourcePriority_le (s : RouteSource) : sourcePriority s ≤ 3 := by
  cases s <;> decide

lemma sourcePriority_eq_three {s : RouteSource} : sourcePriority s = 3 ↔ s = .api := by
  cases s <;> decide

lemma mergeBestDomainRoutes_api {routes : List Route} {r : Route}
    (h : (routes.filter fun r => r.source = .api) = [r]) :
    mergeBestDomainRoutes routes = some r := by
  have hmem : r ∈ routes.filter fun r => r.source = .api := by simp [h]
  obtain ⟨hr, hapi⟩ := List.mem_filter.mp hmem
  have hmax : (routes.map fun r => sourcePriority r.source).max? = some 3 := by
    refine List.max?_eq_some_iff.mpr ⟨?_, fun n hn => ?_⟩
    · exact List.mem_map.mpr ⟨r, hr, sourcePriority_eq_three.mpr (of_decide_eq_true hapi)⟩
    · obtain ⟨r', -, rfl⟩ := List.mem_map.mp hn
      exact sourcePriority_le r'.source
  have hselected : (routes.filter fun r => sourcePriority r.source == 3) = [r] := by
    rw [← h]
    refine List.filter_congr fun r' _ => ?_
    rw [Bool.eq_iff_iff, beq_iff_eq, decide_eq_true_iff]
    exact sourcePriority_eq_three
  rw [mergeBestDomainRoutes, hmax]
  simp only [hselected]

lemma findDomain_api {table : RouteTable} {host : Text} {r : Route}
    (hnormal : normalizeDomain host = host) (h : apiRoutesOf table host = [r]) :
    findDomain table host = some r := by
  have hfilter : ((routesOf table.byDomain host).filter fun r => r.source = .api) = [r] := by
    rw [table.indexed, List.filter_filter, ← h, apiRoutesOf]
    refine List.filter_congr fun r' _ => ?_
    rw [Bool.eq_iff_iff]
    simp
  rw [findDomain, hnormal]
  simp only [mergeBestDomainRoutes_api hfilter]

def hostVersion (table : RouteTable) (host : Text) : Option ℕ :=
  (apiRoutesOf table host).head?.map Route.routeVersion

def VersionLe (before after : Option ℕ) : Prop :=
  ∀ v, before = some v → ∃ v', after = some v' ∧ v ≤ v'

lemma VersionLe.refl (v : Option ℕ) : VersionLe v v := fun n hn => ⟨n, hn, le_rfl⟩

lemma version_le_of_not_stale {table : RouteTable} (htable : Reachable table) {route : Route}
    (hnormal : normalizeDomain route.domain = route.domain)
    (h : staleUpdate table route = false) {v : ℕ}
    (hv : hostVersion table route.domain = some v) : v ≤ route.routeVersion := by
  rw [hostVersion, Option.map_eq_some_iff] at hv
  obtain ⟨r, hr, rfl⟩ := hv
  obtain ⟨hmem, hkey⟩ := List.mem_filter.mp (List.mem_of_head? hr)
  obtain ⟨hapi, hdomain⟩ := of_decide_eq_true hkey
  have hfound : findDomain table route.domain = some r :=
    findDomain_api hnormal (hdomain ▸ apiRoutesOf_eq htable hmem hapi)
  rw [staleUpdate, hfound] at h
  simpa [hapi] using h

/-! ### The requests -/

structure PutRequest where
  path : Text
  body : InternalRouteBody
  env : WriteEnv := {}

inductive PutStage where
  | received
  | checked (route : Route)
  | cleared (route : Route)
  | answered (response : ApiResponse)

def PutStage.pending : PutStage → Option Route
  | received => none
  | checked route => some route
  | cleared route => some route
  | answered _ => none

structure PutState (ι : Type) where
  table : RouteTable
  stage : ι → PutStage

section Requests

variable (U : UrlParser) (vars : EnvVars) {ι : Type} [DecidableEq ι] (requests : ι → PutRequest)

def PutRequest.next (request : PutRequest) (table : RouteTable) :
    PutStage → RouteTable × PutStage
  | .received =>
    match internalRoute U vars request.env.now request.env.unixNow request.path
        request.body with
    | .error error => (table, .answered ⟨400, some error⟩)
    | .ok route =>
      if staleUpdate table route then (table, .answered ⟨409, some "stale route update"⟩)
      else (table, .checked route)
  | .checked route =>
    match validateApiRouteNetworkSafety U vars request.env.lookup route with
    | .error error => (table, .answered ⟨400, some error⟩)
    | .ok () => (table, .cleared route)
  | .cleared route => ((upsertApiRoute table route).1, .answered ⟨200, none⟩)
  | .answered response => (table, .answered response)

def PutState.step (s : PutState ι) (i : ι) : PutState ι where
  table := ((requests i).next U vars s.table (s.stage i)).1
  stage := Function.update s.stage i ((requests i).next U vars s.table (s.stage i)).2

def PutState.init (table : RouteTable) : PutState ι := ⟨table, fun _ => .received⟩

def NoOvertaking (s : PutState ι) (i : ι) : Prop :=
  ∀ route, s.stage i = .cleared route → ∀ j, j ≠ i → ∀ route', (s.stage j).pending = some route' →
    route.routeVersion ≤ route'.routeVersion

omit [DecidableEq ι] in
lemma steps_eq_upsertInternalRoute (request : PutRequest) (s : Stores) :
    let first := request.next U vars s.table .received
    let second := request.next U vars first.1 first.2
    (request.next U vars second.1 second.2).1 =
      (upsertInternalRoute U vars request.env request.path request.body s).2.table := by
  intro first second
  rw [upsertInternalRoute]
  cases hroute : internalRoute U vars request.env.now request.env.unixNow request.path
      request.body with
  | error error => simp [second, first, PutRequest.next, hroute]
  | ok route =>
    cases hstale : staleUpdate s.table route with
    | true => simp [second, first, PutRequest.next, hroute, hstale]
    | false =>
      cases hsafe : validateApiRouteNetworkSafety U vars request.env.lookup route with
      | error error => simp [second, first, PutRequest.next, hroute, hstale, hsafe]
      | ok u =>
        have htable := table_commitRoute U vars request.env route s
        cases hcommit : (commitRoute U vars request.env route s).1 <;>
          simp [second, first, PutRequest.next, hroute, hstale, hsafe, hcommit, htable]

/-! ### The invariant -/

structure PutState.Fresh (host : Text) (s : PutState ι) : Prop where
  reachable : Reachable s.table
  forHost : ∀ i route, (s.stage i).pending = some route → route.source = .api ∧ route.domain = host
  version : ∀ i route, (s.stage i).pending = some route →
    ∀ v, hostVersion s.table host = some v → v ≤ route.routeVersion

lemma hostVersion_upsert {table : RouteTable} (htable : Reachable table) {route : Route}
    (hsource : route.source = .api) :
    hostVersion (upsertApiRoute table route).1 route.domain = some route.routeVersion := by
  obtain ⟨-, installed, hinstalled, hroute⟩ := upsertApiRoute_frame htable hsource
  rw [hostVersion, hinstalled]
  rcases hroute with rfl | ⟨-, hequiv⟩
  · rfl
  · simp only [apiRoutesEquivalent, Bool.and_eq_true, beq_iff_eq] at hequiv
    simp [hequiv.2]

variable {U vars requests} {host : Text} {s : PutState ι}

omit [DecidableEq ι] in
lemma PutRequest.next_cases (request : PutRequest) (table : RouteTable) (stage : PutStage) :
    (∃ route, stage = .received ∧ internalRoute U vars request.env.now request.env.unixNow
        request.path request.body = .ok route ∧ staleUpdate table route = false ∧
        request.next U vars table stage = (table, .checked route)) ∨
    (∃ route, stage = .checked route ∧
        request.next U vars table stage = (table, .cleared route)) ∨
    (∃ route, stage = .cleared route ∧ request.next U vars table stage =
        ((upsertApiRoute table route).1, .answered ⟨200, none⟩)) ∨
    (∃ response, request.next U vars table stage = (table, .answered response)) := by
  cases stage with
  | received =>
    cases hroute : internalRoute U vars request.env.now request.env.unixNow request.path
        request.body with
    | error error => exact .inr (.inr (.inr ⟨⟨400, some error⟩, by simp [next, hroute]⟩))
    | ok route =>
      cases hstale : staleUpdate table route with
      | true =>
        exact .inr (.inr (.inr ⟨⟨409, some "stale route update"⟩,
          by simp [next, hroute, hstale]⟩))
      | false => exact .inl ⟨route, rfl, rfl, hstale, by simp [next, hroute, hstale]⟩
  | checked route =>
    cases hsafe : validateApiRouteNetworkSafety U vars request.env.lookup route with
    | error error => exact .inr (.inr (.inr ⟨⟨400, some error⟩, by simp [next, hsafe]⟩))
    | ok u => exact .inr (.inl ⟨route, rfl, by simp [next, hsafe]⟩)
  | cleared route => exact .inr (.inr (.inl ⟨route, rfl, rfl⟩))
  | answered response => exact .inr (.inr (.inr ⟨response, rfl⟩))

lemma PutState.Fresh.update (h : s.Fresh host) {i : ι} {stage : PutStage}
    (hown : ∀ route, stage.pending = some route → (route.source = .api ∧ route.domain = host) ∧
      ∀ v, hostVersion s.table host = some v → v ≤ route.routeVersion) :
    PutState.Fresh host ⟨s.table, Function.update s.stage i stage⟩ := by
  refine ⟨h.reachable, fun j route hj => ?_, fun j route hj => ?_⟩
  · by_cases hji : j = i
    · subst hji
      exact (hown route (by simpa using hj)).1
    · exact h.forHost j route (by simpa [Function.update_of_ne hji] using hj)
  · by_cases hji : j = i
    · subst hji
      exact (hown route (by simpa using hj)).2
    · exact h.version j route (by simpa [Function.update_of_ne hji] using hj)

lemma PutState.Fresh.enter (h : s.Fresh host) {i : ι} {route : Route}
    (hstage : s.stage i = .cleared route) (hi : NoOvertaking s i) (response : ApiResponse) :
    PutState.Fresh host
        ⟨(upsertApiRoute s.table route).1, Function.update s.stage i (.answered response)⟩ ∧
      VersionLe (hostVersion s.table host)
        (hostVersion (upsertApiRoute s.table route).1 host) := by
  have hpending : (s.stage i).pending = some route := by rw [hstage]; rfl
  obtain ⟨hsource, rfl⟩ := h.forHost i route hpending
  have hversion := hostVersion_upsert h.reachable hsource
  have hother : ∀ j route', (Function.update s.stage i (.answered response) j).pending =
      some route' → j ≠ i ∧ (s.stage j).pending = some route' := by
    intro j route' hj
    by_cases hji : j = i
    · subst hji
      simp [PutStage.pending] at hj
    · exact ⟨hji, by simpa [Function.update_of_ne hji] using hj⟩
  refine ⟨⟨h.reachable.upsert route, fun j route' hj => ?_, fun j route' hj v hv => ?_⟩, ?_⟩
  · exact h.forHost j route' (hother j route' hj).2
  · obtain ⟨hji, hj⟩ := hother j route' hj
    obtain rfl : route.routeVersion = v := Option.some.inj (hversion.symm.trans hv)
    exact hi route hstage j hji route' hj
  · intro v hv
    exact ⟨route.routeVersion, hversion, h.version i route hpending v hv⟩

lemma PutState.Fresh.step (h : s.Fresh host) {i : ι} (hnormal : normalizeDomain host = host)
    (hhost : internalRouteHost (requests i).path = host) (hi : NoOvertaking s i) :
    (s.step U vars requests i).Fresh host ∧
      VersionLe (hostVersion s.table host)
        (hostVersion (s.step U vars requests i).table host) := by
  rw [PutState.step]
  rcases (requests i).next_cases s.table (s.stage i) with
    ⟨route, -, hroute, hstale, hnext⟩ | ⟨route, hstage, hnext⟩ | ⟨route, hstage, hnext⟩ |
      ⟨response, hnext⟩
  · -- the check: the route that passes is not older than the registered one
    rw [hnext]
    obtain ⟨hsource, hdomain⟩ := internalRoute_eq_ok hroute
    rw [hhost] at hdomain
    subst hdomain
    refine ⟨h.update fun route' hroute' => ?_, VersionLe.refl _⟩
    obtain rfl := Option.some.inj hroute'
    exact ⟨⟨hsource, rfl⟩, fun v hv => version_le_of_not_stale h.reachable hnormal hstale hv⟩
  · rw [hnext]
    have hpending : (s.stage i).pending = some route := by rw [hstage]; rfl
    refine ⟨h.update fun route' hroute' => ?_, VersionLe.refl _⟩
    obtain rfl := Option.some.inj hroute'
    exact ⟨h.forHost i _ hpending, h.version i _ hpending⟩
  · rw [hnext]
    exact h.enter hstage hi _
  · rw [hnext]
    exact ⟨h.update fun route' hroute' => by simp [PutStage.pending] at hroute', VersionLe.refl _⟩

omit [DecidableEq ι] in
lemma fresh_init {table : RouteTable} (htable : Reachable table) :
    (PutState.init table : PutState ι).Fresh host where
  reachable := htable
  forHost := fun i route hi => by simp [PutState.init, PutStage.pending] at hi
  version := fun i route hi => by simp [PutState.init, PutStage.pending] at hi

variable (U vars requests host) in
/-- **Versions of one host.**  In every interleaving of requests for a host in its normal
form, in which no request enters its route while another one with a smaller version is past
its check, no step decreases the version of the host's API route. -/
theorem version_never_decreases (hnormal : normalizeDomain host = host)
    (hhost : ∀ i, internalRouteHost (requests i).path = host) (table : RouteTable)
    (htable : Reachable table) (schedule : List ι) (i : ι)
    (hrun : Along (PutState.step U vars requests) NoOvertaking (PutState.init table)
      (schedule ++ [i])) :
    VersionLe
      (hostVersion (run (PutState.step U vars requests) (PutState.init table) schedule).table host)
      (hostVersion
        (run (PutState.step U vars requests) (PutState.init table) (schedule ++ [i])).table
        host) := by
  obtain ⟨hschedule, hi⟩ := along_concat.mp hrun
  have hfresh : (run (PutState.step U vars requests) (PutState.init table) schedule).Fresh host :=
    hschedule.invariant _ (fun s i hs hi => (hs.step hnormal (hhost i) hi).1) (fresh_init htable)
  rw [run_append]
  exact (hfresh.step hnormal (hhost i) hi).2

end Requests

/-! ### Two updates -/

def versionUpdate (version : ℕ) : PutRequest where
  path := "/internal/routes/a.com"
  body := { upstream := some "http://new.example", routeVersion := some version }

def oldAndNew : Fin 2 → PutRequest
  | 0 => versionUpdate 1
  | 1 => versionUpdate 2

def oldAndNewAfter (schedule : List (Fin 2)) : PutState (Fin 2) :=
  run (PutState.step .basic (fun _ => none) oldAndNew) (PutState.init (RouteTable.new [])) schedule

lemma noOvertaking_of_alone {ι : Type} {s : PutState ι} {i : ι}
    (h : ∀ j, j ≠ i → (s.stage j).pending.isNone = true) : NoOvertaking s i := by
  intro route _ j hj route' hroute'
  have hnone := h j hj
  rw [hroute'] at hnone
  cases hnone

theorem version_never_decreases_one_after_the_other :
    hostVersion (oldAndNewAfter [0, 0, 0, 1, 1]).table "a.com" = some 1 ∧
      VersionLe (hostVersion (oldAndNewAfter [0, 0, 0, 1, 1]).table "a.com")
        (hostVersion (oldAndNewAfter [0, 0, 0, 1, 1, 1]).table "a.com") := by
  refine ⟨by decide, version_never_decreases .basic (fun _ => none) oldAndNew "a.com"
    (by decide) (by decide) (RouteTable.new []) ⟨[], by simp, rfl⟩ [0, 0, 0, 1, 1] 1
    ⟨?_, ?_, ?_, ?_, ?_, ?_, trivial⟩⟩
  all_goals
    refine noOvertaking_of_alone ?_
    decide

def bracketUpdate (version : ℕ) : PutRequest where
  path := "/internal/routes/[a:b]"
  body :=
    { host := some "[ [a:b]", upstream := some "http://new.example", routeVersion := some version }

def newAndOldBracket : Fin 2 → PutRequest
  | 0 => bracketUpdate 2
  | 1 => bracketUpdate 1

/-- Both updates pass the check, the newer one enters its route and then the older one does.
For a host that is not in its normal form this happens even to one request after the other. -/
theorem version_decreases :
    (hostVersion (oldAndNewAfter [0, 1, 0, 1, 1]).table "a.com" = some 2 ∧
      hostVersion (oldAndNewAfter [0, 1, 0, 1, 1, 0]).table "a.com" = some 1) ∧
    hostVersion (run (PutState.step .basic (fun _ => none) newAndOldBracket)
        (PutState.init (RouteTable.new [])) [0, 0, 0]).table "a:b" = some 2 ∧
      hostVersion (run (PutState.step .basic (fun _ => none) newAndOldBracket)
        (PutState.init (RouteTable.new [])) [0, 0, 0, 1, 1, 1]).table "a:b" = some 1 := by
  decide

end PxxlEdge
