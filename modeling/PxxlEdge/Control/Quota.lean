import PxxlEdge.Control.Durable
import PxxlEdge.Control.Startup

/-!
The quota of API routes.  A restart loads so many routes from Redis and so many
from the snapshot file, and the quota is to see to it that there are no more.  It
is checked where a domain is posted; internal updates and events go past it.
-/

namespace PxxlEdge

open RustStd Run List

/-! ### Requests -/

inductive RouteRequest where
  | write (write : RouteWrite)
  | deleteInternalRoute (path : Text)
  | deleteDomain (path : Text)

def HsetOutcome.made : HsetOutcome → Bool
  | unreachable _ => false
  | failed _ made => made
  | stored => true

def deleteRoute (env : WriteEnv) (domain : Text) (s : Stores) : Stores :=
  if domain = [] then s
  else
    { table := deleteApiDomain s.table domain
      redis := if env.hset.made then s.redis.erase (normalizeDomain domain) else s.redis }

section Requests

variable (U : UrlParser) (vars : EnvVars)

def RouteRequest.perform (env : WriteEnv) (s : Stores) : RouteRequest → Stores
  | write w => (w.perform U vars env s).2
  | deleteInternalRoute path => deleteRoute env (internalRouteHost path) s
  | deleteDomain path => deleteRoute env (adminDomain path) s

def requestStep (s : Stores) (request : RouteRequest × WriteEnv) : Stores :=
  request.1.perform U vars request.2 s

end Requests

/-! ### The number of API routes -/

def apiRoutes (table : RouteTable) : List Route := table.routes.filter fun r => r.source = .api

def apiCount (table : RouteTable) : ℕ := (apiRoutes table).length

lemma apiCount_eq (table : RouteTable) (domain : Text) :
    apiCount table = (apiRoutesOf table domain).length +
      ((otherRoutes table domain).filter fun r => r.source = .api).length := by
  rw [apiCount, apiRoutes, length_eq_length_filter_add fun r => decide (r.domain = domain),
    filter_filter, filter_filter, apiRoutesOf, otherRoutes, filter_filter]
  congr 2
  · refine filter_congr fun r _ => ?_
    by_cases hapi : r.source = .api <;> simp [hapi]
  · refine filter_congr fun r _ => ?_
    by_cases hapi : r.source = .api <;> simp [hapi]

variable {table : RouteTable} {route : Route}

lemma apiCount_upsert (htable : Reachable table) (hroute : route.source = .api) :
    apiCount (upsertApiRoute table route).1 =
      if apiRoutesOf table route.domain = [] then apiCount table + 1 else apiCount table := by
  obtain ⟨hother, installed, hinstalled, -⟩ := upsertApiRoute_frame htable hroute
  have hone : (apiRoutesOf table route.domain).length ≤ 1 := htable.invariant.oneApi route.domain
  rw [apiCount_eq _ route.domain, hother, hinstalled, apiCount_eq table route.domain]
  split
  · next hnil =>
    rw [hnil, length_nil, length_singleton]
    omega
  · next hne =>
    have hpos := length_pos_iff.mpr hne
    rw [length_singleton]
    omega

lemma apiCount_delete_le (htable : Reachable table) (domain : Text) :
    apiCount (deleteApiDomain table domain) ≤ apiCount table := by
  rw [apiCount_eq table domain, apiCount, apiRoutes, routes_deleteApiDomain htable]
  exact Nat.le_add_left _ _

section Quota

variable {U : UrlParser} {vars : EnvVars}

def RoomFor (table : RouteTable) (route : Route) : Prop :=
  apiRoutesOf table route.domain ≠ [] ∨ apiCount table < maxRoutesPerSource

lemma roomFor_of_quotaExceeded (h : quotaExceeded table route = false) : RoomFor table route := by
  rw [quotaExceeded, Bool.and_eq_false_iff, Bool.not_eq_false', any_eq_true,
    decide_eq_false_iff_not, not_le] at h
  refine h.imp (fun hdomain => ?_) id
  obtain ⟨r, hr, hd⟩ := hdomain
  obtain ⟨hmem, hapi⟩ := mem_filter.mp hr
  exact ne_nil_of_mem (mem_filter.mpr ⟨hmem, by simp_all⟩)

variable {s : Stores}

lemma roomFor_of_post {env : WriteEnv} {body : DomainRouteBody}
    (h : (RouteWrite.post body).accepted U vars env s = some route) : RoomFor s.table route := by
  rw [RouteWrite.accepted] at h
  cases hroute : body.intoRoute U vars env.now with
  | error error => simp [hroute] at h
  | ok r =>
    simp only [hroute] at h
    split_ifs at h with hsafe hquota
    obtain rfl := Option.some.inj h
    exact roomFor_of_quotaExceeded (Bool.eq_false_iff.mpr hquota)

lemma apiCount_upsert_le_iff (htable : Reachable table)
    (hroute : route.source = .api) (hcount : apiCount table ≤ maxRoutesPerSource) :
    apiCount (upsertApiRoute table route).1 ≤ maxRoutesPerSource ↔ RoomFor table route := by
  rw [apiCount_upsert htable hroute, RoomFor]
  split
  · next hnil => simp [hnil]
  · next hne => simp [hne, hcount]

/-! ### Runs -/

variable (U vars) in
def Within (s : Stores) (request : RouteRequest × WriteEnv) : Prop :=
  match request.1 with
  | .write (.put path body) =>
    ∀ route, (RouteWrite.put path body).accepted U vars request.2 s = some route →
      RoomFor s.table route
  | .write (.event event) =>
    ∀ route, (RouteWrite.event event).accepted U vars request.2 s = some route →
      RoomFor s.table route
  | _ => True

lemma within_write_iff {w : RouteWrite} {env : WriteEnv} :
    Within U vars s (.write w, env) ↔
      ∀ route, w.accepted U vars env s = some route → RoomFor s.table route := by
  cases w with
  | event event => rfl
  | put path body => rfl
  | post body => exact iff_of_true trivial fun route h => roomFor_of_post h

lemma table_perform (w : RouteWrite) (env : WriteEnv) (s : Stores) :
    (w.perform U vars env s).2.table = (w.accepted U vars env s).elim s.table fun route =>
      (upsertApiRoute s.table route).1 := by
  cases haccepted : w.accepted U vars env s with
  | none => rw [RouteWrite.perform_of_not_accepted haccepted, Option.elim_none]
  | some route =>
    rw [(RouteWrite.perform_of_accepted haccepted).2.1, table_commitRoute, Option.elim_some]

lemma table_deleteRoute (env : WriteEnv) (domain : Text) (s : Stores) :
    (deleteRoute env domain s).table =
      if domain = [] then s.table else deleteApiDomain s.table domain := by
  rw [deleteRoute]
  split <;> rfl

structure KeepsQuota (s : Stores) : Prop where
  reachable : Reachable s.table
  count : apiCount s.table ≤ maxRoutesPerSource

lemma reachable_deleteRoute (h : Reachable s.table) (env : WriteEnv)
    (domain : Text) : Reachable (deleteRoute env domain s).table := by
  rw [table_deleteRoute]
  split
  · exact h
  · exact h.delete domain

lemma reachable_requestStep (h : Reachable s.table)
    (request : RouteRequest × WriteEnv) : Reachable (requestStep U vars s request).table := by
  obtain ⟨request, env⟩ := request
  cases request with
  | write w =>
    rw [requestStep, RouteRequest.perform, table_perform]
    cases w.accepted U vars env s with
    | none => exact h
    | some route => exact h.upsert route
  | deleteInternalRoute path => exact reachable_deleteRoute h env _
  | deleteDomain path => exact reachable_deleteRoute h env _

lemma KeepsQuota.count_deleteRoute (h : KeepsQuota s) (env : WriteEnv)
    (domain : Text) : apiCount (deleteRoute env domain s).table ≤ maxRoutesPerSource := by
  rw [table_deleteRoute]
  split
  · exact h.count
  · exact (apiCount_delete_le h.reachable domain).trans h.count

lemma KeepsQuota.count_step_iff (h : KeepsQuota s) (request : RouteRequest × WriteEnv) :
    apiCount (requestStep U vars s request).table ≤ maxRoutesPerSource ↔
      Within U vars s request := by
  obtain ⟨request, env⟩ := request
  cases request with
  | write w =>
    rw [within_write_iff, requestStep, RouteRequest.perform, table_perform]
    cases haccepted : w.accepted U vars env s with
    | none => exact iff_of_true h.count (by simp)
    | some route =>
      have hapi := (RouteWrite.perform_of_accepted haccepted).1
      rw [Option.elim_some, apiCount_upsert_le_iff h.reachable hapi h.count]
      simp
  | deleteInternalRoute path => exact iff_of_true (h.count_deleteRoute env _) trivial
  | deleteDomain path => exact iff_of_true (h.count_deleteRoute env _) trivial

lemma KeepsQuota.step (h : KeepsQuota s) {request : RouteRequest × WriteEnv}
    (hwithin : Within U vars s request) : KeepsQuota (requestStep U vars s request) :=
  ⟨reachable_requestStep h.reachable request, (h.count_step_iff request).mpr hwithin⟩

lemma KeepsQuota.count_run_iff (h : KeepsQuota s) (requests : List (RouteRequest × WriteEnv)) :
    (∀ n, apiCount (run (requestStep U vars) s (requests.take n)).table ≤ maxRoutesPerSource) ↔
      Along (requestStep U vars) (Within U vars) s requests := by
  have htrue : Along (requestStep U vars) (fun _ _ => True) s requests :=
    along_of_forall fun _ _ => trivial
  exact forall_take_iff_along_of_invariant KeepsQuota
    (fun s => apiCount s.table ≤ maxRoutesPerSource) htrue h (fun s hs => hs.count)
    (fun s request hs _ => hs.count_step_iff request) fun s request hs _ hwithin => hs.step hwithin

/-! ### Redis -/

def Backed (s : Stores) : Prop :=
  ∀ key ∈ s.redis, ∃ r ∈ apiRoutes s.table, normalizeDomain r.domain = key

def DeletionsMade (request : RouteRequest × WriteEnv) : Prop :=
  match request.1 with
  | .write _ => True
  | _ => request.2.hset.made = true

lemma Backed.length_le (h : Backed s) :
    s.redis.entries.length ≤ apiCount s.table := by
  have hkeys : ∀ key ∈ s.redis,
      key ∈ ((apiRoutes s.table).map fun r => normalizeDomain r.domain).toFinset := by
    intro key hkey
    rw [mem_toFinset, mem_map]
    exact h key hkey
  calc s.redis.entries.length
      ≤ ((apiRoutes s.table).map fun r => normalizeDomain r.domain).toFinset.card :=
        Map.length_le_card hkeys
    _ ≤ ((apiRoutes s.table).map fun r => normalizeDomain r.domain).length :=
        toFinset_card_le _
    _ = apiCount s.table := length_map _

lemma mem_apiRoutes_upsert (htable : Reachable table) {route r : Route}
    (hroute : route.source = .api) (hchanged : (upsertApiRoute table route).2 = true) :
    r ∈ apiRoutes (upsertApiRoute table route).1 ↔
      r = route ∨ r ∈ apiRoutes table ∧ r.domain ≠ route.domain := by
  rw [apiRoutes, apiRoutes, routes_upsertApiRoute htable hroute hchanged, withApiRoute,
    mem_filter, mem_append, mem_withoutApiDomain, mem_singleton, mem_filter,
    decide_eq_true_iff]
  constructor
  · rintro ⟨⟨hr, hne⟩ | rfl, hapi⟩
    · exact .inr ⟨⟨hr, hapi⟩, fun hd => hne ⟨hapi, hd⟩⟩
    · exact .inl rfl
  · rintro (rfl | ⟨⟨hr, hapi⟩, hne⟩)
    · exact ⟨.inr rfl, hroute⟩
    · exact ⟨.inl ⟨hr, fun hd => hne hd.2⟩, hapi⟩

lemma Backed.commit (h : Backed s) (htable : Reachable s.table) (env : WriteEnv)
    (hroute : route.source = .api) :
    Backed (commitRoute U vars env route s).2 := by
  cases hchanged : (upsertApiRoute s.table route).2 with
  | false => rwa [commitRoute_unchanged hchanged]
  | true =>
    intro key hkey
    have hkeys : key = normalizeDomain route.domain ∨ key ∈ s.redis := by
      rw [commitRoute, hchanged, if_pos rfl] at hkey
      simp only [redisUpsertRoute_snd] at hkey
      split at hkey
      · exact (AList.mem_insert s.redis).mp hkey
      · exact .inr hkey
    have hmem : ∀ r, r ∈ apiRoutes (upsertApiRoute s.table route).1 ↔
        r = route ∨ r ∈ apiRoutes s.table ∧ r.domain ≠ route.domain :=
      fun r => mem_apiRoutes_upsert htable hroute hchanged
    rw [table_commitRoute]
    rcases hkeys with rfl | hkey
    · exact ⟨route, (hmem route).mpr (.inl rfl), rfl⟩
    · obtain ⟨r, hr, hnormal⟩ := h key hkey
      by_cases hd : r.domain = route.domain
      · exact ⟨route, (hmem route).mpr (.inl rfl), hd ▸ hnormal⟩
      · exact ⟨r, (hmem r).mpr (.inr ⟨hr, hd⟩), hnormal⟩

lemma Backed.deleteRoute (h : Backed s) (htable : Reachable s.table)
    {env : WriteEnv} (hmade : env.hset.made = true) (domain : Text) :
    Backed (deleteRoute env domain s) := by
  rw [PxxlEdge.deleteRoute, if_pos hmade]
  split
  · exact h
  · intro key hkey
    obtain ⟨hne, hold⟩ := AList.mem_erase.mp hkey
    obtain ⟨r, hr, hnormal⟩ := h key hold
    obtain ⟨hmem, hapi⟩ := mem_filter.mp hr
    -- a route of the domain has the entry that is deleted
    have hdomain : r.domain ≠ domain := fun hd => hne (hd ▸ hnormal).symm
    refine ⟨r, mem_filter.mpr ⟨?_, hapi⟩, hnormal⟩
    rw [routes_deleteApiDomain htable, otherRoutes, mem_filter]
    exact ⟨hmem, by simp [hdomain]⟩

lemma Backed.step (h : Backed s) (htable : Reachable s.table)
    {request : RouteRequest × WriteEnv} (hmade : DeletionsMade request) :
    Backed (requestStep U vars s request) := by
  obtain ⟨request, env⟩ := request
  cases request with
  | write w =>
    rw [requestStep, RouteRequest.perform]
    cases haccepted : w.accepted U vars env s with
    | none => rwa [RouteWrite.perform_of_not_accepted haccepted]
    | some route =>
      obtain ⟨hapi, hstores, -⟩ := RouteWrite.perform_of_accepted haccepted
      rw [hstores]
      exact h.commit htable env hapi
  | deleteInternalRoute path => exact h.deleteRoute htable hmade _
  | deleteDomain path => exact h.deleteRoute htable hmade _

/-! ### From the start to a restart -/

variable (U vars) in
def started (static file : List Route) (redis : Map Text Route) : Stores :=
  ⟨RouteTable.new (startupRoutes U vars static file redis), redis⟩

variable (U vars) in
structure StartsWithin (static file : List Route) (redis : Map Text Route) : Prop where
  loads : ∃ routes, redisLoadRoutes U vars redis = .ok routes
  few : redis.entries.length ≤ maxRoutesPerSource
  keyed : ∀ key r, redis.lookup key = some r →
    normalizeDomain r.domain = key ∧ normalizeDomain key = key
  count : apiCount (started U vars static file redis).table ≤ maxRoutesPerSource

lemma eq_of_checkLoaded {r loaded : Route} (h : checkLoaded U vars r = .ok loaded) :
    loaded = loadedRoute r := by
  rw [checkLoaded] at h
  split at h
  · cases h
  · exact (Except.ok.inj h).symm

lemma loadedRoute_mem {redis : Map Text Route} (hfew : redis.entries.length ≤ maxRoutesPerSource)
    {routes : List Route} (hload : redisLoadRoutes U vars redis = .ok routes) {key : Text}
    {r : Route} (hr : redis.lookup key = some r) : loadedRoute r ∈ routes := by
  rw [redisLoadRoutes_eq, take_of_length_le (by rwa [length_map])] at hload
  have hmem : r ∈ redis.entries.map fun e => e.2 :=
    mem_map.mpr ⟨⟨key, r⟩, AList.mem_lookup_iff.mp hr, rfl⟩
  obtain ⟨loaded, hloaded⟩ := exists_mapM_eq_ok.mp ⟨routes, hload⟩ r hmem
  rw [← eq_of_checkLoaded hloaded]
  exact (mem_iff_of_mapM_eq_ok hload).mpr ⟨r, hmem, hloaded⟩

lemma exists_mem_apiRoutes_new {routes : List Route} {r : Route} (hr : r ∈ routes)
    (hapi : r.source = .api) :
    ∃ r' ∈ apiRoutes (RouteTable.new routes), r'.domain = r.domain := by
  obtain ⟨r', hr', heq⟩ : ∃ r' ∈ dedupeRoutes routes, dedupeKey r' = dedupeKey r :=
    exists_mem_lastByKey dedupeKey hr
  obtain ⟨hapi', hdomain⟩ := (dedupeKey_eq_api_iff hapi).mp heq
  exact ⟨r', mem_filter.mpr ⟨hr', by simp [hapi']⟩, hdomain⟩

lemma StartsWithin.backed {static file : List Route} {redis : Map Text Route}
    (h : StartsWithin U vars static file redis) : Backed (started U vars static file redis) := by
  intro key hkey
  obtain ⟨routes, hload⟩ := h.loads
  obtain ⟨r, hr⟩ := Option.isSome_iff_exists.mp (AList.lookup_isSome.mpr hkey)
  obtain ⟨hnormal, hkeyed⟩ := h.keyed key r hr
  have hmem : loadedRoute r ∈ startupRoutes U vars static file redis := by
    rw [startupRoutes, hload]
    exact mem_append_right _ (loadedRoute_mem h.few hload hr)
  obtain ⟨r', hr', hdomain⟩ := exists_mem_apiRoutes_new hmem rfl
  refine ⟨r', hr', ?_⟩
  rw [hdomain, loadedRoute, hnormal, hkeyed]

lemma StartsWithin.keepsQuota {static file : List Route} {redis : Map Text Route}
    (h : StartsWithin U vars static file redis) :
    KeepsQuota (started U vars static file redis) :=
  ⟨⟨_, fun _ _ => trivial, rfl⟩, h.count⟩

lemma length_apiRoutesSnapshot (table : RouteTable) :
    (apiRoutesSnapshot table).length = apiCount table := by
  rw [apiRoutesSnapshot, length_insertionSort]
  rfl

variable (U vars) in
/-- **The quota of API routes.**  From a start within the quota, a run of requests and events
keeps the quota in every state exactly if no update and no event brings in a domain when the
quota is used up.  After such a run, a restart reads every route of the snapshot, and every entry
of Redis if all deletions were made there. -/
theorem quota_kept_iff (static file : List Route) (redis : Map Text Route)
    (hstart : StartsWithin U vars static file redis)
    (requests : List (RouteRequest × WriteEnv)) :
    ((∀ n, apiCount (run (requestStep U vars) (started U vars static file redis)
        (requests.take n)).table ≤ maxRoutesPerSource) ↔
      Along (requestStep U vars) (Within U vars) (started U vars static file redis) requests) ∧
    (Along (requestStep U vars) (Within U vars) (started U vars static file redis) requests →
      let s := run (requestStep U vars) (started U vars static file redis) requests
      loadHttpRoutesFromFile (apiRoutesSnapshot s.table) =
          ((apiRoutesSnapshot s.table).map loadedRoute).filter (fun r => r.domain ≠ []) ∧
        ((∀ request ∈ requests, DeletionsMade request) →
          redisLoadRoutes U vars s.redis =
            (s.redis.entries.map fun e => e.2).mapM (checkLoaded U vars))) := by
  refine ⟨hstart.keepsQuota.count_run_iff requests, ?_⟩
  intro hwithin s
  have hquota : KeepsQuota s :=
    hwithin.invariant KeepsQuota (fun s request hs hrequest => hs.step hrequest) hstart.keepsQuota
  refine ⟨take_of_length_le ?_, fun hmade => ?_⟩
  · refine (length_filter_le _ _).trans ?_
    rw [length_map, length_apiRoutesSnapshot]
    exact hquota.count
  · have hmade' : Along (requestStep U vars) (fun _ request => DeletionsMade request)
        (started U vars static file redis) requests := along_of_forall hmade
    have hbacked : Reachable s.table ∧ Backed s :=
      hmade'.invariant (fun s => Reachable s.table ∧ Backed s)
        (fun s request hs hrequest =>
          ⟨reachable_requestStep hs.1 request, hs.2.step hs.1 hrequest⟩)
        ⟨hstart.keepsQuota.reachable, hstart.backed⟩
    rw [redisLoadRoutes_eq, take_of_length_le]
    rw [length_map]
    exact hbacked.2.length_le.trans hquota.count

end Quota

/-! ### A full registry -/

def crowdRoute (n : ℕ) : Route where
  id := "api"
  domain := List.replicate (n + 1) 'a'
  source := .api
  paths := [{ pathPrefix := "/", upstreams := [{ url := "http://web.example" }] }]

def crowd (count : ℕ) : List Route := (List.range count).map crowdRoute

lemma loadedRoute_crowdRoute (n : ℕ) : loadedRoute (crowdRoute n) = crowdRoute n := by
  have hnormal : normalizeDomain (crowdRoute n).domain = (crowdRoute n).domain := by
    refine normalizeDomain_eq_self (by simp [crowdRoute]) (fun c hc => ?_)
      (by simp [crowdRoute, getLast?_replicate])
    rw [eq_of_mem_replicate hc]
    decide
  rw [loadedRoute, hnormal]
  rfl

section Crowd

variable {count : ℕ}

lemma length_crowd : (crowd count).length = count := by
  rw [crowd, length_map, length_range]

lemma filter_crowd {p : Route → Bool} (h : ∀ n, p (crowdRoute n) = true) :
    (crowd count).filter p = crowd count := by
  refine filter_eq_self.mpr fun r hr => ?_
  obtain ⟨n, -, rfl⟩ := mem_map.mp hr
  exact h n

lemma loadHttpRoutesFromFile_crowd (h : count ≤ maxRoutesPerSource) :
    loadHttpRoutesFromFile (crowd count) = crowd count := by
  have hloaded : (crowd count).map loadedRoute = crowd count := by
    rw [crowd, map_map]
    exact map_congr_left fun n _ => loadedRoute_crowdRoute n
  rw [loadHttpRoutesFromFile, hloaded, filter_crowd (by simp [crowdRoute]),
    take_of_length_le (length_crowd.trans_le h)]

lemma nodup_crowd : ((crowd count).map dedupeKey).Nodup := by
  rw [crowd, map_map]
  refine List.Nodup.map (fun m n hmn => ?_) nodup_range
  have hdomain : (crowdRoute m).domain = (crowdRoute n).domain :=
    ((dedupeKey_eq_api_iff rfl).mp hmn).2
  simpa [crowdRoute] using congrArg List.length hdomain

variable (U : UrlParser) (vars : EnvVars)

lemma redisLoadRoutes_empty : redisLoadRoutes U vars ∅ = .ok [] := by
  simp [redisLoadRoutes, pure, Except.pure]

lemma routes_started_crowd (h : count ≤ maxRoutesPerSource) :
    (started U vars [] (crowd count) ∅).table.routes = crowd count := by
  have hstart : startupRoutes U vars [] (crowd count) ∅ = crowd count := by
    rw [startupRoutes, loadHttpRoutesFromFile_crowd h, redisLoadRoutes_empty, nil_append,
      append_nil]
  rw [started, hstart]
  exact lastByKey_of_nodup nodup_crowd

lemma apiCount_started_crowd (h : count ≤ maxRoutesPerSource) :
    apiCount (started U vars [] (crowd count) ∅).table = count := by
  rw [apiCount, apiRoutes, routes_started_crowd U vars h, filter_crowd (by simp [crowdRoute]),
    length_crowd]

lemma apiRoutesOf_started_crowd (h : count ≤ maxRoutesPerSource) :
    apiRoutesOf (started U vars [] (crowd count) ∅).table
      (containerStarted.newRoute 0).domain = [] := by
  rw [apiRoutesOf, routes_started_crowd U vars h, filter_eq_nil_iff]
  intro r hr hd
  obtain ⟨n, -, rfl⟩ := mem_map.mp hr
  have hdot : '.' ∈ (crowdRoute n).domain := by
    rw [(of_decide_eq_true hd).2]
    decide
  exact absurd (eq_of_mem_replicate hdot) (by decide)

lemma startsWithin_crowd (h : count ≤ maxRoutesPerSource) :
    StartsWithin U vars [] (crowd count) ∅ where
  loads := ⟨[], redisLoadRoutes_empty U vars⟩
  few := by simp
  keyed := by simp
  count := (apiCount_started_crowd U vars h).trans_le h

end Crowd

def startContainer : RouteRequest × WriteEnv := (.write (.event containerStarted), {})

lemma accepted_containerStarted (s : Stores) :
    (RouteWrite.event containerStarted).accepted .basic (fun _ => none) {} s =
      some (containerStarted.newRoute 0) := by
  have hvalid : (containerStarted.newRoute 0).validateForDynamicControlPlane .basic
      (fun _ => none) = .ok () := by
    decide
  rw [RouteWrite.accepted, RuntimeRouteEvent.intoRoute, hvalid]
  rfl

lemma table_startContainer (s : Stores) :
    (requestStep .basic (fun _ => none) s startContainer).table =
      (upsertApiRoute s.table (containerStarted.newRoute 0)).1 := by
  rw [requestStep, startContainer, RouteRequest.perform, table_perform,
    accepted_containerStarted, Option.elim_some]

theorem quota_kept_one_container :
    apiCount (run (requestStep .basic fun _ => none)
      (started .basic (fun _ => none) [] (crowd 1) ∅) [startContainer]).table ≤
        maxRoutesPerSource := by
  have hone : 1 ≤ maxRoutesPerSource := by decide
  refine (quota_kept_iff .basic (fun _ => none) [] (crowd 1) ∅
    (startsWithin_crowd .basic _ hone) [startContainer]).1.mpr ⟨fun route _ => .inr ?_, trivial⟩ 1
  rw [apiCount_started_crowd .basic _ hone]
  decide

lemma apiCount_startContainer {count : ℕ} (h : count ≤ maxRoutesPerSource) :
    apiCount (requestStep .basic (fun _ => none)
      (started .basic (fun _ => none) [] (crowd count) ∅) startContainer).table = count + 1 := by
  rw [table_startContainer,
    apiCount_upsert (startsWithin_crowd .basic _ h).keepsQuota.reachable rfl,
    if_pos (apiRoutesOf_started_crowd .basic _ h), apiCount_started_crowd .basic _ h]

lemma length_load_lt (h : maxRoutesPerSource < apiCount table) :
    (loadHttpRoutesFromFile (apiRoutesSnapshot table)).length <
      (apiRoutesSnapshot table).length := by
  rw [length_apiRoutesSnapshot]
  exact (length_take_le _ _).trans_lt h

/-- The edge starts with as many routes as it loads, and a container starts.  Now there is one
more, and a restart drops one from the snapshot. -/
theorem event_exceeds_quota :
    StartsWithin .basic (fun _ => none) [] (crowd maxRoutesPerSource) ∅ ∧
      let s := requestStep .basic (fun _ => none)
        (started .basic (fun _ => none) [] (crowd maxRoutesPerSource) ∅) startContainer
      apiCount s.table = maxRoutesPerSource + 1 ∧
        (loadHttpRoutesFromFile (apiRoutesSnapshot s.table)).length <
          (apiRoutesSnapshot s.table).length := by
  refine ⟨startsWithin_crowd .basic _ (le_refl maxRoutesPerSource), ?_⟩
  have hcount := apiCount_startContainer (le_refl maxRoutesPerSource)
  exact ⟨hcount, length_load_lt ((Nat.lt_succ_self _).trans_eq hcount.symm)⟩

end PxxlEdge
