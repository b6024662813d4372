import PxxlEdge.Common.Validate
import PxxlEdge.Core.Concurrent
import PxxlEdge.Lib.LastByKey

/-!
The tables that the registry publishes.  Every update writes a table made by
`RouteTable.new`, so whatever its updates are and however they run into each
other, the table in force is without repetitions and correctly indexed.
-/

namespace PxxlEdge

open RustStd Atomic List

/-! ### Deduplication -/

lemma dedupeRoutes_eq (routes : List Route) : dedupeRoutes routes = lastByKey dedupeKey routes :=
  rfl

lemma dedupeRoutes_keepsLast (routes : List Route) :
    KeepsLast dedupeKey routes (dedupeRoutes routes) :=
  keepsLast_lastByKey dedupeKey routes

lemma nodup_dedupeRoutes (routes : List Route) : ((dedupeRoutes routes).map dedupeKey).Nodup :=
  nodup_lastByKey dedupeKey routes

lemma mem_of_mem_dedupeRoutes {routes : List Route} {r : Route} (h : r ∈ dedupeRoutes routes) :
    r ∈ routes :=
  mem_of_mem_lastByKey h

lemma new_dedupeRoutes (routes : List Route) :
    RouteTable.new (dedupeRoutes routes) = RouteTable.new routes := by
  have hidem : dedupeRoutes (dedupeRoutes routes) = dedupeRoutes routes :=
    lastByKey_of_nodup (nodup_dedupeRoutes routes)
  simp only [RouteTable.new, hidem]

def Route.slot (route : Route) : RouteSource × Text × Option Text :=
  (route.source, route.domain, if route.source = .api then none else some route.id)

lemma append_colon_inj {a b x y : Text} (ha : ':' ∉ a) (hb : ':' ∉ b) :
    a ++ ':' :: x = b ++ ':' :: y ↔ a = b ∧ x = y := by
  refine ⟨fun h => ?_, fun ⟨hab, hxy⟩ => by rw [hab, hxy]⟩
  have htake : ∀ {c : Text}, ':' ∉ c → ∀ z, (c ++ ':' :: z).takeWhile (· != ':') = c := by
    intro c hc z
    have hne : ∀ d ∈ c, (d != ':') = true := fun d hd =>
      bne_iff_ne.mpr fun hdc => hc (hdc ▸ hd)
    rw [takeWhile_append_of_pos hne]
    simp
  have hab : a = b := by rw [← htake ha x, h, htake hb y]
  subst hab
  simpa using h

def RouteSource.keyWord : RouteSource → Text
  | .api => "api"
  | source => source.debug

lemma dedupeKey_eq (route : Route) :
    dedupeKey route = route.source.keyWord ++ ':' ::
      (if route.source = .api then route.domain else route.domain ++ ':' :: route.id) := by
  rw [dedupeKey]
  cases route.source <;> simp [RouteSource.keyWord]

lemma keyWord_injective : Function.Injective RouteSource.keyWord := by
  intro s t
  cases s <;> cases t <;> decide

lemma not_mem_keyWord (source : RouteSource) : ':' ∉ source.keyWord := by
  cases source <;> decide

lemma dedupeKey_eq_iff {a b : Route} (ha : ':' ∉ a.domain) (hb : ':' ∉ b.domain) :
    dedupeKey a = dedupeKey b ↔ a.slot = b.slot := by
  rw [dedupeKey_eq, dedupeKey_eq, append_colon_inj (not_mem_keyWord _) (not_mem_keyWord _),
    keyWord_injective.eq_iff, Route.slot, Route.slot, Prod.mk.injEq]
  refine and_congr_right fun hsource => ?_
  rw [hsource]
  by_cases hapi : b.source = .api
  · simp [hapi]
  · simp [hapi, append_colon_inj ha hb]

lemma dedupeRoutes_keepsLast_slot {routes : List Route}
    (h : ∀ r ∈ routes, ValidDomain r.domain) :
    KeepsLast Route.slot routes (dedupeRoutes routes) := by
  have hkeys : lastByKey dedupeKey routes = lastByKey Route.slot routes :=
    lastByKey_congr fun a ha b hb =>
      dedupeKey_eq_iff (h a ha).not_mem_colon (h b hb).not_mem_colon
  rw [dedupeRoutes_eq, hkeys]
  exact keepsLast_lastByKey Route.slot routes

lemma dedupeKey_eq_api_iff {r route : Route} (hroute : route.source = .api) :
    dedupeKey r = dedupeKey route ↔ r.source = .api ∧ r.domain = route.domain := by
  rw [dedupeKey_eq, dedupeKey_eq, append_colon_inj (not_mem_keyWord _) (not_mem_keyWord _),
    keyWord_injective.eq_iff, hroute]
  refine and_congr_right fun hr => ?_
  simp [hr]

lemma withoutApiDomain_eq (domain : Text) (routes : List Route) :
    withoutApiDomain domain routes =
      routes.filter fun r => ¬ (r.source = .api ∧ r.domain = domain) := by
  refine filter_congr fun r _ => ?_
  rw [Bool.eq_iff_iff]
  simp [imp_iff_not_or]

lemma mem_withoutApiDomain {domain : Text} {routes : List Route} {r : Route} :
    r ∈ withoutApiDomain domain routes ↔
      r ∈ routes ∧ ¬ (r.source = .api ∧ r.domain = domain) := by
  rw [withoutApiDomain_eq, mem_filter, decide_eq_true_iff]

lemma dedupeRoutes_withApiRoute {routes : List Route} (hnodup : (routes.map dedupeKey).Nodup)
    {route : Route} (hroute : route.source = .api) :
    dedupeRoutes (withApiRoute route routes) = withApiRoute route routes := by
  refine lastByKey_of_nodup ?_
  rw [withApiRoute, map_append, map_singleton, ← concat_eq_append]
  refine List.Nodup.concat (fun hkey => ?_) (hnodup.sublist (filter_sublist.map dedupeKey))
  obtain ⟨r, hr, hrkey⟩ := mem_map.mp hkey
  exact (mem_withoutApiDomain.mp hr).2 ((dedupeKey_eq_api_iff hroute).mp hrkey)

/-! ### Runs -/

inductive RegistryOp where
  | replaceAll (routes : List Route)
  | call (call : Call)

def RegistryOp.setSingleUpstreamHealth (upstreamUrl : Text) (healthy : Bool) : RegistryOp :=
  .call (.setUpstreamHealth (Map.ofList [(upstreamUrl, healthy)]))

def RegistryOp.prog : RegistryOp → Prog RouteTable
  | replaceAll routes => PxxlEdge.replaceAll routes
  | call c => c.prog

def publishedTable {ι : Type*} [DecidableEq ι] (initial : List Route) (ops : ι → RegistryOp)
    (schedule : List ι) : RouteTable :=
  ((Sys.init (RouteTable.new initial)).run (fun i => (ops i).prog) schedule).cell

def RegistryOp.routes : RegistryOp → List Route
  | replaceAll routes => routes
  | call (.replaceSource _ routes) => routes
  | call (.upsertApiRoute route) => [route]
  | call _ => []

def Written (P : Route → Prop) (table : RouteTable) : Prop :=
  ∃ written, (∀ r ∈ written, P r) ∧ table = RouteTable.new written

def HealthBlind (P : Route → Prop) : Prop :=
  ∀ route onPath f, (∀ u, ∃ healthy, f u = { u with healthy }) → P route →
    P (route.mapUpstreams onPath f)

section Written

variable {P : Route → Prop} {routes : List Route}

lemma Written.forall_mem {table : RouteTable} (h : Written P table) :
    ∀ r ∈ table.routes, P r := by
  obtain ⟨written, hwritten, rfl⟩ := h
  exact fun r hr => hwritten r (mem_of_mem_dedupeRoutes hr)

lemma written_replaceAll (h : ∀ r ∈ routes, P r) : (replaceAll routes).Keeps (Written P) :=
  ⟨routes, h, rfl⟩

lemma HealthBlind.withUpstreamHealth (hP : HealthBlind P) {health : Map Text Bool}
    (h : ∀ r ∈ routes, P r) : ∀ r ∈ withUpstreamHealth health routes, P r := by
  intro r hr
  obtain ⟨r', hr', rfl⟩ := mem_map.mp hr
  refine hP r' _ _ (fun u => ?_) (h r' hr')
  split
  · exact ⟨_, rfl⟩
  · exact ⟨u.healthy, rfl⟩

lemma HealthBlind.withRouteUpstreamHealth (hP : HealthBlind P) {update : RouteUpstreamHealth}
    (h : ∀ r ∈ routes, P r) : ∀ r ∈ withRouteUpstreamHealth update routes, P r := by
  intro r hr
  obtain ⟨r', hr', rfl⟩ := mem_map.mp hr
  split
  · exact h r' hr'
  · refine hP r' _ _ (fun u => ?_) (h r' hr')
    split
    · exact ⟨_, rfl⟩
    · exact ⟨u.healthy, rfl⟩

lemma HealthBlind.withRouteUpstreamHealthMany (hP : HealthBlind P)
    {updates : List RouteUpstreamHealth} (h : ∀ r ∈ routes, P r) :
    ∀ r ∈ withRouteUpstreamHealthMany updates routes, P r := by
  induction updates generalizing routes with
  | nil => exact h
  | cons update updates ih =>
    refine ih ?_
    dsimp only
    split
    · exact h
    · exact hP.withRouteUpstreamHealth h

lemma Call.keeps_written (hP : HealthBlind P) (c : Call)
    (h : ∀ r ∈ (RegistryOp.call c).routes, P r) : c.prog.Keeps (Written P) := by
  cases c with
  | replaceSource source routes =>
    refine fun table htable => written_replaceAll fun r hr => ?_
    rcases mem_append.mp hr with hr | hr
    · exact htable.forall_mem r (mem_of_mem_filter hr)
    · exact h r hr
  | upsertApiRoute route =>
    intro table _
    dsimp only
    split
    · trivial
    · refine fun table htable => written_replaceAll fun r hr => ?_
      rcases mem_append.mp hr with hr | hr
      · exact htable.forall_mem r (mem_of_mem_filter hr)
      · exact h r hr
  | deleteApiDomain domain =>
    exact fun table htable => written_replaceAll fun r hr =>
      htable.forall_mem r (mem_of_mem_filter hr)
  | setUpstreamHealth health =>
    rw [Call.prog]
    split
    · trivial
    · exact fun table htable => written_replaceAll (hP.withUpstreamHealth htable.forall_mem)
  | setRouteUpstreamHealth update =>
    rw [Call.prog]
    split
    · trivial
    · exact fun table htable => written_replaceAll (hP.withRouteUpstreamHealth htable.forall_mem)
  | setRouteUpstreamHealthMany updates =>
    rw [Call.prog]
    split
    · trivial
    · exact fun table htable =>
        written_replaceAll (hP.withRouteUpstreamHealthMany htable.forall_mem)

end Written

def Published (D : Text → Prop) (table : RouteTable) : Prop :=
  ∃ written, (∀ r ∈ written, D r.domain) ∧ table = RouteTable.new written

variable {D : Text → Prop}

lemma healthBlind_domain : HealthBlind fun r => D r.domain := fun _ _ _ _ h => h

lemma published_replaceAll {routes : List Route} (h : ∀ r ∈ routes, D r.domain) :
    (replaceAll routes).Keeps (Published D) :=
  ⟨routes, h, rfl⟩

lemma Call.keeps (c : Call) (h : ∀ r ∈ (RegistryOp.call c).routes, D r.domain) :
    c.prog.Keeps (Published D) :=
  c.keeps_written healthBlind_domain h

lemma RegistryOp.keeps (op : RegistryOp) (h : ∀ r ∈ op.routes, D r.domain) :
    op.prog.Keeps (Published D) := by
  cases op with
  | replaceAll routes => exact published_replaceAll h
  | call c => exact c.keeps h

lemma published_run {ι : Type*} [DecidableEq ι] {initial : List Route} {ops : ι → RegistryOp}
    (hinitial : ∀ r ∈ initial, D r.domain) (hops : ∀ i, ∀ r ∈ (ops i).routes, D r.domain)
    (schedule : List ι) : Published D (publishedTable initial ops schedule) :=
  run_keeps ⟨initial, hinitial, rfl⟩ (fun i => (ops i).keeps (hops i)) schedule

/-! ### What holds of every table -/

structure TableInvariant (table : RouteTable) : Prop where
  index : ∀ domain, routesOf table.byDomain domain = table.routes.filter fun r => r.domain = domain
  oneApi : ∀ domain,
    (table.routes.filter fun r => r.source = .api ∧ r.domain = domain).length ≤ 1
  distinct : table.routes.Pairwise fun a b =>
    a.source ≠ .api → ¬ (a.source = b.source ∧ a.domain = b.domain ∧ a.id = b.id)

lemma Published.nodup {table : RouteTable} (h : Published D table) :
    (table.routes.map dedupeKey).Nodup := by
  obtain ⟨written, -, rfl⟩ := h
  exact nodup_dedupeRoutes written

lemma dedupeKey_api {r : Route} (h : r.source = .api) :
    dedupeKey r = "api:".toList ++ r.domain := by
  rw [dedupeKey, h]

lemma Published.invariant {table : RouteTable} (h : Published D table) : TableInvariant table where
  index := table.indexed
  oneApi := fun domain => by
    have hnodup : ((table.routes.filter fun r => r.source = .api ∧ r.domain = domain).map
        dedupeKey).Nodup :=
      h.nodup.sublist (filter_sublist.map dedupeKey)
    have hconst : ∀ k ∈ (table.routes.filter fun r => r.source = .api ∧ r.domain = domain).map
        dedupeKey, k = "api:".toList ++ domain := by
      rintro k hk
      obtain ⟨r, hr, rfl⟩ := mem_map.mp hk
      obtain ⟨hapi, hdomain⟩ := of_decide_eq_true (mem_filter.mp hr).2
      rw [dedupeKey_api hapi, hdomain]
    rw [← length_map dedupeKey]
    rw [eq_replicate_of_mem hconst] at hnodup
    exact nodup_replicate.mp hnodup
  distinct := by
    have hnodup := pairwise_map.mp h.nodup
    refine hnodup.imp ?_
    rintro a b hkey - ⟨hsource, hdomain, hid⟩
    refine hkey ?_
    rw [dedupeKey, dedupeKey, hsource, hdomain, hid]

def containerAndApi : Fin 2 → RegistryOp
  | 0 => .call (.replaceSource .docker
      [{ id := "web", domain := "a.com", source := .docker },
        { id := "web", domain := "a.com", source := .docker, tls := false }])
  | 1 => .call (.upsertApiRoute { id := "api", domain := "a.com", source := .api })

lemma validDomain_a_com : ValidDomain "a.com" := ⟨by decide, by decide⟩

end PxxlEdge
