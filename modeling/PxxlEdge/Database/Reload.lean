import PxxlEdge.Database.Registry

/-!
Saving the registered databases to a file and building a registry from it.

The file holds the routes in the order of their types and keys, so a reload
registers them in that order, whatever the history was.
-/

namespace PxxlEdge

open RustStd Run SecondaryIndex List

/-! ### The file -/

structure RoutesFormat (β : Type) where
  toVecPretty : List DatabaseProxyRoute → β
  fromSlice : β → Option (List DatabaseProxyRoute)
  isBlank : β → Bool
  fromSlice_toVecPretty : ∀ routes, fromSlice (toVecPretty routes) = some routes
  not_blank : ∀ routes, isBlank (toVecPretty routes) = false

def savedBefore (left right : DatabaseProxyRoute) : Bool :=
  ((compare left.databaseType right.databaseType).then
    ((compare left.key right.key).then
      ((compare (left.routeHost.getD []) (right.routeHost.getD [])).then
        (compare (left.publicPort.getD 0) (right.publicPort.getD 0))))).isLE

section File

variable {β : Type} (format : RoutesFormat β)

def saveDatabaseRoutesToFile (routes : List DatabaseProxyRoute) : β :=
  format.toVecPretty (routes.mergeSort savedBefore)

def loadDatabaseRoutesFromFile (file : Option β) : Except Text (List DatabaseProxyRoute) :=
  match file with
  | none => .ok []
  | some bytes =>
    if format.isBlank bytes then .ok []
    else
      match format.fromSlice bytes with
      | some routes => .ok routes
      | none => .error "parsing"

def reload (r : DatabaseRouteRegistry) : Except Text DatabaseRouteRegistry :=
  (loadDatabaseRoutesFromFile format (some (saveDatabaseRoutesToFile format r.list))).map
    DatabaseRouteRegistry.new

end File

structure SameAnswers (r r' : DatabaseRouteRegistry) : Prop where
  resolve : ∀ databaseType key, r.resolve databaseType key = r'.resolve databaseType key
  resolveOnlyRoute :
    ∀ databaseType, r.resolveOnlyRoute databaseType = r'.resolveOnlyRoute databaseType
  resolvePublicPort : ∀ port, r.resolvePublicPort port = r'.resolvePublicPort port

def DatabaseRouteRegistry.lastUpstream (r : DatabaseRouteRegistry) (port : UInt16) : Option Text :=
  (lastWith DatabaseProxyRoute.publicPort r.list (some port)).map fun route => route.upstream.trim

def DatabaseRouteRegistry.PortsByLast (r : DatabaseRouteRegistry) : Prop :=
  ∀ port, r.resolvePublicPort port = r.lastUpstream port

/-! ### The order of the list -/

lemma DatabaseProxyRoute.Kept.keys_eq {route : DatabaseProxyRoute} (h : route.Kept) :
    route.keys = (route.databaseType, route.key) :=
  Prod.ext (congrArg databaseType h.normal) (congrArg key h.normal)

variable {r : DatabaseRouteRegistry}

namespace DatabaseRouteRegistry

lemma kept_of_mem_list (hr : r.WellFormed) {route : DatabaseProxyRoute} (h : route ∈ r.list) :
    route.Kept :=
  (hr.kept _ route ((mem_list hr).mp h)).1

lemma mergeSort_list (hr : r.WellFormed) : r.list.mergeSort savedBefore = r.list := by
  refine mergeSort_of_pairwise ?_
  rw [list, BTreeMap.values2_eq, pairwise_map]
  refine r.metadata.ordered_toList2.imp_of_mem fun {e f} he hf h => ?_
  obtain ⟨hkept, hkeys⟩ := hr.kept e.1 e.2 (BTreeMap.mem_toList2.mp he)
  obtain ⟨hkept', hkeys'⟩ := hr.kept f.1 f.2 (BTreeMap.mem_toList2.mp hf)
  rw [← hkeys, ← hkeys', hkept.keys_eq, hkept'.keys_eq] at h
  rw [savedBefore, ← Ordering.then_assoc, h]
  rfl

lemma nodup_keys_list (hr : r.WellFormed) : (r.list.map DatabaseProxyRoute.keys).Nodup := by
  have hkeys : r.list.map DatabaseProxyRoute.keys = r.metadata.toList2.map Prod.fst := by
    rw [list, BTreeMap.values2_eq, map_map]
    refine map_congr_left fun e he => ?_
    exact (hr.kept e.1 e.2 (BTreeMap.mem_toList2.mp he)).2
  rw [hkeys]
  exact r.metadata.nodup_keys_toList2

/-! ### The registry of the listed routes -/

lemma table_new {routes : List DatabaseProxyRoute} (h : ∀ route ∈ routes, route.Complete) :
    (new routes).table =
      Table.empty.putAll (routes.map fun route => (route.keys, route.entry)) := by
  induction routes using List.reverseRecOn with
  | nil => exact table_empty
  | append_singleton routes route ih =>
    have hstep : new (routes ++ [route]) = (new routes).upsert route := by
      rw [new, foldl_append]
      rfl
    rw [hstep, table_upsert route (h route (by simp)),
      ih fun other hother => h other (by simp [hother]), map_append, map_singleton,
      Table.putAll_concat]

lemma wellFormed_new (routes : List DatabaseProxyRoute) : (new routes).WellFormed :=
  run_invariant WellFormed (fun _ route hr => hr.upsert route) wellFormed_empty routes

lemma entries_new_list (hr : r.WellFormed) :
    (new r.list).table.entries = r.table.entries := by
  funext k
  ext e
  rw [table_new fun route h => (kept_of_mem_list hr h).complete, Table.entries_putAll,
    entries_table hr, mem_map]
  · simp only [Prod.mk.injEq]
  · rw [map_map]
    exact nodup_keys_list hr

lemma get2_routes (hr : r.WellFormed) (k : Text × Text) :
    r.routes.get2 k = (r.table.entries k).map Entry.value := by
  rw [hr.routes_eq, table, Option.map_map]
  rfl

theorem routes_new_list (hr : r.WellFormed) : (new r.list).routes = r.routes := by
  refine BTreeMap.ext2 (wellFormed_new _).noEmpty hr.noEmpty fun k => ?_
  rw [get2_routes (wellFormed_new _), get2_routes hr, entries_new_list hr]

theorem resolvePublicPort_new_list (hr : r.WellFormed) (port : UInt16) :
    (new r.list).resolvePublicPort port = r.lastUpstream port := by
  show (new r.list).table.byIndex port = _
  rw [table_new fun route h => (kept_of_mem_list hr h).complete, Table.byIndex_putAll, lastWith,
    filter_map, getLast?_map, Option.map_map]
  rfl

end DatabaseRouteRegistry

open DatabaseRouteRegistry

lemma reload_ok {β : Type} (format : RoutesFormat β) (hr : r.WellFormed) :
    reload format r = .ok (new r.list) := by
  rw [reload, loadDatabaseRoutesFromFile, saveDatabaseRoutesToFile, mergeSort_list hr]
  simp [format.not_blank, format.fromSlice_toVecPretty, Except.map]

/-- **Reload.**  After any run of calls, saving the registered routes and building a registry
from the file gives the answers of the live registry, exactly if every port of the live
registry resolves to the last listed route that asks for it. -/
theorem reload_agrees_iff {β : Type} (format : RoutesFormat β) (calls : List RegistryCall) :
    (∃ r', reload format (registryAfter calls) = .ok r' ∧
        SameAnswers r' (registryAfter calls)) ↔
      (registryAfter calls).PortsByLast := by
  have hr := wellFormed_registryAfter calls
  have hroutes := routes_new_list hr
  rw [reload_ok format hr]
  constructor
  · rintro ⟨r', hr', hsame⟩ port
    obtain rfl := Except.ok.inj hr'
    rw [← hsame.resolvePublicPort, resolvePublicPort_new_list hr]
  · intro h
    refine ⟨_, rfl, fun databaseType key => ?_, fun databaseType => ?_, fun port => ?_⟩
    · rw [resolve, resolve, hroutes]
    · rw [resolveOnlyRoute, resolveOnlyRoute, hroutes]
    · rw [resolvePublicPort_new_list hr, h port]

def plainFormat : RoutesFormat (List DatabaseProxyRoute) where
  toVecPretty routes := routes
  fromSlice := some
  isBlank _ := false
  fromSlice_toVecPretty _ := rfl
  not_blank _ := rfl

/-- Two databases ask for one port.  The later upsert has it, until the reload gives it to the
one whose key comes later. -/
theorem reload_moves_shared_port :
    let route (key upstream : String) : DatabaseProxyRoute :=
      { databaseType := "redis".toList, key := key.toList, upstream := upstream.toList,
        publicPort := some 6379 }
    let r := registryAfter
      [.upsert (route "b" "10.0.0.2:6379"), .upsert (route "a" "10.0.0.1:6379")]
    r.resolvePublicPort 6379 = some "10.0.0.1:6379".toList ∧
      ∃ r', reload plainFormat r = .ok r' ∧
        r'.resolvePublicPort 6379 = some "10.0.0.2:6379".toList := by
  intro route r
  refine ⟨by decide, new r.list, reload_ok plainFormat (wellFormed_registryAfter _), ?_⟩
  decide

end PxxlEdge
