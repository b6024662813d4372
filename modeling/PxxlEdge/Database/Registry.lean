import PxxlEdge.Lib.NestedMap
import PxxlEdge.Lib.SecondaryIndex

/-!
The registry of the database proxy: routes by database type and key, and the
public ports some of them ask for.

The registry keeps three maps.  `routes` and `metadata` hold the upstream and
the whole route under the same keys; `routesByPort` holds the upstream of each
public port.  A run starts from the empty registry and upserts and deletes
routes.
-/

namespace PxxlEdge

open RustStd Run SecondaryIndex

structure DatabaseProxyRoute where
  databaseType : Text
  key : Text
  upstream : Text
  routeHost : Option Text := none
  publicPort : Option UInt16 := none
deriving DecidableEq, Repr

def normalizeDatabaseType (value : Text) : Text :=
  let lower := value.trim.toAsciiLowercase
  if lower = "postgresql" then "postgres"
  else if lower = "dragonflydb" then "dragonfly"
  else lower

def normalizeRouteKey (value : Text) : Text := value.trim.toAsciiLowercase

lemma normalizeRouteKey_idem (value : Text) :
    normalizeRouteKey (normalizeRouteKey value) = normalizeRouteKey value := by
  simp [normalizeRouteKey, Text.trim_toAsciiLowercase]

lemma normalizeDatabaseType_idem (value : Text) :
    normalizeDatabaseType (normalizeDatabaseType value) = normalizeDatabaseType value := by
  generalize hlower : value.trim.toAsciiLowercase = lower
  have hstable : lower.trim.toAsciiLowercase = lower := by
    rw [← hlower]
    simp [Text.trim_toAsciiLowercase]
  have hval : normalizeDatabaseType value = if lower = "postgresql".toList then "postgres".toList
      else if lower = "dragonflydb".toList then "dragonfly".toList else lower := by
    rw [normalizeDatabaseType, hlower]
  rw [hval]
  split_ifs with hpostgres hdragonfly
  · decide
  · decide
  · rw [normalizeDatabaseType, hstable, if_neg hpostgres, if_neg hdragonfly]

/-! ### The registry -/

structure DatabaseRouteRegistry where
  routes : BTreeMap Text (BTreeMap Text Text) := ∅
  metadata : BTreeMap Text (BTreeMap Text DatabaseProxyRoute) := ∅
  routesByPort : BTreeMap UInt16 Text := ∅

def DatabaseProxyRoute.keys (route : DatabaseProxyRoute) : Text × Text :=
  (normalizeDatabaseType route.databaseType, normalizeRouteKey route.key)

def DatabaseProxyRoute.normalized (route : DatabaseProxyRoute) : DatabaseProxyRoute :=
  { route with databaseType := route.keys.1, key := route.keys.2 }

def DatabaseProxyRoute.entry (route : DatabaseProxyRoute) : Entry UInt16 Text :=
  ⟨route.publicPort, route.upstream.trim⟩

variable {route : DatabaseProxyRoute}

lemma DatabaseProxyRoute.entry_eq {port : UInt16} {upstream : Text} :
    route.entry = ⟨some port, upstream⟩ ↔
      route.publicPort = some port ∧ route.upstream.trim = upstream := by
  rw [entry, Entry.mk.injEq]

def DatabaseProxyRoute.Complete (route : DatabaseProxyRoute) : Prop :=
  route.keys.1 ≠ [] ∧ route.keys.2 ≠ [] ∧ route.upstream.trim ≠ []

instance (route : DatabaseProxyRoute) : Decidable route.Complete :=
  inferInstanceAs (Decidable (_ ∧ _ ∧ _))

def insertPort (ports : BTreeMap UInt16 Text) (publicPort : Option UInt16) (upstream : Text) :
    BTreeMap UInt16 Text :=
  match publicPort with
  | some publicPort => ports.insert publicPort upstream
  | none => ports

def removePort (ports : BTreeMap UInt16 Text) (publicPort : Option UInt16) :
    BTreeMap UInt16 Text :=
  match publicPort with
  | some publicPort => ports.erase publicPort
  | none => ports

namespace DatabaseRouteRegistry

variable (r : DatabaseRouteRegistry)

def upsert (route : DatabaseProxyRoute) : DatabaseRouteRegistry :=
  if route.Complete then
    { routes := r.routes.insert2 route.keys route.upstream.trim
      metadata := r.metadata.insert2 route.keys route.normalized
      routesByPort := insertPort r.routesByPort route.publicPort route.upstream.trim }
  else r

def delete (databaseType key : Text) : Bool × DatabaseRouteRegistry :=
  let keys := (normalizeDatabaseType databaseType, normalizeRouteKey key)
  if r.routes[keys.1]?.isNone then (false, r)
  else
    ((r.routes.get2 keys).isSome,
      { routes := (r.routes.erase2 keys).prune keys.1
        metadata := r.metadata.erase2 keys
        routesByPort := removePort r.routesByPort
          ((r.metadata.get2 keys).bind DatabaseProxyRoute.publicPort) })

def list : List DatabaseProxyRoute := r.metadata.values2

def resolve (databaseType key : Text) : Option Text :=
  r.routes.get2 (normalizeDatabaseType databaseType, normalizeRouteKey key)

def resolveOnlyRoute (databaseType : Text) : Option Text := do
  let byKey ← r.routes[normalizeDatabaseType databaseType]?
  if byKey.size = 1 then (byKey.toList.map Prod.snd).head? else none

def resolvePublicPort (publicPort : UInt16) : Option Text := r.routesByPort[publicPort]?

def new (routes : List DatabaseProxyRoute) : DatabaseRouteRegistry := routes.foldl upsert {}

end DatabaseRouteRegistry

inductive RegistryCall where
  | upsert (route : DatabaseProxyRoute)
  | delete (databaseType key : Text)
deriving DecidableEq, Repr

def RegistryCall.apply (r : DatabaseRouteRegistry) : RegistryCall → DatabaseRouteRegistry
  | .upsert route => r.upsert route
  | .delete databaseType key => (r.delete databaseType key).2

def registryAfter (calls : List RegistryCall) : DatabaseRouteRegistry :=
  run RegistryCall.apply {} calls

/-! ### Well-formed registries -/

structure DatabaseProxyRoute.Kept (route : DatabaseProxyRoute) : Prop where
  complete : route.Complete
  normal : route.normalized = route

lemma DatabaseProxyRoute.keys_normalized (route : DatabaseProxyRoute) :
    route.normalized.keys = route.keys := by
  simp [normalized, keys, normalizeDatabaseType_idem, normalizeRouteKey_idem]

lemma DatabaseProxyRoute.Complete.kept (h : route.Complete) :
    route.normalized.Kept := by
  constructor
  · rwa [Complete, keys_normalized]
  · rw [normalized, keys_normalized]
    rfl

structure DatabaseRouteRegistry.WellFormed (r : DatabaseRouteRegistry) : Prop where
  routes_eq : ∀ k, r.routes.get2 k = (r.metadata.get2 k).map fun route => route.upstream.trim
  kept : ∀ k route, r.metadata.get2 k = some route → route.Kept ∧ route.keys = k
  noEmpty : r.routes.NoEmpty

namespace DatabaseRouteRegistry

open DatabaseProxyRoute (entry_eq)

variable {r : DatabaseRouteRegistry}

lemma wellFormed_empty : ({} : DatabaseRouteRegistry).WellFormed where
  routes_eq k := by simp
  kept k route h := by simp at h
  noEmpty := BTreeMap.noEmpty_empty

lemma WellFormed.upsert (hr : r.WellFormed) (route : DatabaseProxyRoute) :
    (r.upsert route).WellFormed := by
  by_cases hcomplete : route.Complete
  · rw [DatabaseRouteRegistry.upsert, if_pos hcomplete]
    constructor
    · intro k
      by_cases hk : k = route.keys
      · subst hk
        simp only [BTreeMap.get2_insert2_self, Option.map_some]
        rfl
      · simp only [BTreeMap.get2_insert2_ne hk]
        exact hr.routes_eq k
    · intro k route' h
      by_cases hk : k = route.keys
      · subst hk
        rw [BTreeMap.get2_insert2_self, Option.some_inj] at h
        exact h ▸ ⟨hcomplete.kept, route.keys_normalized⟩
      · rw [BTreeMap.get2_insert2_ne hk] at h
        exact hr.kept k route' h
    · exact hr.noEmpty.insert2
  · rwa [DatabaseRouteRegistry.upsert, if_neg hcomplete]

lemma WellFormed.delete (hr : r.WellFormed) (databaseType key : Text) :
    (r.delete databaseType key).2.WellFormed := by
  rw [DatabaseRouteRegistry.delete]
  generalize hkeys : (normalizeDatabaseType databaseType, normalizeRouteKey key) = keys
  split
  · exact hr
  · refine ⟨fun k => ?_, fun k route h => ?_, hr.noEmpty.prune_erase2⟩
    · rw [BTreeMap.get2_prune]
      by_cases hk : k = keys
      · subst hk
        simp
      · simp only [BTreeMap.get2_erase2_ne hk]
        exact hr.routes_eq k
    · have hk : k ≠ keys := by
        rintro rfl
        simp at h
      rw [BTreeMap.get2_erase2_ne hk] at h
      exact hr.kept k route h

lemma WellFormed.apply (hr : r.WellFormed) (call : RegistryCall) : (call.apply r).WellFormed := by
  cases call with
  | upsert route => exact hr.upsert route
  | delete databaseType key => exact hr.delete databaseType key

lemma wellFormed_registryAfter (calls : List RegistryCall) : (registryAfter calls).WellFormed :=
  run_invariant _ (fun _ call hr => hr.apply call) wellFormed_empty calls

/-! ### The table with the ports as its index -/

def table (r : DatabaseRouteRegistry) : Table (Text × Text) UInt16 Text where
  entries k := (r.metadata.get2 k).map DatabaseProxyRoute.entry
  byIndex := r.resolvePublicPort

lemma mem_list (hr : r.WellFormed) :
    route ∈ r.list ↔ r.metadata.get2 route.keys = some route := by
  rw [list, BTreeMap.values2_eq, List.mem_map]
  constructor
  · rintro ⟨⟨k, route⟩, hmem, rfl⟩
    have hget := BTreeMap.mem_toList2.mp hmem
    rwa [(hr.kept k route hget).2]
  · intro h
    exact ⟨(route.keys, route), BTreeMap.mem_toList2.mpr h, rfl⟩

lemma entries_table (hr : r.WellFormed) {k : Text × Text} {e : Entry UInt16 Text} :
    r.table.entries k = some e ↔ ∃ route ∈ r.list, route.keys = k ∧ route.entry = e := by
  show (r.metadata.get2 k).map DatabaseProxyRoute.entry = some e ↔ _
  rw [Option.map_eq_some_iff]
  constructor
  · rintro ⟨route, hget, he⟩
    have hk := (hr.kept k route hget).2
    exact ⟨route, (mem_list hr).mpr (hk ▸ hget), hk, he⟩
  · rintro ⟨route, hmem, rfl, he⟩
    exact ⟨route, (mem_list hr).mp hmem, he⟩

@[simp] lemma table_empty : ({} : DatabaseRouteRegistry).table = Table.empty := by
  ext1
  · funext k
    simp [table, Table.empty]
  · funext port
    simp [table, Table.empty, resolvePublicPort]

lemma table_upsert (route : DatabaseProxyRoute) (h : route.Complete) :
    (r.upsert route).table = r.table.put route.keys route.entry := by
  rw [upsert, if_pos h]
  ext1
  · funext k
    by_cases hk : k = route.keys
    · subst hk
      rw [Table.entries_put_self]
      simp only [table, BTreeMap.get2_insert2_self, Option.map_some]
      rfl
    · rw [Table.entries_put_ne hk]
      simp only [table, BTreeMap.get2_insert2_ne hk]
  · funext port
    show (insertPort r.routesByPort route.publicPort route.upstream.trim)[port]? = _
    by_cases hport : route.publicPort = some port
    · rw [Table.byIndex_put_self hport, hport]
      simp [insertPort, DatabaseProxyRoute.entry]
    · rw [Table.byIndex_put_ne hport]
      cases hp : route.publicPort with
      | none => rfl
      | some q =>
        have hq : q ≠ port := by
          rintro rfl
          exact hport hp
        simp [insertPort, Std.ExtTreeMap.getElem?_insert, hq, table, resolvePublicPort]

lemma table_delete (hr : r.WellFormed) (databaseType key : Text) :
    (r.delete databaseType key).2.table =
      r.table.drop (normalizeDatabaseType databaseType, normalizeRouteKey key) := by
  rw [delete]
  generalize hkeys : (normalizeDatabaseType databaseType, normalizeRouteKey key) = keys
  split
  · -- without the type in `routes` there is no such route
    next hnone =>
      have hget : r.routes.get2 keys = none := by
        rw [BTreeMap.get2, Option.isNone_iff_eq_none.mp hnone, Option.bind_none]
      rw [hr.routes_eq, Option.map_eq_none_iff] at hget
      exact (Table.drop_of_none (by simp [table, hget])).symm
  · ext1
    · funext k
      by_cases hk : k = keys
      · subst hk
        rw [Table.entries_drop_self]
        simp [table]
      · rw [Table.entries_drop_ne hk]
        simp only [table, BTreeMap.get2_erase2_ne hk]
    · funext port
      show (removePort r.routesByPort _)[port]? = _
      cases hget : r.metadata.get2 keys with
      | none =>
        rw [Table.drop_of_none (by simp [table, hget])]
        rfl
      | some route =>
        have hentry : r.table.entries keys = some route.entry := by simp [table, hget]
        rw [Option.bind_some]
        by_cases hport : route.publicPort = some port
        · rw [Table.byIndex_drop_self (hentry.trans (by rw [DatabaseProxyRoute.entry, hport])),
            hport]
          simp [removePort]
        · rw [Table.byIndex_drop_ne fun v hv => hport ?_]
          · cases hp : route.publicPort with
            | none => rfl
            | some q =>
              have hq : q ≠ port := by
                rintro rfl
                exact hport hp
              simp [removePort, Std.ExtTreeMap.getElem?_erase, hq, table, resolvePublicPort]
          · rw [hentry, Option.some_inj] at hv
            exact congrArg Entry.index hv

/-! ### The ports -/

def PortsConsistent (r : DatabaseRouteRegistry) : Prop :=
  ∀ port,
    (∀ upstream, r.resolvePublicPort port = some upstream →
      ∃ route ∈ r.list, route.publicPort = some port ∧ route.upstream.trim = upstream) ∧
    (r.resolvePublicPort port = none → ∀ route ∈ r.list, route.publicPort ≠ some port)

def KeepsPorts (r : DatabaseRouteRegistry) : RegistryCall → Prop
  | .upsert route =>
    route.Complete → ∀ old ∈ r.list, old.keys = route.keys →
      ∀ port, old.publicPort = some port → route.publicPort ≠ some port →
        ∃ other ∈ r.list, other.keys ≠ route.keys ∧ other.publicPort = some port ∧
          r.resolvePublicPort port = some other.upstream.trim
  | .delete databaseType key =>
    ∀ old ∈ r.list, old.keys = (normalizeDatabaseType databaseType, normalizeRouteKey key) →
      ∀ port, old.publicPort = some port →
        ∀ other ∈ r.list, other.keys ≠ old.keys → other.publicPort ≠ some port

lemma portsConsistent_iff_table (hr : r.WellFormed) :
    r.PortsConsistent ↔ r.table.Consistent := by
  constructor
  · intro h
    refine ⟨fun port upstream hport => ?_, fun port hnone k upstream hk => ?_⟩
    · obtain ⟨route, hmem, hp, hu⟩ := (h port).1 upstream hport
      exact ⟨route.keys, (entries_table hr).mpr ⟨route, hmem, rfl, entry_eq.mpr ⟨hp, hu⟩⟩⟩
    · obtain ⟨route, hmem, -, he⟩ := (entries_table hr).mp hk
      exact (h port).2 hnone route hmem (entry_eq.mp he).1
  · intro h port
    refine ⟨fun upstream hport => ?_, fun hnone route hmem hp => ?_⟩
    · obtain ⟨k, hk⟩ := h.sound port upstream hport
      obtain ⟨route, hmem, -, he⟩ := (entries_table hr).mp hk
      exact ⟨route, hmem, entry_eq.mp he⟩
    · exact h.complete port hnone route.keys route.upstream.trim
        ((entries_table hr).mpr ⟨route, hmem, rfl, entry_eq.mpr ⟨hp, rfl⟩⟩)

lemma putKeeps_iff (hr : r.WellFormed) (hcomplete : route.Complete) :
    r.table.PutKeeps route.keys route.entry ↔ r.KeepsPorts (.upsert route) := by
  constructor
  · intro h _ old hold hkeys port hport hne
    have hentry := (entries_table hr).mpr ⟨old, hold, hkeys, entry_eq.mpr ⟨hport, rfl⟩⟩
    obtain ⟨k', upstream, hk', hother, hindex⟩ := h port _ hentry hne
    obtain ⟨other, hmem, rfl, he⟩ := (entries_table hr).mp hother
    obtain ⟨hp, hu⟩ := entry_eq.mp he
    exact ⟨other, hmem, hk', hp, hu ▸ hindex⟩
  · intro h port upstream hold hne
    obtain ⟨old, hmem, hkeys, he⟩ := (entries_table hr).mp hold
    obtain ⟨other, hother, hk', hp, hindex⟩ :=
      h hcomplete old hmem hkeys port (entry_eq.mp he).1 hne
    exact ⟨other.keys, other.upstream.trim, hk',
      (entries_table hr).mpr ⟨other, hother, rfl, entry_eq.mpr ⟨hp, rfl⟩⟩, hindex⟩

lemma dropKeeps_iff (hr : r.WellFormed) {databaseType key : Text} :
    r.table.DropKeeps (normalizeDatabaseType databaseType, normalizeRouteKey key) ↔
      r.KeepsPorts (.delete databaseType key) := by
  constructor
  · intro h old hold hkeys port hport other hother hne hp
    have hentry := (entries_table hr).mpr ⟨old, hold, hkeys, entry_eq.mpr ⟨hport, rfl⟩⟩
    exact h port _ hentry other.keys _ (hkeys ▸ hne)
      ((entries_table hr).mpr ⟨other, hother, rfl, entry_eq.mpr ⟨hp, rfl⟩⟩)
  · intro h port upstream hold k' w hne hk'
    obtain ⟨old, hmem, hkeys, he⟩ := (entries_table hr).mp hold
    obtain ⟨other, hother, rfl, he'⟩ := (entries_table hr).mp hk'
    exact h old hmem hkeys port (entry_eq.mp he).1 other hother (hkeys.symm ▸ hne)
      (entry_eq.mp he').1

lemma portsConsistent_apply_iff (hr : r.WellFormed) (h : r.PortsConsistent) (call : RegistryCall) :
    (call.apply r).PortsConsistent ↔ r.KeepsPorts call := by
  have ht := (portsConsistent_iff_table hr).mp h
  rw [portsConsistent_iff_table (hr.apply call)]
  cases call with
  | upsert route =>
    by_cases hcomplete : route.Complete
    · rw [RegistryCall.apply, table_upsert route hcomplete, Table.consistent_put_iff ht,
        putKeeps_iff hr hcomplete]
    · -- an incomplete route is not registered
      have hsame : r.upsert route = r := if_neg hcomplete
      rw [RegistryCall.apply, hsame]
      exact ⟨fun _ hc => absurd hc hcomplete, fun _ => ht⟩
  | delete databaseType key =>
    rw [RegistryCall.apply, table_delete hr, Table.consistent_drop_iff ht, dropKeeps_iff hr]

lemma portsConsistent_empty : ({} : DatabaseRouteRegistry).PortsConsistent := by
  rw [portsConsistent_iff_table wellFormed_empty, table_empty]
  exact Table.consistent_empty

end DatabaseRouteRegistry

/-- **The ports over a run.**  In every registry of a run the ports resolve to what is
registered, exactly if every call of the run meets the condition. -/
theorem portsConsistent_iff (calls : List RegistryCall) :
    (∀ n, (registryAfter (calls.take n)).PortsConsistent) ↔
      Along RegistryCall.apply DatabaseRouteRegistry.KeepsPorts {} calls := by
  have hall : Along RegistryCall.apply (fun _ _ => True) {} calls :=
    along_of_forall fun _ _ => trivial
  refine Iff.trans ?_ (forall_take_iff_along (fun r => r.WellFormed ∧ r.PortsConsistent) hall
    ⟨DatabaseRouteRegistry.wellFormed_empty, DatabaseRouteRegistry.portsConsistent_empty⟩
    fun r call hr _ => ?_)
  · exact forall_congr' fun n =>
      ⟨fun h => ⟨DatabaseRouteRegistry.wellFormed_registryAfter _, h⟩, And.right⟩
  · rw [← DatabaseRouteRegistry.portsConsistent_apply_iff hr.1 hr.2 call]
    exact and_iff_right (hr.1.apply call)

/-- A database moves to another port, and its old port still resolves. -/
theorem moved_port_still_resolves :
    let route : DatabaseProxyRoute :=
      { databaseType := "postgres".toList, key := "app".toList, upstream := "10.0.0.5:5432".toList,
        publicPort := some 5432 }
    let r := registryAfter [.upsert route, .upsert { route with publicPort := some 5433 }]
    r.resolvePublicPort 5432 = some "10.0.0.5:5432".toList ∧
      (∀ other ∈ r.list, other.publicPort ≠ some 5432) ∧ ¬ r.PortsConsistent := by
  intro route r
  have hport : r.resolvePublicPort 5432 = some "10.0.0.5:5432".toList := by decide
  have hlist : ∀ other ∈ r.list, other.publicPort ≠ some 5432 := by decide
  refine ⟨hport, hlist, fun h => ?_⟩
  obtain ⟨other, hmem, hp, -⟩ := (h 5432).1 _ hport
  exact hlist other hmem hp

end PxxlEdge
