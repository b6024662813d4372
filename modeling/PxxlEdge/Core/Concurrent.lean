import PxxlEdge.Core.Registry
import PxxlEdge.Lib.Atomic

/-!
The mutators of the registry as they run concurrently.  The table is one atomic
cell: `snapshot` reads it, `replace_all` writes it, and nothing holds the two
together, so a call can write a table that was computed from an outdated one.
-/

namespace PxxlEdge

open RustStd Atomic

inductive Call where
  | replaceSource (source : RouteSource) (routes : List Route)
  | upsertApiRoute (route : Route)
  | deleteApiDomain (domain : Text)
  | setUpstreamHealth (health : Map Text Bool)
  | setRouteUpstreamHealth (update : RouteUpstreamHealth)
  | setRouteUpstreamHealthMany (updates : List RouteUpstreamHealth)

def replaceAll (routes : List Route) : Prog RouteTable := .store (RouteTable.new routes)

def Call.prog : Call → Prog RouteTable
  | replaceSource source routes =>
    .load fun table => replaceAll (withSource source routes table.routes)
  | upsertApiRoute route =>
    -- the test for an equivalent route and the update read the table separately
    .load fun table =>
      if table.routes.any fun existing => apiRoutesEquivalent existing route then .done
      else .load fun table => replaceAll (withApiRoute route table.routes)
  | deleteApiDomain domain =>
    .load fun table => replaceAll (withoutApiDomain domain table.routes)
  | setUpstreamHealth health =>
    if health.entries = [] then .done
    else .load fun table => replaceAll (withUpstreamHealth health table.routes)
  | setRouteUpstreamHealth update =>
    if update.ignored then .done
    else .load fun table => replaceAll (withRouteUpstreamHealth update table.routes)
  | setRouteUpstreamHealthMany updates =>
    if updates = [] then .done
    else .load fun table => replaceAll (withRouteUpstreamHealthMany updates table.routes)

def tableAfter {n : ℕ} (calls : Fin n → Call) (table : RouteTable) (schedule : List (Fin n)) :
    RouteTable :=
  ((Sys.init table).run (fun i => (calls i).prog) schedule).cell

def AllReturned {n : ℕ} (calls : Fin n → Call) (table : RouteTable) (schedule : List (Fin n)) :
    Prop :=
  ((Sys.init table).run (fun i => (calls i).prog) schedule).Finished fun i => (calls i).prog

def WritesAlone {n : ℕ} (calls : Fin n → Call) (table : RouteTable) (schedule : List (Fin n)) :
    Prop :=
  Exclusive (fun i => (calls i).prog) (Sys.init table) schedule

def tableAfterSerial {n : ℕ} (calls : Fin n → Call) (table : RouteTable)
    (order : List (Fin n)) : RouteTable :=
  order.foldl (fun t i => (calls i).prog.exec t) table

/-- **Serializability of the registry.**  Concurrent calls that write only while
no other call is under way leave the table of some serial order. -/
theorem final_table_serial {n : ℕ} (calls : Fin n → Call) (table : RouteTable)
    (schedule : List (Fin n)) (hreturned : AllReturned calls table schedule)
    (halone : WritesAlone calls table schedule) :
    ∃ order : List (Fin n), order.Nodup ∧ (∀ i, i ∈ order) ∧
      tableAfter calls table schedule = tableAfterSerial calls table order :=
  serializable_of_exclusive halone hreturned

def apiAndDocker : Fin 2 → Call
  | 0 => .upsertApiRoute { id := "api", domain := "a.com", source := .api }
  | 1 => .replaceSource .docker [{ id := "docker", domain := "b.com", source := .docker }]

theorem final_table_serial_one_after_the_other :
    AllReturned apiAndDocker (RouteTable.new []) [0, 0, 0, 1, 1] ∧
      WritesAlone apiAndDocker (RouteTable.new []) [0, 0, 0, 1, 1] ∧
      ∃ order : List (Fin 2), order.Nodup ∧ (∀ i, i ∈ order) ∧
        tableAfter apiAndDocker (RouteTable.new []) [0, 0, 0, 1, 1] =
          tableAfterSerial apiAndDocker (RouteTable.new []) order := by
  have hreturned : AllReturned apiAndDocker (RouteTable.new []) [0, 0, 0, 1, 1] := by
    unfold AllReturned Sys.Finished
    decide
  have halone : WritesAlone apiAndDocker (RouteTable.new []) [0, 0, 0, 1, 1] := by
    unfold WritesAlone
    simp only [Exclusive]
    decide
  exact ⟨hreturned, halone, final_table_serial _ _ _ hreturned halone⟩

/-- Both calls read the empty table before either writes: the API route is lost,
and no serial order of the calls loses it. -/
theorem update_lost :
    AllReturned apiAndDocker (RouteTable.new []) [0, 0, 1, 0, 1] ∧
      ∀ order : List (Fin 2), order.Nodup → (∀ i, i ∈ order) →
        tableAfter apiAndDocker (RouteTable.new []) [0, 0, 1, 0, 1] ≠
          tableAfterSerial apiAndDocker (RouteTable.new []) order := by
  refine ⟨by unfold AllReturned Sys.Finished; decide, fun order hnodup hall heq => ?_⟩
  have hids : ((tableAfter apiAndDocker (RouteTable.new []) [0, 0, 1, 0, 1]).routes.map
      Route.id) = ["docker".toList] := by
    decide
  have hserial : ∀ o ∈ (List.finRange 2).permutations',
      "api".toList ∈ (tableAfterSerial apiAndDocker (RouteTable.new []) o).routes.map Route.id := by
    decide
  have hperm : order.Perm (List.finRange 2) :=
    (List.perm_ext_iff_of_nodup hnodup (List.nodup_finRange 2)).mpr (by simp [hall])
  have hmem := hserial order (List.mem_permutations'.mpr hperm)
  rw [← heq, hids] at hmem
  exact absurd hmem (by decide)

end PxxlEdge
