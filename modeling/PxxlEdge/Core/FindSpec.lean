import PxxlEdge.Core.Registry

/-!
What `find` returns, stated over the routes of the table and without its
intermediate lists.

A route that lists a prefix twice contributes its last entry only, which
`find_drops_repeated_prefix` shows.
-/

namespace PxxlEdge

open RustStd List

/-! ### The specification -/

def Route.Serves (route : Route) (path : Text) : Prop :=
  ∃ p ∈ route.paths, p.matches path = true

structure Eligible (table : RouteTable) (host path : Text) (r : Route) : Prop where
  mem : r ∈ table.routes
  serves : r.Serves path
  domain : r.domain = host ∨
    (∀ r' ∈ table.routes, r'.domain = host → ¬ r'.Serves path) ∧
      wwwAliasBase host = some r.domain ∧
      routeAllowsWwwAlias r.domain r.rules.wwwAlias = true

def Route.ServesAt (route : Route) (path : Text) (n : ℕ) : Prop :=
  ∃ p ∈ route.paths, p.matches path = true ∧ p.pathPrefix.len = n

structure LongestPrefix (table : RouteTable) (host path : Text) (n : ℕ) : Prop where
  attained : ∃ r, Eligible table host path r ∧ r.ServesAt path n
  bound : ∀ r, Eligible table host path r → ∀ k, r.ServesAt path k → k ≤ n

variable {table : RouteTable} {host path : Text}

lemma LongestPrefix.unique {m n : ℕ}
    (hm : LongestPrefix table host path m) (hn : LongestPrefix table host path n) : m = n := by
  obtain ⟨r, hr, hrm⟩ := hm.attained
  obtain ⟨s, hs, hsn⟩ := hn.attained
  exact le_antisymm (hn.bound r hr m hrm) (hm.bound s hs n hsn)

structure Selected (table : RouteTable) (host path : Text) (n : ℕ) (r : Route) : Prop where
  eligible : Eligible table host path r
  serves : r.ServesAt path n
  priority : ∀ r', Eligible table host path r' → r'.ServesAt path n →
    sourcePriority r'.source ≤ sourcePriority r.source

/-! ### The longest prefix of one route -/

variable {r : Route}

lemma bestPath_eq_some {path : Text} {p : PathRoute} (h : r.bestPath path = some p) :
    p ∈ r.paths ∧ p.matches path = true ∧
      ∀ q ∈ r.paths, q.matches path = true → q.pathPrefix.len ≤ p.pathPrefix.len := by
  obtain ⟨hmem, hmax⟩ := maxByKey_eq_some h
  obtain ⟨hp, hmatch⟩ := mem_filter.mp hmem
  exact ⟨hp, hmatch, fun q hq hqm => hmax q (mem_filter.mpr ⟨hq, hqm⟩)⟩

lemma bestPath_isSome_iff {path : Text} :
    (∃ p, r.bestPath path = some p) ↔ r.Serves path := by
  rw [← Option.isSome_iff_exists, Option.isSome_iff_ne_none, Route.bestPath, Ne,
    maxByKey_eq_none, filter_eq_nil_iff, Route.Serves]
  push Not
  rfl

/-! ### The matches that are merged -/

variable {m : RouteMatch}

lemma mem_matchingRoutes {domain path : Text} {www : Bool} :
    m ∈ matchingRoutes table domain path www ↔
      m.route ∈ table.routes ∧ m.route.domain = domain ∧
        (www = true → routeAllowsWwwAlias m.route.domain m.route.rules.wwwAlias = true) ∧
        m.route.bestPath path = some m.path := by
  simp only [matchingRoutes, table.indexed, mem_filterMap, mem_filter,
    Option.map_eq_some_iff, decide_eq_true_eq, Bool.or_eq_true, Bool.not_eq_true']
  constructor
  · rintro ⟨r, ⟨⟨hr, hd⟩, ha⟩, p, hp, rfl⟩
    refine ⟨hr, hd, fun h => ?_, hp⟩
    rcases ha with ha | ha
    · simp [h] at ha
    · exact ha
  · rintro ⟨hr, hd, ha, hp⟩
    refine ⟨m.route, ⟨⟨hr, hd⟩, ?_⟩, m.path, hp, rfl⟩
    cases www with
    | false => exact .inl rfl
    | true => exact .inr (ha rfl)

lemma matchingRoutes_eq_nil {domain path : Text} :
    matchingRoutes table domain path false = [] ↔
      ∀ r ∈ table.routes, r.domain = domain → ¬ r.Serves path := by
  rw [eq_nil_iff_forall_not_mem]
  constructor
  · intro h r hr hd hs
    obtain ⟨p, hp⟩ := bestPath_isSome_iff.mpr hs
    exact h ⟨r, p⟩ (mem_matchingRoutes.mpr ⟨hr, hd, by simp, hp⟩)
  · intro h m hm
    obtain ⟨hr, hd, -, hp⟩ := mem_matchingRoutes.mp hm
    exact h m.route hr hd (bestPath_isSome_iff.mp ⟨_, hp⟩)

lemma mem_findMatches :
    m ∈ findMatches table host path ↔
      Eligible table host path m.route ∧ m.route.bestPath path = some m.path := by
  rw [findMatches]
  by_cases hnil : matchingRoutes table host path false = []
  · -- nothing under the host itself: the alias of a base domain
    have hnone := matchingRoutes_eq_nil.mp hnil
    rw [if_pos (by simp [hnil])]
    cases hbase : wwwAliasBase host with
    | none =>
      simp only [hnil, not_mem_nil, false_iff, not_and]
      intro he _
      rcases he.domain with hd | ⟨-, hd, -⟩
      · exact hnone _ he.mem hd he.serves
      · simp [hbase] at hd
    | some base =>
      simp only
      rw [mem_matchingRoutes]
      constructor
      · rintro ⟨hr, hd, ha, hp⟩
        exact ⟨⟨hr, bestPath_isSome_iff.mp ⟨_, hp⟩, .inr ⟨hnone, hd ▸ hbase, ha rfl⟩⟩, hp⟩
      · rintro ⟨he, hp⟩
        rcases he.domain with hd | ⟨-, hd, ha⟩
        · exact absurd he.serves (hnone _ he.mem hd)
        · exact ⟨he.mem, Option.some.inj (hd.symm.trans hbase), fun _ => ha, hp⟩
  · rw [if_neg (by simpa using hnil), mem_matchingRoutes]
    constructor
    · rintro ⟨hr, hd, -, hp⟩
      exact ⟨⟨hr, bestPath_isSome_iff.mp ⟨_, hp⟩, .inl hd⟩, hp⟩
    · rintro ⟨he, hp⟩
      rcases he.domain with hd | ⟨hnone, -⟩
      · exact ⟨he.mem, hd, by simp, hp⟩
      · exact absurd (matchingRoutes_eq_nil.mpr hnone) hnil

lemma mem_selectMatches {ms : List RouteMatch} :
    m ∈ selectMatches ms ↔ m ∈ ms ∧
      (∀ m' ∈ ms, m'.path.pathPrefix.len ≤ m.path.pathPrefix.len) ∧
      ∀ m' ∈ ms, m'.path.pathPrefix.len = m.path.pathPrefix.len →
        sourcePriority m'.route.source ≤ sourcePriority m.route.source := by
  rw [selectMatches]
  cases hlen : (ms.map fun m => m.path.pathPrefix.len).max? with
  | none =>
    obtain rfl : ms = [] := by simpa [max?_eq_none_iff] using hlen
    simp
  | some n =>
    obtain ⟨hn, hbound⟩ := max?_eq_some_iff.mp hlen
    obtain ⟨best, hbest, hbestn⟩ := mem_map.mp hn
    simp only
    cases hprio : ((ms.filter fun m => m.path.pathPrefix.len == n).map fun m =>
        sourcePriority m.route.source).max? with
    | none =>
      have : ms.filter (fun m => m.path.pathPrefix.len == n) = [] := by
        simpa [max?_eq_none_iff] using hprio
      exact absurd (filter_eq_nil_iff.mp this best hbest) (by simp [hbestn])
    | some k =>
      obtain ⟨hk, hkbound⟩ := max?_eq_some_iff.mp hprio
      simp only [mem_map, mem_filter, beq_iff_eq] at hk hkbound
      obtain ⟨top, ⟨htop, htopn⟩, htopk⟩ := hk
      have hbound' : ∀ m' ∈ ms, m'.path.pathPrefix.len ≤ n := fun m' hm' =>
        hbound _ (mem_map_of_mem hm')
      simp only [mem_filter, Bool.and_eq_true, beq_iff_eq]
      constructor
      · rintro ⟨hm, hmn, hmk⟩
        refine ⟨hm, fun m' hm' => hmn ▸ hbound' m' hm', fun m' hm' heq => ?_⟩
        exact hmk ▸ hkbound _ ⟨m', ⟨hm', heq.trans hmn⟩, rfl⟩
      · rintro ⟨hm, hmax, hmprio⟩
        have hmn : m.path.pathPrefix.len = n :=
          le_antisymm (hbound' m hm) (hbestn ▸ hmax best hbest)
        refine ⟨hm, hmn, le_antisymm (hkbound _ ⟨m, ⟨hm, hmn⟩, rfl⟩) ?_⟩
        exact htopk ▸ hmprio top htop (htopn.trans hmn.symm)

lemma selectMatches_eq_nil {ms : List RouteMatch} : selectMatches ms = [] ↔ ms = [] := by
  constructor
  · intro h
    by_contra hne
    obtain ⟨longest, hmem, hlen⟩ :=
      exists_largest (fun m : RouteMatch => m.path.pathPrefix.len) hne
    have hfne : (ms.filter fun m => m.path.pathPrefix.len == longest.path.pathPrefix.len) ≠ [] :=
      ne_nil_of_mem (mem_filter.mpr ⟨hmem, by simp⟩)
    obtain ⟨top, htopmem, hprio⟩ :=
      exists_largest (fun m : RouteMatch => sourcePriority m.route.source) hfne
    simp only [mem_filter, beq_iff_eq] at htopmem hprio
    have : top ∈ selectMatches ms := mem_selectMatches.mpr
      ⟨htopmem.1, fun m hm => htopmem.2 ▸ hlen m hm,
        fun m hm heq => hprio m ⟨hm, heq.trans htopmem.2⟩⟩
    simp [h] at this
  · rintro rfl
    rfl

/-! ### The merge -/

lemma foldl_absorb (first : RouteMatch) (rest : List RouteMatch) :
    (rest.foldl RouteMatch.absorb first).route = first.route ∧
    (rest.foldl RouteMatch.absorb first).path.pathPrefix = first.path.pathPrefix ∧
    (∀ u, u ∈ (rest.foldl RouteMatch.absorb first).path.upstreams.map Upstream.url ↔
      ∃ m ∈ first :: rest, u ∈ m.path.upstreams.map Upstream.url) ∧
    ∀ n, n ∈ (rest.foldl RouteMatch.absorb first).path.middlewares ↔
      ∃ m ∈ first :: rest, n ∈ m.path.middlewares := by
  induction rest generalizing first with
  | nil => simp
  | cons m rest ih =>
    obtain ⟨hroute, hpre, hurls, hnames⟩ := ih (first.absorb m)
    refine ⟨hroute, hpre, fun u => ?_, fun n => ?_⟩
    · rw [foldl_cons, hurls]
      simp only [mem_cons, exists_eq_or_imp, RouteMatch.absorb, extendUniqueUpstreams]
      rw [mem_map_extendUniqueBy, or_assoc]
    · have hid := fun (l : List Text) => map_id l
      rw [foldl_cons, hnames]
      simp only [mem_cons, exists_eq_or_imp, RouteMatch.absorb, extendUniqueMiddlewares]
      rw [← hid (extendUniqueBy id _ _), mem_map_extendUniqueBy, hid, hid, or_assoc]

lemma mergeBestRouteMatches_eq_some {ms : List RouteMatch} (h : mergeBestRouteMatches ms = some m) :
    ∃ first, (selectMatches ms).head? = some first ∧
      m.route = { first.route with paths := [m.path] } ∧
      m.path.pathPrefix = first.path.pathPrefix ∧
      (∀ u, u ∈ m.path.upstreams.map Upstream.url ↔
        ∃ m' ∈ selectMatches ms, u ∈ m'.path.upstreams.map Upstream.url) ∧
      ∀ n, n ∈ m.path.middlewares ↔ ∃ m' ∈ selectMatches ms, n ∈ m'.path.middlewares := by
  rw [mergeBestRouteMatches] at h
  cases hsel : selectMatches ms with
  | nil => simp [hsel] at h
  | cons first rest =>
    simp only [hsel, Option.some.injEq] at h
    obtain ⟨hroute, hpre, hurls, hnames⟩ := foldl_absorb first rest
    subst h
    exact ⟨first, rfl, by simp [hroute], hpre, hurls, hnames⟩

/-! ### `find` meets the specification -/

lemma servesAt_of_bestPath {path : Text} {p : PathRoute}
    (h : r.bestPath path = some p) : r.ServesAt path p.pathPrefix.len :=
  have hp := bestPath_eq_some h
  ⟨p, hp.1, hp.2.1, rfl⟩

lemma Selected.longest {n : ℕ}
    (hn : LongestPrefix table host path n) (hr : Selected table host path n r) {p : PathRoute}
    (hp : r.bestPath path = some p) : p.pathPrefix.len = n := by
  obtain ⟨q, hq, hqm, hqn⟩ := hr.serves
  obtain ⟨-, -, hmax⟩ := bestPath_eq_some hp
  exact le_antisymm (hn.bound r hr.eligible _ (servesAt_of_bestPath hp)) (hqn ▸ hmax q hq hqm)

lemma mem_selectMatches_findMatches {n : ℕ} (hn : LongestPrefix table host path n) :
    m ∈ selectMatches (findMatches table host path) ↔
      Selected table host path n m.route ∧ m.route.bestPath path = some m.path := by
  have hlen : ∀ r p, Eligible table host path r → r.bestPath path = some p →
      p.pathPrefix.len ≤ n := fun r p hr hp => hn.bound r hr _ (servesAt_of_bestPath hp)
  rw [mem_selectMatches, mem_findMatches]
  constructor
  · rintro ⟨⟨he, hp⟩, hmax, hprio⟩
    -- the length of this match is that of the longest prefix
    have hmn : m.path.pathPrefix.len = n := by
      obtain ⟨r, hr, q, hq, hqm, hqn⟩ := hn.attained
      obtain ⟨p, hrp⟩ := bestPath_isSome_iff.mpr hr.serves
      have hqp := (bestPath_eq_some hrp).2.2 q hq hqm
      have hpm := hmax ⟨r, p⟩ (mem_findMatches.mpr ⟨hr, hrp⟩)
      have hmn := hlen _ _ he hp
      simp only at hpm
      omega
    refine ⟨⟨he, hmn ▸ servesAt_of_bestPath hp, fun r' hr' hs' => ?_⟩, hp⟩
    obtain ⟨p', hp'⟩ := bestPath_isSome_iff.mpr hr'.serves
    obtain ⟨q, hq, hqm, hqn⟩ := hs'
    have hqp := (bestPath_eq_some hp').2.2 q hq hqm
    have hpn := hlen _ _ hr' hp'
    exact hprio ⟨r', p'⟩ (mem_findMatches.mpr ⟨hr', hp'⟩) (by simp only; omega)
  · rintro ⟨hsel, hp⟩
    have hmn := hsel.longest hn hp
    refine ⟨⟨hsel.eligible, hp⟩, fun m' hm' => ?_, fun m' hm' heq => ?_⟩
    · obtain ⟨he', hp'⟩ := mem_findMatches.mp hm'
      exact hmn ▸ hlen _ _ he' hp'
    · obtain ⟨he', hp'⟩ := mem_findMatches.mp hm'
      exact hsel.priority _ he' (hmn ▸ heq ▸ servesAt_of_bestPath hp')

lemma find_eq_none :
    find table host path = none ↔
      normalizeDomain host = [] ∨ ∀ r, ¬ Eligible table (normalizeDomain host) path r := by
  have hmerge : mergeBestRouteMatches (findMatches table (normalizeDomain host) path) = none ↔
      ∀ r, ¬ Eligible table (normalizeDomain host) path r := by
    have hsel : ∀ ms, mergeBestRouteMatches ms = none ↔ selectMatches ms = [] := by
      intro ms
      rw [mergeBestRouteMatches]
      cases selectMatches ms <;> simp
    rw [hsel, selectMatches_eq_nil, eq_nil_iff_forall_not_mem]
    constructor
    · intro h r hr
      obtain ⟨p, hp⟩ := bestPath_isSome_iff.mpr hr.serves
      exact h ⟨r, p⟩ (mem_findMatches.mpr ⟨hr, hp⟩)
    · intro h m hm
      exact h m.route (mem_findMatches.mp hm).1
  by_cases hhost : normalizeDomain host = []
  · simp [find, hhost]
  · simp [find, hhost, hmerge]

lemma find_eq_some (h : find table host path = some m) :
    LongestPrefix table (normalizeDomain host) path m.path.pathPrefix.len ∧
    ∃ first, (selectMatches (findMatches table (normalizeDomain host) path)).head? = some first ∧
      m.route = { first.route with paths := [m.path] } ∧
      m.path.pathPrefix = first.path.pathPrefix ∧
      (∀ u, u ∈ m.path.upstreams.map Upstream.url ↔
        ∃ m' ∈ selectMatches (findMatches table (normalizeDomain host) path),
          u ∈ m'.path.upstreams.map Upstream.url) ∧
      ∀ n, n ∈ m.path.middlewares ↔
        ∃ m' ∈ selectMatches (findMatches table (normalizeDomain host) path),
          n ∈ m'.path.middlewares := by
  rw [find] at h
  split at h
  · cases h
  · obtain ⟨first, hfirst, hroute, hpre, hrest⟩ := mergeBestRouteMatches_eq_some h
    refine ⟨?_, first, hfirst, hroute, hpre, hrest⟩
    obtain ⟨hmem, hmax, -⟩ := mem_selectMatches.mp (mem_of_head? hfirst)
    obtain ⟨he, hp⟩ := mem_findMatches.mp hmem
    rw [hpre]
    refine ⟨⟨first.route, he, servesAt_of_bestPath hp⟩, ?_⟩
    rintro r hr k ⟨q, hq, hqm, rfl⟩
    obtain ⟨p, hrp⟩ := bestPath_isSome_iff.mpr hr.serves
    exact ((bestPath_eq_some hrp).2.2 q hq hqm).trans
      (hmax ⟨r, p⟩ (mem_findMatches.mpr ⟨hr, hrp⟩))

open Classical in
noncomputable def selectedRoutes (table : RouteTable) (host path : Text) (n : ℕ) : List Route :=
  table.routes.filter fun r => Selected table host path n r

lemma findMatches_eq_filterMap (table : RouteTable) (host path : Text) :
    ∃ g : Route → Option RouteMatch, (∀ r m, g r = some m → m.route = r) ∧
      findMatches table host path = table.routes.filterMap g := by
  have hmatching : ∀ domain www, ∃ g : Route → Option RouteMatch,
      (∀ r m, g r = some m → m.route = r) ∧
        matchingRoutes table domain path www = table.routes.filterMap g := by
    intro domain www
    rw [matchingRoutes, table.indexed, filter_filter, filterMap_filter]
    refine ⟨_, fun r m hm => ?_, rfl⟩
    split at hm
    · obtain ⟨p, -, rfl⟩ := Option.map_eq_some_iff.mp hm
      rfl
    · cases hm
  rw [findMatches]
  split
  · cases wwwAliasBase host with
    | none => exact hmatching host false
    | some base => exact hmatching base true
  · exact hmatching host false

lemma selectMatches_eq_filter (ms : List RouteMatch) :
    ∃ p : RouteMatch → Bool, selectMatches ms = ms.filter p := by
  rw [selectMatches]
  cases (ms.map fun m => m.path.pathPrefix.len).max? with
  | none => exact ⟨fun _ => false, by simp⟩
  | some n =>
    simp only
    cases ((ms.filter fun m => m.path.pathPrefix.len == n).map fun m =>
        sourcePriority m.route.source).max? with
    | none => exact ⟨fun _ => false, by simp⟩
    | some k => exact ⟨_, rfl⟩

open Classical in
lemma map_route_selectMatches {n : ℕ} (hn : LongestPrefix table host path n) :
    (selectMatches (findMatches table host path)).map RouteMatch.route =
      selectedRoutes table host path n := by
  obtain ⟨g, hg, hfind⟩ := findMatches_eq_filterMap table host path
  obtain ⟨p, hp⟩ := selectMatches_eq_filter (findMatches table host path)
  have hsel := hp
  rw [hfind, filter_filterMap] at hsel
  have hinv : ∀ r m, (g r).filter p = some m → m.route = r := fun r m hm =>
    hg r m (Option.filter_eq_some_iff.mp hm).1
  rw [hfind, hsel, map_filterMap_of_inverse hinv, selectedRoutes]
  refine filter_congr fun r hr => ?_
  rw [← hfind] at hsel
  rw [Bool.eq_iff_iff, Option.isSome_iff_exists, decide_eq_true_iff]
  constructor
  · rintro ⟨m, hm⟩
    have hmem : m ∈ selectMatches (findMatches table host path) :=
      hsel ▸ mem_filterMap.mpr ⟨r, hr, hm⟩
    exact hinv r m hm ▸ ((mem_selectMatches_findMatches hn).mp hmem).1
  · intro hr'
    obtain ⟨q, hq⟩ := bestPath_isSome_iff.mpr hr'.eligible.serves
    have hmem := (mem_selectMatches_findMatches hn (m := ⟨r, q⟩)).mpr ⟨hr', hq⟩
    rw [hsel] at hmem
    obtain ⟨r', -, hm⟩ := mem_filterMap.mp hmem
    obtain rfl : r = r' := hinv r' _ hm
    exact ⟨_, hm⟩

structure Route.PrefixesNormal (route : Route) : Prop where
  normal : ∀ p ∈ route.paths, normalizePathPrefix p.pathPrefix = p.pathPrefix
  nodup : (route.paths.map PathRoute.pathPrefix).Nodup

lemma bestPath_of_pathPrefix_eq {path : Text} (hr : r.PrefixesNormal)
    (hpath : path.head? = some '/') {p q : PathRoute} (hq : r.bestPath path = some q)
    (hp : p ∈ r.paths) (hpm : p.matches path = true)
    (hlen : p.pathPrefix.len = q.pathPrefix.len) : p = q := by
  obtain ⟨hqr, hqm, -⟩ := bestPath_eq_some hq
  have heq : p.pathPrefix = q.pathPrefix :=
    Text.eq_of_isPrefix_of_len_eq (isPrefix_of_matches (hr.normal p hp) hpath hpm)
      (isPrefix_of_matches (hr.normal q hqr) hpath hqm) hlen
  exact inj_on_of_nodup_map hr.nodup hp hqr heq

/-- **Correctness of `find`.**  It returns nothing exactly when no route is
eligible.  Otherwise its prefix is a longest one, its route is a selected route
with the merged path as its only path, and its upstream URLs are those of the
entries that the selected routes match with; when each route lists its prefixes
once and normalised, these are all URLs that the selected routes attach to the
prefix. -/
theorem find_correct (table : RouteTable) (host path : Text) :
    (find table host path = none ↔
      normalizeDomain host = [] ∨ ∀ r, ¬ Eligible table (normalizeDomain host) path r) ∧
    ∀ m, find table host path = some m →
      LongestPrefix table (normalizeDomain host) path m.path.pathPrefix.len ∧
      (∃ r p, Selected table (normalizeDomain host) path m.path.pathPrefix.len r ∧
        r.bestPath path = some p ∧ m.path.pathPrefix = p.pathPrefix ∧
        m.route = { r with paths := [m.path] }) ∧
      (∀ u, u ∈ m.path.upstreams.map Upstream.url ↔
        ∃ r p, Selected table (normalizeDomain host) path m.path.pathPrefix.len r ∧
          r.bestPath path = some p ∧ u ∈ p.upstreams.map Upstream.url) ∧
      (path.head? = some '/' → (∀ r ∈ table.routes, r.PrefixesNormal) →
        ∀ u, u ∈ m.path.upstreams.map Upstream.url ↔
          ∃ r, Selected table (normalizeDomain host) path m.path.pathPrefix.len r ∧
            ∃ p ∈ r.paths, p.pathPrefix = m.path.pathPrefix ∧
              u ∈ p.upstreams.map Upstream.url) := by
  refine ⟨find_eq_none, fun m hm => ?_⟩
  obtain ⟨hlongest, first, hfirst, hroute, hpre, hurls, -⟩ := find_eq_some hm
  obtain ⟨hsel, hbest⟩ := (mem_selectMatches_findMatches hlongest).mp (mem_of_head? hfirst)
  have hurls' : ∀ u, u ∈ m.path.upstreams.map Upstream.url ↔
      ∃ r p, Selected table (normalizeDomain host) path m.path.pathPrefix.len r ∧
        r.bestPath path = some p ∧ u ∈ p.upstreams.map Upstream.url := by
    intro u
    rw [hurls]
    constructor
    · rintro ⟨m', hm', hu⟩
      obtain ⟨hsel', hbest'⟩ := (mem_selectMatches_findMatches hlongest).mp hm'
      exact ⟨m'.route, m'.path, hsel', hbest', hu⟩
    · rintro ⟨r, p, hr, hp, hu⟩
      exact ⟨⟨r, p⟩, (mem_selectMatches_findMatches hlongest).mpr ⟨hr, hp⟩, hu⟩
  refine ⟨hlongest, ⟨first.route, first.path, hsel, hbest, hpre, hroute⟩, hurls', ?_⟩
  intro hpath hnormal u
  rw [hurls']
  -- the merged prefix matches, so each entry with that prefix is the one kept
  obtain ⟨hfmem, hfm, -⟩ := bestPath_eq_some hbest
  have hfpre := isPrefix_of_matches ((hnormal _ hsel.eligible.mem).normal _ hfmem) hpath hfm
  constructor
  · rintro ⟨r, p, hr, hp, hu⟩
    obtain ⟨hpr, hpm, -⟩ := bestPath_eq_some hp
    have hlen := hr.longest hlongest hp
    refine ⟨r, hr, p, hpr, ?_, hu⟩
    rw [hpre] at hlen ⊢
    exact Text.eq_of_isPrefix_of_len_eq
      (isPrefix_of_matches ((hnormal r hr.eligible.mem).normal p hpr) hpath hpm) hfpre hlen
  · rintro ⟨r, hr, p, hpr, heq, hu⟩
    obtain ⟨q, hq⟩ := bestPath_isSome_iff.mpr hr.eligible.serves
    have hpm : p.matches path = true := by
      simpa [PathRoute.matches, heq, hpre] using hfm
    have hlen : p.pathPrefix.len = q.pathPrefix.len := by rw [heq, hr.longest hlongest hq]
    exact ⟨r, q, hr, hq,
      bestPath_of_pathPrefix_eq (hnormal r hr.eligible.mem) hpath hq hpr hpm hlen ▸ hu⟩

def repeatedPrefix : Route where
  id := "r"
  domain := "a.com"
  source := .static
  paths :=
    [{ pathPrefix := "/", upstreams := [{ url := "http://one" }] },
      { pathPrefix := "/", upstreams := [{ url := "http://two" }] }]

/-- The first of two entries for one prefix is lost: the selected route attaches
`http://one` to the prefix of the result, and the result does not have it. -/
theorem find_drops_repeated_prefix :
    ∃ m, find (RouteTable.new [repeatedPrefix]) "a.com" "/" = some m ∧
      Selected (RouteTable.new [repeatedPrefix]) (normalizeDomain "a.com") "/"
        m.path.pathPrefix.len repeatedPrefix ∧
      (∃ p ∈ repeatedPrefix.paths, p.pathPrefix = m.path.pathPrefix ∧
        "http://one".toList ∈ p.upstreams.map Upstream.url) ∧
      "http://one".toList ∉ m.path.upstreams.map Upstream.url := by
  have hfind : (find (RouteTable.new [repeatedPrefix]) "a.com" "/").map (fun m =>
      (m.path.pathPrefix, m.path.upstreams.map Upstream.url)) =
        some ("/".toList, ["http://two".toList]) := by
    decide
  obtain ⟨m, hm, hpair⟩ := Option.map_eq_some_iff.mp hfind
  obtain ⟨hpre, hurls⟩ := Prod.mk.inj hpair
  obtain ⟨hlongest, first, hfirst, -⟩ := find_eq_some hm
  obtain ⟨hsel, -⟩ := (mem_selectMatches_findMatches hlongest).mp (mem_of_head? hfirst)
  have hroutes : (RouteTable.new [repeatedPrefix]).routes = [repeatedPrefix] := rfl
  have hroute : first.route = repeatedPrefix := by
    have := hsel.eligible.mem
    rwa [hroutes, mem_singleton] at this
  refine ⟨m, hm, hroute ▸ hsel, ⟨_, .head _, hpre.symm, by decide⟩, ?_⟩
  rw [hurls]
  decide

end PxxlEdge
