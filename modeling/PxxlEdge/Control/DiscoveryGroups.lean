import PxxlEdge.Control.Discovery

/-!
The routes that the targets of containers are grouped into.
-/

namespace PxxlEdge

open RustStd List

/-! ### Sorted upstreams -/

def urlBefore (left right : Upstream) : Prop := Text.isLe left.url right.url = true

instance : DecidableRel urlBefore := fun _ _ => inferInstanceAs (Decidable (_ = true))

def sortUpstreams (upstreams : List Upstream) : List Upstream := upstreams.insertionSort urlBefore

lemma sortUpstreams_congr {upstreams upstreams' : List Upstream} (h : upstreams ~ upstreams')
    (hnodup : (upstreams.map Upstream.url).Nodup) :
    sortUpstreams upstreams = sortUpstreams upstreams' := by
  have : Std.Total urlBefore := ⟨fun a b => Text.isLe_total a.url b.url⟩
  have : IsTrans Upstream urlBefore := ⟨fun _ _ _ => Text.isLe_trans⟩
  have hperm : sortUpstreams upstreams ~ sortUpstreams upstreams' :=
    ((perm_insertionSort _ _).trans h).trans (perm_insertionSort _ _).symm
  refine hperm.eq_of_pairwise (fun a b ha hb hab hba => ?_) (pairwise_insertionSort _ _)
    (pairwise_insertionSort _ _)
  refine inj_on_of_nodup_map hnodup ((mem_insertionSort _).mp ha)
    ((mem_insertionSort _).mp (hperm.symm.subset hb)) (Text.isLe_antisymm hab hba)

def sortGroups (grouped : Grouped) : Grouped :=
  grouped.map fun _ paths => paths.map fun _ upstreams => sortUpstreams upstreams

def sortedRoute (now : Int) (provider : ContainerProvider)
    (group : Text × BTreeMap Text (List Upstream)) : Route :=
  Route.new (containerRouteId provider group.1) now group.1
    (group.2.toList.map fun e => PathRoute.new e.1 e.2) provider.routeSource

section Sorted

variable {U : UrlParser} {vars : EnvVars} {now : Int} {provider : ContainerProvider}

lemma groupRoute_eq (domain : Text) (paths : BTreeMap Text (List Upstream)) :
    groupRoute now provider domain paths = sortedRoute now provider
      (domain, paths.map fun _ upstreams => sortUpstreams upstreams) := by
  rw [groupRoute, sortedRoute, Std.ExtTreeMap.toList_map, map_map]
  rfl

lemma routesFromTargets_eq (targets : List DockerRouteTarget) :
    routesFromTargets U vars now provider targets =
      ((sortGroups (targets.foldl groupTarget ∅)).toList.map (sortedRoute now provider)).filter
        fun route => (route.validateForDynamicControlPlane U vars).isOk := by
  rw [routesFromTargets, sortGroups, Std.ExtTreeMap.toList_map, map_map]
  generalize (targets.foldl groupTarget ∅).toList = groups
  induction groups with
  | nil => rfl
  | cons group groups ih =>
    rw [filterMap_cons, ih, map_cons, filter_cons, Function.comp, ← groupRoute_eq]
    cases Route.validateForDynamicControlPlane U vars
      (groupRoute now provider group.1 group.2) <;> rfl

lemma get2_sortGroups (grouped : Grouped) (k : Text × Text) :
    (sortGroups grouped).get2 k = (grouped.get2 k).map sortUpstreams := by
  rw [BTreeMap.get2, BTreeMap.get2, sortGroups, Std.ExtTreeMap.getElem?_map]
  cases grouped[k.1]? with
  | none => rfl
  | some paths => exact Std.ExtTreeMap.getElem?_map

end Sorted

/-! ### Quotas -/

structure WithinQuotas (targets : List DockerRouteTarget) : Prop where
  domains : (targets.map DockerRouteTarget.domain).toFinset.card ≤ maxRoutesPerSource
  paths : ∀ domain, ((targets.filter (·.domain = domain)).map
    DockerRouteTarget.path).toFinset.card ≤ maxPathsPerRoute
  upstreams : ∀ domain path, ((targets.filter fun t => t.domain = domain ∧ t.path = path).map
    fun t => t.upstream.url).toFinset.card ≤ maxUpstreamsPerRoute

def DockerRouteTarget.OfContainer (target : DockerRouteTarget) : Prop :=
  ∃ labelConfig host port, target ∈ routeTargetsFromLabelConfig labelConfig host port

structure Groups (targets : List DockerRouteTarget) (grouped : Grouped) : Prop where
  noEmpty : grouped.NoEmpty
  nonempty : ∀ k, grouped.get2 k ≠ some []
  mem_iff : ∀ k upstream, upstream ∈ (grouped.get2 k).getD [] ↔ ⟨k.1, k.2, upstream⟩ ∈ targets
  nodup : ∀ k, (((grouped.get2 k).getD []).map Upstream.url).Nodup

lemma upstream_ofContainer {target : DockerRouteTarget} (h : target.OfContainer) :
    target.upstream = Upstream.new target.upstream.url := by
  obtain ⟨labelConfig, host, port, hmem⟩ := h
  obtain ⟨domain, -, rfl⟩ := mem_map.mp hmem
  rfl

lemma length_lt_card {α : Type} [DecidableEq α] {l : List α} {s : Finset α} {a : α}
    (hnodup : l.Nodup) (hsub : ∀ x ∈ l, x ∈ s) (ha : a ∈ s) (hnew : a ∉ l) :
    l.length < s.card := by
  rw [← toFinset_card_of_nodup hnodup]
  have hsubset : l.toFinset ⊆ s := fun x hx => hsub x (mem_toFinset.mp hx)
  exact Finset.card_lt_card ((Finset.ssubset_iff_of_subset hsubset).mpr
    ⟨a, ha, fun hmem => hnew (mem_toFinset.mp hmem)⟩)

lemma size_lt_card {ν : Type} {m : BTreeMap Text ν} {s : Finset Text} {a : Text}
    (hsub : ∀ k v, m[k]? = some v → k ∈ s) (ha : a ∈ s) (hnew : ¬ m.contains a) :
    m.size < s.card := by
  rw [← Std.ExtTreeMap.length_keys]
  refine length_lt_card Std.ExtTreeMap.nodup_keys (fun k hk => ?_) ha fun hmem => ?_
  · rw [Std.ExtTreeMap.mem_keys, Std.ExtTreeMap.mem_iff_isSome_getElem?] at hk
    obtain ⟨v, hv⟩ := Option.isSome_iff_exists.mp hk
    exact hsub k v hv
  · exact hnew (Std.ExtTreeMap.contains_iff_mem.mpr (Std.ExtTreeMap.mem_keys.mp hmem))

section Grouping

variable {targets seen : List DockerRouteTarget} {target : DockerRouteTarget} {grouped : Grouped}

def addUpstream (upstreams : List Upstream) (upstream : Upstream) : List Upstream :=
  if upstreams.any fun existing => existing.url == upstream.url then upstreams
  else upstreams ++ [upstream]

lemma Groups.exists_target (h : Groups seen grouped) {k : Text × Text}
    {upstreams : List Upstream} (hget : grouped.get2 k = some upstreams) :
    ∃ upstream, ⟨k.1, k.2, upstream⟩ ∈ seen := by
  cases upstreams with
  | nil => exact absurd hget (h.nonempty _)
  | cons upstream rest => exact ⟨upstream, (h.mem_iff k _).mp (hget ▸ mem_cons_self)⟩

lemma Groups.groupTarget_eq (h : Groups seen grouped) (hquotas : WithinQuotas targets)
    (hseen : seen ⊆ targets) (htarget : target ∈ targets) :
    groupTarget grouped target = grouped.insert2 (target.domain, target.path)
      (addUpstream ((grouped.get2 (target.domain, target.path)).getD []) target.upstream) := by
  have hdomains : ¬ (¬ grouped.contains target.domain ∧ maxRoutesPerSource ≤ grouped.size) := by
    rintro ⟨hnew, hle⟩
    refine hle.not_gt ((size_lt_card (fun domain paths hdomain => ?_)
      (mem_toFinset.mpr (mem_map_of_mem htarget)) hnew).trans_le hquotas.domains)
    obtain ⟨path, upstreams, hget⟩ := h.noEmpty.exists_get2 hdomain
    obtain ⟨upstream, hmem⟩ := h.exists_target hget
    exact mem_toFinset.mpr (mem_map_of_mem (f := DockerRouteTarget.domain) (hseen hmem))
  set paths := grouped[target.domain]?.getD ∅ with hpaths
  have hget : ∀ path : Text, paths[path]? = grouped.get2 (target.domain, path) := by
    intro path
    rw [BTreeMap.get2, hpaths]
    cases grouped[target.domain]? with
    | none => simp
    | some paths => rfl
  have hroom : ¬ (¬ paths.contains target.path ∧ maxPathsPerRoute ≤ paths.size) := by
    rintro ⟨hnew, hle⟩
    refine hle.not_gt ((size_lt_card (fun path upstreams hpath => ?_) (mem_toFinset.mpr
      (mem_map_of_mem (mem_filter.mpr ⟨htarget, by simp⟩))) hnew).trans_le
        (hquotas.paths target.domain))
    rw [hget] at hpath
    obtain ⟨upstream, hmem⟩ := h.exists_target hpath
    exact mem_toFinset.mpr (mem_map_of_mem (f := DockerRouteTarget.path)
      (mem_filter.mpr ⟨hseen hmem, by simp⟩))
  rw [groupTarget, if_neg hdomains]
  dsimp only
  rw [← hpaths, if_neg hroom, hget, addUpstream]
  have hmem := h.mem_iff (target.domain, target.path)
  have hnodup := h.nodup (target.domain, target.path)
  generalize (grouped.get2 (target.domain, target.path)).getD [] = upstreams at hmem hnodup
  by_cases hany : (upstreams.any fun existing => existing.url == target.upstream.url) = true
  · rw [if_pos (.inr hany), if_pos hany]
  · have hlt : upstreams.length < maxUpstreamsPerRoute := by
      rw [← length_map (f := Upstream.url)]
      refine (length_lt_card hnodup (fun url hurl => ?_) (mem_toFinset.mpr
        (mem_map_of_mem (f := fun t => t.upstream.url) (mem_filter.mpr ⟨htarget, by simp⟩)))
        fun hurl => ?_).trans_le (hquotas.upstreams target.domain target.path)
      · obtain ⟨upstream, hupstream, rfl⟩ := mem_map.mp hurl
        exact mem_toFinset.mpr (mem_map_of_mem (f := fun t => t.upstream.url)
          (mem_filter.mpr ⟨hseen ((hmem upstream).mp hupstream), by simp⟩))
      · obtain ⟨existing, hexisting, hurl⟩ := mem_map.mp hurl
        exact hany (any_eq_true.mpr ⟨existing, hexisting, beq_iff_eq.mpr hurl⟩)
    rw [if_neg (not_or.mpr ⟨by omega, hany⟩), if_neg hany]

lemma mem_addUpstream {upstreams : List Upstream} {upstream : Upstream}
    (h : ∀ existing ∈ upstreams, existing = Upstream.new existing.url)
    (hupstream : upstream = Upstream.new upstream.url) (other : Upstream) :
    other ∈ addUpstream upstreams upstream ↔ other ∈ upstreams ∨ other = upstream := by
  rw [addUpstream]
  split
  · next hany =>
    obtain ⟨existing, hexisting, hurl⟩ := any_eq_true.mp hany
    have heq : existing = upstream := by
      rw [h existing hexisting, hupstream, beq_iff_eq.mp hurl]
    exact ⟨.inl, fun hor => hor.elim id fun hother => hother ▸ heq ▸ hexisting⟩
  · rw [mem_append, mem_singleton]

lemma nodup_addUpstream {upstreams : List Upstream} {upstream : Upstream}
    (h : (upstreams.map Upstream.url).Nodup) :
    ((addUpstream upstreams upstream).map Upstream.url).Nodup := by
  rw [addUpstream]
  split
  · exact h
  · next hany =>
    rw [map_append, map_singleton, ← concat_eq_append]
    refine h.concat fun hmem => hany ?_
    obtain ⟨existing, hexisting, hurl⟩ := mem_map.mp hmem
    exact any_eq_true.mpr ⟨existing, hexisting, beq_iff_eq.mpr hurl⟩

lemma Groups.insert (h : Groups seen grouped) (hseen : ∀ t ∈ seen, t.OfContainer)
    (htarget : target.OfContainer) :
    Groups (seen ++ [target]) (grouped.insert2 (target.domain, target.path)
      (addUpstream ((grouped.get2 (target.domain, target.path)).getD []) target.upstream)) := by
  have hadd := mem_addUpstream (fun existing hexisting =>
    upstream_ofContainer (hseen _ ((h.mem_iff (target.domain, target.path) existing).mp hexisting)))
      (upstream_ofContainer htarget)
  refine ⟨h.noEmpty.insert2, fun k => ?_, fun k upstream => ?_, fun k => ?_⟩
  all_goals by_cases hk : k = (target.domain, target.path)
  · rw [hk, BTreeMap.get2_insert2_self]
    intro hnil
    have hself := (hadd target.upstream).mpr (.inr rfl)
    rw [Option.some.inj hnil] at hself
    cases hself
  · rw [BTreeMap.get2_insert2_ne hk]
    exact h.nonempty k
  · rw [hk, BTreeMap.get2_insert2_self, Option.getD_some, hadd, h.mem_iff, mem_append,
      mem_singleton]
    exact or_congr_right ⟨fun heq => by rw [heq], fun heq => by rw [← heq]⟩
  · rw [BTreeMap.get2_insert2_ne hk, h.mem_iff, mem_append, mem_singleton]
    refine (or_iff_left ?_).symm
    rintro rfl
    exact hk rfl
  · rw [hk, BTreeMap.get2_insert2_self, Option.getD_some]
    exact nodup_addUpstream (h.nodup _)
  · rw [BTreeMap.get2_insert2_ne hk]
    exact h.nodup k

lemma groups_foldl (hquotas : WithinQuotas targets) (hall : ∀ t ∈ targets, t.OfContainer) :
    Groups targets (targets.foldl groupTarget ∅) := by
  suffices hprefix : ∀ seen, seen <+: targets → Groups seen (seen.foldl groupTarget ∅) from
    hprefix targets prefix_rfl
  intro seen
  induction seen using reverseRecOn with
  | nil =>
    refine fun _ => ⟨BTreeMap.noEmpty_empty, ?_, ?_, ?_⟩
    all_goals simp
  | append_singleton seen target ih =>
    intro hprefix
    have hsub := hprefix.subset
    have hseen := ih ((prefix_append _ _).trans hprefix)
    rw [foldl_append, foldl_cons, foldl_nil, hseen.groupTarget_eq hquotas
      (fun t ht => hsub (mem_append_left _ ht)) (hsub (by simp))]
    exact hseen.insert (fun t ht => hall t (hsub (mem_append_left _ ht))) (hall _ (hsub (by simp)))

variable {targets' : List DockerRouteTarget} {grouped' : Grouped}

lemma Groups.noEmpty_sortGroups (h : Groups targets grouped) : (sortGroups grouped).NoEmpty := by
  intro domain hempty
  rw [sortGroups, Std.ExtTreeMap.getElem?_map, Option.map_eq_some_iff] at hempty
  obtain ⟨paths, hpaths, hmap⟩ := hempty
  obtain ⟨path, upstreams, hget⟩ := h.noEmpty.exists_get2 hpaths
  rw [BTreeMap.get2, hpaths, Option.bind_some] at hget
  have hnone := congrArg (fun m : BTreeMap Text (List Upstream) => m[path]?) hmap
  simp [Std.ExtTreeMap.getElem?_map, hget] at hnone

lemma Groups.sortGroups_eq (h : Groups targets grouped) (h' : Groups targets' grouped')
    {domain : Text} (hsame : ∀ t : DockerRouteTarget, t.domain = domain →
      (t ∈ targets ↔ t ∈ targets')) :
    (sortGroups grouped)[domain]? = (sortGroups grouped')[domain]? := by
  refine BTreeMap.getElem?_eq_of_get2 h.noEmpty_sortGroups h'.noEmpty_sortGroups fun path => ?_
  have hnodup := h.nodup (domain, path)
  have hperm : (grouped.get2 (domain, path)).getD [] ~ (grouped'.get2 (domain, path)).getD [] := by
    refine (perm_ext_iff_of_nodup hnodup.of_map (h'.nodup _).of_map).mpr fun upstream => ?_
    rw [h.mem_iff, h'.mem_iff, hsame _ rfl]
  have hnonempty := h.nonempty (domain, path)
  have hnonempty' := h'.nonempty (domain, path)
  rw [get2_sortGroups, get2_sortGroups]
  cases hget : grouped.get2 (domain, path) with
  | none =>
    cases hget' : grouped'.get2 (domain, path) with
    | none => rfl
    | some upstreams' =>
      rw [hget, hget'] at hperm
      exact absurd (hget'.trans (congrArg some hperm.symm.eq_nil)) hnonempty'
  | some upstreams =>
    cases hget' : grouped'.get2 (domain, path) with
    | none =>
      rw [hget, hget'] at hperm
      exact absurd (hget.trans (congrArg some hperm.eq_nil)) hnonempty
    | some upstreams' =>
      rw [hget, hget'] at hperm
      rw [hget] at hnodup
      exact congrArg some (sortUpstreams_congr hperm hnodup)

end Grouping

/-! ### The routes -/

def Route.pairs (route : Route) : List (Text × Text) :=
  route.paths.flatMap fun p => p.upstreams.map fun u => (p.pathPrefix, u.url)

structure DockerRouteTarget.Normal (target : DockerRouteTarget) : Prop where
  domain : normalizeDomain target.domain = target.domain
  path : normalizePathPrefix target.path = target.path

section Routes

variable {U : UrlParser} {vars : EnvVars} {now : Int} {provider : ContainerProvider}
  {targets targets' : List DockerRouteTarget} {grouped : Grouped}

lemma mem_routesFromTargets_iff {route : Route} :
    route ∈ routesFromTargets U vars now provider targets ↔
      ∃ domain paths, (sortGroups (targets.foldl groupTarget ∅))[domain]? = some paths ∧
        sortedRoute now provider (domain, paths) = route ∧
        (route.validateForDynamicControlPlane U vars).isOk := by
  rw [routesFromTargets_eq, mem_filter, mem_map]
  simp only [Prod.exists, Std.ExtTreeMap.mem_toList_iff_getElem?_eq_some]
  tauto

lemma card_toFinset_mono {l l' : List Text} (h : l ⊆ l') : l.toFinset.card ≤ l'.toFinset.card :=
  Finset.card_le_card fun _ hx => mem_toFinset.mpr (h (mem_toFinset.mp hx))

lemma WithinQuotas.subset (h : WithinQuotas targets) (hsub : targets' ⊆ targets) :
    WithinQuotas targets' where
  domains := (card_toFinset_mono (map_subset _ hsub)).trans h.domains
  paths domain :=
    (card_toFinset_mono (map_subset _ (filter_subset _ hsub))).trans (h.paths domain)
  upstreams domain path :=
    (card_toFinset_mono (map_subset _ (filter_subset _ hsub))).trans (h.upstreams domain path)

lemma withinQuotas_of_length_le (h : targets.length ≤ maxPathsPerRoute) : WithinQuotas targets := by
  have hcard : ∀ (p : DockerRouteTarget → Bool) (f : DockerRouteTarget → Text),
      ((targets.filter p).map f).toFinset.card ≤ maxPathsPerRoute := fun p f =>
    (toFinset_card_le _).trans ((length_map f).trans_le ((length_filter_le p _).trans h))
  refine ⟨?_, fun domain => hcard _ _, fun domain path => (hcard _ _).trans (by decide)⟩
  exact (toFinset_card_le _).trans ((length_map _).trans_le (h.trans (by decide)))

lemma Groups.sorted_spec (h : Groups targets grouped) {domain : Text}
    {paths : BTreeMap Text (List Upstream)} (hpaths : (sortGroups grouped)[domain]? = some paths)
    (path : Text) : ((paths[path]?.getD []).map Upstream.url).Nodup ∧
      (paths[path]? ≠ none → ∃ upstream, ⟨domain, path, upstream⟩ ∈ targets) ∧
      ∀ upstream, upstream ∈ paths[path]?.getD [] ↔ ⟨domain, path, upstream⟩ ∈ targets := by
  have hget : paths[path]? = (grouped.get2 (domain, path)).map sortUpstreams := by
    rw [← get2_sortGroups, BTreeMap.get2, hpaths, Option.bind_some]
  have hmem := h.mem_iff (domain, path)
  have hnodup := h.nodup (domain, path)
  rw [hget]
  cases hupstreams : grouped.get2 (domain, path) with
  | none =>
    rw [hupstreams] at hmem
    exact ⟨nodup_nil, fun hne => absurd rfl hne, hmem⟩
  | some upstreams =>
    rw [hupstreams] at hmem hnodup
    refine ⟨((perm_insertionSort _ _).map _).nodup_iff.mpr hnodup,
      fun _ => h.exists_target hupstreams, fun upstream => ?_⟩
    exact (mem_insertionSort _).trans (hmem upstream)

lemma Groups.pairs_sortedRoute (h : Groups targets grouped) (hnormal : ∀ t ∈ targets, t.Normal)
    {domain : Text} {paths : BTreeMap Text (List Upstream)}
    (hpaths : (sortGroups grouped)[domain]? = some paths) :
    (sortedRoute now provider (domain, paths)).domain = domain ∧
      (sortedRoute now provider (domain, paths)).pairs =
        paths.toList.flatMap fun e => e.2.map fun u => (e.1, u.url) := by
  have htarget : ∀ e ∈ paths.toList, ∃ upstream, ⟨domain, e.1, upstream⟩ ∈ targets := by
    intro e he
    refine (h.sorted_spec hpaths e.1).2.1 ?_
    rw [Std.ExtTreeMap.mem_toList_iff_getElem?_eq_some.mp he]
    exact Option.some_ne_none _
  have hne : paths.toList ≠ [] := by
    obtain ⟨path, upstreams, hget⟩ := h.noEmpty_sortGroups.exists_get2 hpaths
    rw [BTreeMap.get2, hpaths, Option.bind_some] at hget
    exact ne_nil_of_mem (Std.ExtTreeMap.mem_toList_iff_getElem?_eq_some.mpr hget)
  constructor
  · obtain ⟨e, he⟩ := exists_mem_of_ne_nil _ hne
    obtain ⟨upstream, hmem⟩ := htarget e he
    exact (hnormal _ hmem).domain
  · rw [Route.pairs, sortedRoute, Route.new, if_neg (by simpa using hne), flatMap_map]
    refine flatMap_congr fun e he => ?_
    obtain ⟨upstream, hmem⟩ := htarget e he
    rw [PathRoute.new, (hnormal _ hmem).path]

end Routes

def labelTarget (domain path host : Text) : DockerRouteTarget where
  domain := normalizeDomain domain
  path := normalizePathPrefix path
  upstream := Upstream.new ("http://" ++ host ++ ":80")

lemma ofContainer_labelTarget (domain path host : Text) :
    (labelTarget domain path host).OfContainer := by
  have hport : Nat.toDigits 10 80 = "80".toList := by decide
  refine ⟨⟨[domain], path, "http", none, 80⟩, host, 80, mem_singleton.mpr ?_⟩
  simp [labelTarget, hport]

end PxxlEdge
