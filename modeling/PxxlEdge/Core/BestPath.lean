import PxxlEdge.Common.CanonicalPath
import PxxlEdge.Common.Validate
import PxxlEdge.Core.FindSpec

/-!
Path routes by segments.  The code compares texts and lengths of texts; for
validated prefixes and canonical paths this is a comparison of segment lists.
-/

namespace PxxlEdge

open RustStd List

def segmentsOf (path : Text) : List Text := (path.splitOn '/').filter fun s => s ≠ []

lemma segmentsOf_joinSegments {segments : List Text} (h : ∀ s ∈ segments, IsSegment s)
    (b : Bool) : segmentsOf (joinSegments segments b) = segments := by
  have hall : segments.filter (fun s => s ≠ []) = segments :=
    filter_eq_self.mpr fun s hs => by simpa using (h s hs).ne_nil
  rw [segmentsOf, splitOn_joinSegments (fun s hs => (h s hs).no_slash), filter_append,
    filter_cons_of_neg (by simp), hall]
  split <;> simp

lemma segmentsOf_append_cons (s t : Text) :
    segmentsOf (s ++ '/' :: t) = segmentsOf s ++ segmentsOf t := by
  rw [segmentsOf, splitOn_append_cons_self, filter_append]
  rfl

/-! ### Validated prefixes -/

lemma solid_trimEndMatches (s : Text) : solid (s.trimEndMatches '/') = solid s := by
  induction s using List.reverseRecOn with
  | nil => rfl
  | append_singleton s c ih =>
    by_cases hc : c = '/'
    · rw [Text.trimEndMatches, rdropWhile_concat_pos _ _ _ (by simpa using hc),
        ← Text.trimEndMatches, ih]
      simp [solid, hc]
    · rw [Text.trimEndMatches, rdropWhile_concat_neg _ _ _ (by simpa using hc)]

lemma endsWith_slashed {p : Text} (h : p.endsWith "/" = true) :
    (slashed p).endsWith "/" = true := by
  obtain ⟨t, rfl⟩ := isSuffixOf_iff_suffix.mp h
  refine isSuffixOf_iff_suffix.mpr ⟨slashed t, ?_⟩
  rw [slashed, slashed, map_append]
  rfl

lemma canonicalizePath_of_validatePathPrefix {p : Text} (h : validatePathPrefix p = .ok ())
    (hroot : p ≠ "/") :
    p ≠ [] ∧ canonicalizePath p = .ok (p.trimEndMatches '/') := by
  rw [validatePathPrefix] at h
  split at h
  · cases h
  next hslash =>
  rw [not_or, not_not] at hslash
  cases hcanonical : canonicalizePath p with
  | error e => simp [hcanonical, bind, Except.bind] at h
  | ok c =>
    rw [hcanonical, ok_bind] at h
    split at h
    · cases h
    next hc =>
    rw [not_not, normalizePathPrefix,
      if_neg (not_or.mpr ⟨trim_ne_nil_of_startsWith hslash.2, hroot⟩), if_pos hslash.2] at hc
    exact ⟨hslash.1, congrArg _ hc⟩

lemma exists_segments_of_validatePathPrefix {p : Text} (h : validatePathPrefix p = .ok ()) :
    ∃ segments, (∀ s ∈ segments, IsSegment s) ∧ p = joinSegments segments false := by
  by_cases hroot : p = "/"
  · exact ⟨[], by simp, hroot⟩
  obtain ⟨hne, hcanonical⟩ := canonicalizePath_of_validatePathPrefix h hroot
  -- only slashes are lost, so nothing is decoded
  have hplain : '%' ∉ p := by
    intro hmem
    have hlt := len_solid_lt hcanonical hmem
    rw [solid_trimEndMatches] at hlt
    exact lt_irrefl _ hlt
  rcases canonicalizePath_eq_ok.mp hcanonical with
    ⟨hnil, -⟩ | ⟨-, decoded, hdecoded, hcontrol, hclean⟩
  · exact absurd hnil hne
  obtain rfl : p = decoded := by
    rw [percentDecodeRounds_of_stable (percentDecodeUtf8_of_not_mem hplain)] at hdecoded
    exact Except.ok.inj hdecoded
  have hsegments := isSegment_of_mem_keptSegments hcontrol
  -- a slash at the end would have been kept
  have htrailing : (slashed p).endsWith "/" = false := by
    have hends := Text.endsWith_trimEndMatches '/' p
    rw [← Bool.not_eq_true] at hends ⊢
    intro htrailing
    rw [hclean, cleanPath, htrailing] at hends
    exact hends ((endsWith_joinSegments hsegments true).mpr (.inr rfl))
  have hself : p.trimEndMatches '/' = p := by
    refine Text.trimEndMatches_eq_self_iff.mpr ?_
    rw [← Bool.not_eq_true] at htrailing ⊢
    exact fun hp => htrailing (endsWith_slashed hp)
  have heq : p = cleanPath (slashed p) := hself.symm.trans hclean
  rw [cleanPath, htrailing] at heq
  exact ⟨_, hsegments, heq⟩

/-! ### Matching -/

lemma joinSegments_append {segments rest : List Text} (hne : segments ≠ []) (hrest : rest ≠ [])
    (b : Bool) : joinSegments (segments ++ rest) b =
      joinSegments segments false ++ joinSegments rest b := by
  rw [joinSegments, joinSegments, joinSegments, if_neg (by simp [hne]), if_neg hne, if_neg hrest,
    cons_intercalate (by simp [hne]), cons_intercalate hne, cons_intercalate hrest]
  simp

lemma trimEndMatches_joinSegments {segments : List Text} (h : ∀ s ∈ segments, IsSegment s)
    (hne : segments ≠ []) :
    (joinSegments segments false).trimEndMatches '/' = joinSegments segments false := by
  refine Text.trimEndMatches_eq_self_iff.mpr ?_
  rw [← Bool.not_eq_true]
  exact fun hends => (endsWith_joinSegments h false).mp hends |>.elim hne (by simp)

lemma matches_joinSegments_iff {segments segments' : List Text} {p : PathRoute}
    (hp : p.pathPrefix = joinSegments segments false) (h : ∀ s ∈ segments, IsSegment s)
    (h' : ∀ s ∈ segments', IsSegment s) (b : Bool) :
    p.matches (joinSegments segments' b) = true ↔ segments <+: segments' := by
  by_cases hne : segments = []
  · subst hne
    simp [PathRoute.matches, hp, joinSegments]
  have hroot : joinSegments segments false ≠ "/" := by
    intro heq
    have hsegments := congrArg segmentsOf heq
    rw [segmentsOf_joinSegments h] at hsegments
    exact hne hsegments
  rw [PathRoute.matches, hp, trimEndMatches_joinSegments h hne, Bool.or_eq_true, Bool.or_eq_true,
    beq_iff_eq, beq_iff_eq, or_iff_right hroot, Text.startsWith, isPrefixOf_iff_prefix]
  constructor
  · rintro (heq | ⟨rest, hrest⟩)
    · have hsegments := congrArg segmentsOf heq
      rw [segmentsOf_joinSegments h, segmentsOf_joinSegments h'] at hsegments
      exact hsegments ▸ prefix_rfl
    · have hsegments := congrArg segmentsOf hrest
      rw [append_assoc] at hsegments
      change segmentsOf (_ ++ '/' :: rest) = _ at hsegments
      rw [segmentsOf_append_cons, segmentsOf_joinSegments h, segmentsOf_joinSegments h']
        at hsegments
      exact ⟨_, hsegments⟩
  · rintro ⟨rest, rfl⟩
    by_cases hrest : rest = []
    · subst hrest
      rw [append_nil]
      cases b with
      | false => exact .inl rfl
      | true =>
        refine .inr ⟨[], ?_⟩
        simp [joinSegments, hne]
    · refine .inr ?_
      rw [joinSegments_append hne hrest, prefix_append_right_inj]
      exact isPrefixOf_iff_prefix.mp
        (startsWith_of_isCanonical ⟨rest, b, fun s hs => h' s (by simp [hs]), rfl⟩)

/-! ### Depths -/

lemma one_lt_len_joinSegments {segments : List Text} (h : ∀ s ∈ segments, IsSegment s)
    (hne : segments ≠ []) (b : Bool) : 1 < (joinSegments segments b).len := by
  obtain ⟨s, rest, rfl⟩ := exists_cons_of_ne_nil hne
  obtain ⟨c, s, rfl⟩ := exists_cons_of_ne_nil (h s mem_cons_self).ne_nil
  rw [joinSegments, if_neg hne, cons_intercalate hne, flatMap_cons]
  have hc := c.utf8Size_pos
  have hslash : Char.utf8Size '/' = 1 := by decide
  simp only [Text.len, cons_append, map_cons, sum_cons]
  omega

lemma length_le_of_len_le {xs ys zs : List Text} (hx : ∀ s ∈ xs, IsSegment s)
    (hxz : xs <+: zs) (hyz : ys <+: zs)
    (hlen : (joinSegments xs false).len ≤ (joinSegments ys false).len) :
    xs.length ≤ ys.length := by
  rcases prefix_or_prefix_of_prefix hxz hyz with hxy | ⟨rest, rfl⟩
  · exact hxy.length_le
  · by_cases hrest : rest = []
    · simp [hrest]
    · -- the longer list has the longer text
      exfalso
      have hlong := one_lt_len_joinSegments (fun s hs => hx s (by simp [hs])) hrest false
      by_cases hys : ys = []
      · subst hys
        have hone : (joinSegments [] false).len = 1 := by decide
        rw [nil_append, hone] at hlen
        omega
      · rw [joinSegments_append hys hrest, Text.len_append] at hlen
        omega

/-- **Path routes by segments.**  A validated prefix matches a canonical path exactly if its
segments are the first ones of the path; the path route that is chosen has the most segments of
all that match, and none is chosen exactly if none matches. -/
theorem best_path_by_segments {raw path : Text} (hpath : canonicalizePath raw = .ok path) :
    (∀ p : PathRoute, validatePathPrefix p.pathPrefix = .ok () →
      (p.matches path = true ↔ segmentsOf p.pathPrefix <+: segmentsOf path)) ∧
    ∀ r : Route, (∀ p ∈ r.paths, validatePathPrefix p.pathPrefix = .ok ()) →
      (r.bestPath path = none ↔ ∀ p ∈ r.paths, ¬ p.matches path = true) ∧
      ∀ p, r.bestPath path = some p → p ∈ r.paths ∧ p.matches path = true ∧
        ∀ p' ∈ r.paths, p'.matches path = true →
          (segmentsOf p'.pathPrefix).length ≤ (segmentsOf p.pathPrefix).length := by
  obtain ⟨segments, b, hsegments, rfl⟩ := isCanonical_of_canonicalizePath hpath
  have hmatches : ∀ p : PathRoute, validatePathPrefix p.pathPrefix = .ok () →
      (p.matches (joinSegments segments b) = true ↔
        segmentsOf p.pathPrefix <+: segmentsOf (joinSegments segments b)) := by
    intro p hp
    obtain ⟨front, hfront, heq⟩ := exists_segments_of_validatePathPrefix hp
    rw [matches_joinSegments_iff heq hfront hsegments, heq, segmentsOf_joinSegments hfront,
      segmentsOf_joinSegments hsegments]
  refine ⟨hmatches, fun r hr => ⟨?_, fun p hp => ?_⟩⟩
  · rw [Route.bestPath, maxByKey_eq_none, filter_eq_nil_iff]
  · obtain ⟨hmem, hmatch, hmax⟩ := bestPath_eq_some hp
    refine ⟨hmem, hmatch, fun p' hp' hmatch' => ?_⟩
    have hprefix := (hmatches p (hr p hmem)).mp hmatch
    have hprefix' := (hmatches p' (hr p' hp')).mp hmatch'
    have hlen := hmax p' hp' hmatch'
    obtain ⟨front, hfront, heq⟩ := exists_segments_of_validatePathPrefix (hr p hmem)
    obtain ⟨front', hfront', heq'⟩ := exists_segments_of_validatePathPrefix (hr p' hp')
    rw [heq, segmentsOf_joinSegments hfront] at hprefix ⊢
    rw [heq', segmentsOf_joinSegments hfront'] at hprefix' ⊢
    rw [heq, heq'] at hlen
    exact length_le_of_len_le hfront' hprefix' hprefix hlen

def versionedRoute : Route where
  id := "r"
  domain := "a.io"
  source := .api
  paths := [.new "/api" [], .new "/" [], .new "/api/v1" []]

/-- The prefix with the most segments is chosen, and `/api` does not match `/apis`. -/
theorem best_path_by_segments_versioned :
    (∀ p ∈ versionedRoute.paths, validatePathPrefix p.pathPrefix = .ok ()) ∧
      (∀ p, versionedRoute.bestPath "/api/v1/users" = some p →
        ∀ p' ∈ versionedRoute.paths, p'.matches "/api/v1/users" = true →
          (segmentsOf p'.pathPrefix).length ≤ (segmentsOf p.pathPrefix).length) ∧
      ¬ (PathRoute.new "/api" []).matches "/apis" = true := by
  have hpaths : ∀ p ∈ versionedRoute.paths, validatePathPrefix p.pathPrefix = .ok () := by
    decide +kernel
  have husers : canonicalizePath "/api/v1/users" = .ok "/api/v1/users".toList := by decide +kernel
  have hapis : canonicalizePath "/apis" = .ok "/apis".toList := by decide
  refine ⟨hpaths, fun p hp => ?_, ?_⟩
  · exact (((best_path_by_segments husers).2 versionedRoute hpaths).2 p hp).2.2
  · rw [(best_path_by_segments hapis).1 _ (hpaths _ mem_cons_self)]
    decide

end PxxlEdge
