import PxxlEdge.Lib.Fields
import PxxlEdge.Proxy.Handle

/-!
The target of a forwarded request: the text of the upstream's URL, without slashes at its
end, with the path and query of the request behind it, parsed again.
-/

namespace PxxlEdge

open RustStd Http List

def FindsFragment (U : UrlParser) : Prop :=
  ∀ raw u, U.parse raw = .ok u → (u.scheme = "http" ∨ u.scheme = "https") → u.fragment = none →
    '#' ∉ raw

lemma numberSign_not_mem_of_valid {U : UrlParser} (hU : FindsFragment U) {vars : EnvVars}
    {raw : Text} (h : validateUpstreamUrl U vars raw = .ok ()) : '#' ∉ raw := by
  obtain ⟨u, -, hparse, hscheme, hfragment, -⟩ := validateUpstreamUrl_ok h
  exact hU raw u hparse hscheme hfragment

section Parts

variable {G : Grammar}

def RootedUri (original : Uri G) : Prop :=
  original.path.head? = some '/' ∧ original.originForm = original.pathAndQuery

structure ComposedOf (base original target : Uri G) : Prop where
  scheme : target.scheme = base.scheme
  authority : target.authority = base.authority
  path : target.path = base.path.trimEndMatches '/' ++ original.path
  query : target.query = original.query

lemma exists_origin (hG : G.CutsOrigin) {raw : Text} {base : Uri G}
    (hbase : Uri.parse G raw = some base) {authority : Text}
    (hauthority : base.authority = some authority) (hne : authority ≠ []) :
    ∃ origin rest : Text, raw = origin ++ rest ∧ origin.getLast? ≠ some '/' ∧
      (rest = [] ∨ StartsPath rest) ∧
      base.path = Uri.pathPart (if rest.head? = some '/' then rest else '/' :: rest) ∧
      base.query = Uri.queryPart (if rest.head? = some '/' then rest else '/' :: rest) ∧
      ∀ path, StartsPath path → Uri.parse G (origin ++ path) =
        Uri.parsePathAndQuery G base.scheme base.authority
          (if path.head? = some '/' then path else '/' :: path) := by
  rw [Uri.parse] at hbase
  split at hbase
  · -- a path form has no authority
    rw [(Uri.parts_of_parsePathAndQuery hbase).2.1] at hauthority
    cases hauthority
  next hhead =>
    obtain ⟨⟨scheme, authority', rest⟩, hsplit, hparse⟩ := Option.bind_eq_some_iff.mp hbase
    obtain ⟨hscheme, hauthority', hpath, hquery⟩ := Uri.parts_of_parsePathAndQuery hparse
    obtain rfl : authority' = authority :=
      Option.some.inj (hauthority'.symm.trans hauthority)
    obtain ⟨hrest, origin, rfl, hnil, hlast, hagain⟩ := hG _ _ _ _ hsplit hne
    refine ⟨origin, rest, rfl, hlast, hrest, hpath, hquery, fun path hstarts => ?_⟩
    have hhead' : (origin ++ path).head? ≠ some '/' := by
      rw [head?_append_of_ne_nil _ hnil] at hhead ⊢
      exact hhead
    rw [Uri.parse, if_neg hhead', hagain path hstarts, hscheme, hauthority']
    rfl

lemma head?_append_of_isPrefix {c : Char} {s t u : Text} (hs : s <+: u) (hu : u.head? = some c)
    (ht : t.head? = some c) : (s ++ t).head? = some c := by
  obtain ⟨rest, rfl⟩ := hs
  cases s with
  | nil => exact ht
  | cons x s => exact hu

lemma buildUpstreamUri_of_no_query (hG : G.CutsOrigin) {upstream : Upstream} {base : Uri G}
    (hbase : Uri.parse G upstream.url = some base) {authority : Text}
    (hauthority : base.authority = some authority) (hne : authority ≠ [])
    (hfragment : '#' ∉ upstream.url) (hquery : base.query = none) {original : Uri G}
    (hrooted : RootedUri original) :
    ∃ target, buildUpstreamUri upstream original = .ok target ∧
      ComposedOf base original target := by
  obtain ⟨origin, rest, hurl, hlast, hrest, hpath, hbaseQuery, hparse⟩ :=
    exists_origin hG hbase hauthority hne
  rw [hurl, mem_append, not_or] at hfragment
  -- what follows the origin is nothing or a path
  obtain ⟨htrim, hhead⟩ : rest.trimEndMatches '/' = base.path.trimEndMatches '/' ∧
      base.path.head? = some '/' := by
    rcases hrest with rfl | ⟨c, hc, hstarts⟩
    · rw [hpath]
      exact ⟨rfl, rfl⟩
    have hslash : rest.head? = some '/' := by
      obtain ⟨tail, rfl⟩ := head?_eq_some_iff.mp hc
      rcases hstarts with rfl | rfl | rfl
      · rfl
      · rw [hquery] at hbaseQuery
        simp [Uri.queryPart, Uri.inPath] at hbaseQuery
      · exact absurd mem_cons_self hfragment.2
    rw [if_pos hslash] at hpath hbaseQuery
    have hdelim := Uri.forall_inPath_of_queryPart_eq_none (hbaseQuery.symm.trans hquery) hfragment.2
    rw [hpath, (Uri.pathPart_append hdelim []).1]
    exact ⟨rfl, hslash⟩
  set front := base.path.trimEndMatches '/' with hfront
  have hstart : front <+: base.path := rdropWhile_prefix _ _
  have hlegal : ∀ x ∈ front ++ original.path, x ≠ '?' ∧ x ≠ '#' ∧ G.pathChar x = true := by
    intro x hx
    rcases mem_append.mp hx with hx | hx
    · exact base.path_legal x (hstart.subset hx)
    · exact original.path_legal x hx
  obtain ⟨target, htarget, hscheme, hauthority', hpath', hquery'⟩ :=
    Uri.parsePathAndQuery_append (G := G) base.scheme base.authority hlegal original.query_legal
  have hslash : (front ++ original.path ++ Uri.queryText original.query).head? = some '/' := by
    rw [append_assoc]
    refine head?_append_of_isPrefix hstart hhead ?_
    rw [head?_append, hrooted.1]
    rfl
  refine ⟨target, ?_, hscheme, hauthority', hpath', hquery'⟩
  rw [buildUpstreamUri, hurl, Text.trimEndMatches_append hlast, htrim, hrooted.2,
    Uri.pathAndQuery_eq, append_assoc, ← append_assoc front,
    hparse _ ⟨'/', hslash, .inl rfl⟩, if_pos hslash, htarget]

lemma queryPart_ne_none_iff {s : Text} :
    Uri.queryPart s ≠ none ↔ ∃ a r, s = a ++ '?' :: r ∧ ∀ x ∈ a, Uri.inPath x = true := by
  constructor
  · intro h
    rw [Uri.queryPart] at h
    split at h
    next r hdrop =>
      refine ⟨s.takeWhile Uri.inPath, r, ?_, fun x hx => mem_takeWhile_imp hx⟩
      rw [← hdrop, takeWhile_append_dropWhile]
    next => exact absurd rfl h
  · rintro ⟨a, r, rfl, ha⟩
    rw [Uri.queryPart, dropWhile_append_of_pos ha, dropWhile_cons_of_neg (by decide)]
    exact Option.some_ne_none _

lemma query_of_buildUpstreamUri (hG : G.CutsOrigin) {upstream : Upstream} {base : Uri G}
    (hbase : Uri.parse G upstream.url = some base) {authority : Text}
    (hauthority : base.authority = some authority) (hne : authority ≠ [])
    {q : Text} (hquery : base.query = some q) {original target : Uri G}
    (htarget : buildUpstreamUri upstream original = .ok target) : target.query ≠ none := by
  obtain ⟨origin, rest, hurl, hlast, hrest, -, hbaseQuery, hparse⟩ :=
    exists_origin hG hbase hauthority hne
  obtain ⟨a, r, rfl, ha⟩ : ∃ a r, rest = a ++ '?' :: r ∧ ∀ x ∈ a, Uri.inPath x = true := by
    have hsome : Uri.queryPart (if rest.head? = some '/' then rest else '/' :: rest) ≠ none := by
      rw [← hbaseQuery, hquery]
      exact Option.some_ne_none q
    obtain ⟨a, r, heq, ha⟩ := queryPart_ne_none_iff.mp hsome
    split at heq
    · exact ⟨a, r, heq, ha⟩
    · -- the slash in front is not the question mark
      cases a with
      | nil => cases heq
      | cons x a =>
        exact ⟨a, r, (List.cons.inj heq).2, fun y hy => ha y (mem_cons_of_mem x hy)⟩
  -- the question mark stays when slashes are trimmed, and all of the request is behind it
  obtain ⟨r', htrim⟩ := Text.exists_rdropWhile_append_cons (p := (· == '/')) (c := '?')
    (by decide) a r
  have hstarts : StartsPath (a ++ '?' :: (r' ++ original.originForm)) := by
    have hhead : (a ++ '?' :: (r' ++ original.originForm)).head? = (a ++ '?' :: r).head? := by
      rw [head?_append, head?_append]
      rfl
    rw [StartsPath, hhead]
    exact hrest.resolve_left (by simp)
  rw [buildUpstreamUri, hurl, Text.trimEndMatches_append hlast, Text.trimEndMatches, htrim,
    append_assoc, append_assoc, cons_append, hparse _ hstarts] at htarget
  split at htarget
  next uri huri =>
    cases htarget
    rw [(Uri.parts_of_parsePathAndQuery huri).2.2.2, queryPart_ne_none_iff]
    split
    · exact ⟨a, _, rfl, ha⟩
    · refine ⟨'/' :: a, _, rfl, fun x hx => ?_⟩
      rcases mem_cons.mp hx with rfl | hx
      · decide
      · exact ha x hx
  next => cases htarget

end Parts

/-- **The target of a forwarded request.**  Let an upstream's URL be accepted, and an absolute
URI for the HTTP library.  Every request from the root gets a target with the origin of the URL,
the path of the URL without slashes at its end and then the path of the request, and the query of
the request, exactly if the URL has no query. -/
theorem upstream_uri_composed_iff {G : Grammar} (hG : G.CutsOrigin) {U : UrlParser}
    (hU : FindsFragment U) (vars : EnvVars) (upstream : Upstream)
    (hvalid : validateUpstreamUrl U vars upstream.url = .ok ()) {base : Uri G}
    (hbase : Uri.parse G upstream.url = some base) {authority : Text}
    (hauthority : base.authority = some authority) (hne : authority ≠ []) :
    (∀ original : Uri G, RootedUri original →
        ∃ target, buildUpstreamUri upstream original = .ok target ∧
          ComposedOf base original target) ↔
      base.query = none := by
  constructor
  · intro h
    by_contra hquery
    obtain ⟨q, hq⟩ := Option.ne_none_iff_exists'.mp hquery
    -- the request for the root, which has no query
    have hslash : G.pathChar '/' = true := by
      obtain ⟨origin, rest, -, -, -, hpath, -⟩ := exists_origin hG hbase hauthority hne
      refine (base.path_legal '/' ?_).2.2
      rw [hpath]
      split
      · next hhead =>
        obtain ⟨tail, rfl⟩ := head?_eq_some_iff.mp hhead
        simp [Uri.pathPart, Uri.inPath]
      · simp [Uri.pathPart, Uri.inPath]
    let root : Uri G :=
      { path := "/", path_legal := by simpa using hslash, query_legal := by simp }
    obtain ⟨target, htarget, hcomposed⟩ := h root ⟨rfl, rfl⟩
    exact query_of_buildUpstreamUri hG hbase hauthority hne hq htarget hcomposed.query
  · intro hquery original hrooted
    exact buildUpstreamUri_of_no_query hG hbase hauthority hne
      (numberSign_not_mem_of_valid hU hvalid) hquery hrooted

/-! ### A parser that runs -/

lemma findsFragment_basic : FindsFragment .basic := by
  intro raw u hparse hscheme hfragment
  simp only [UrlParser.basic] at hparse
  split at hparse
  · cases hparse
  next scheme rest hsplit =>
    split at hparse
    · cases hparse
    split at hparse
    · cases hparse
    cases hparse
    obtain ⟨rfl, -⟩ := splitScheme_eq_some hsplit
    have hrest : '#' ∉ rest := Text.splitOnce_eq_none_iff.mp (Option.map_eq_none_iff.mp hfragment)
    have hfront : '#' ∉ scheme := by
      intro hmem
      have hlower : '#' ∈ scheme.toAsciiLowercase := mem_map.mpr ⟨'#', hmem, rfl⟩
      rcases hscheme with h | h
      · rw [show scheme.toAsciiLowercase = "http" from h] at hlower
        exact absurd hlower (by decide)
      · rw [show scheme.toAsciiLowercase = "https" from h] at hlower
        exact absurd hlower (by decide)
    simp [hfront, hrest]

/-- The target for an upstream with a path, and with slashes at its end. -/
theorem upstream_uri_composed_base_path :
    ((Uri.parse .http1 "/x?b=2").bind fun original =>
      (buildUpstreamUri { url := "http://app:80/base//" } original).toOption.map fun target =>
        (target.path, target.query)) = some ("/base/x".toList, some "b=2".toList) := by
  obtain ⟨base, hbase, hauthority, hpath, hquery⟩ :
      ∃ base, Uri.parse .http1 "http://app:80/base//" = some base ∧
        base.authority = some "app:80".toList ∧ base.path = "/base//".toList ∧
        base.query = none := by
    refine ⟨_, rfl, rfl, ?_, ?_⟩
    · decide
    · decide
  obtain ⟨original, horiginal, hform, horigpath, horigquery⟩ :
      ∃ original, Uri.parse .http1 "/x?b=2" = some original ∧ RootedUri original ∧
        original.path = "/x".toList ∧ original.query = some "b=2".toList := by
    refine ⟨_, rfl, ⟨?_, rfl⟩, ?_, ?_⟩
    · decide
    · decide
    · decide
  have hcomposed := (upstream_uri_composed_iff cutsOrigin_http1 findsFragment_basic
    (fun _ => none) { url := "http://app:80/base//" } (by decide) hbase hauthority
    (by decide)).mpr hquery
  obtain ⟨target, htarget, hparts⟩ := hcomposed original hform
  rw [horiginal, Option.bind_some, htarget]
  have htargetPath : target.path = "/base/x".toList := by
    rw [hparts.path, hpath, horigpath]
    decide
  have htargetQuery : target.query = some "b=2".toList := hparts.query.trans horigquery
  rw [← htargetPath, ← htargetQuery]
  rfl

/-- An accepted URL with a query takes the path and the query of a request into its own. -/
theorem path_in_query :
    validateUpstreamUrl .basic (fun _ => none) "http://app:80/?v=1" = .ok () ∧
      ((Uri.parse .http1 "/x?b=2").bind fun original =>
        (buildUpstreamUri { url := "http://app:80/?v=1" } original).toOption.map fun target =>
          (target.path, target.query)) = some ("/".toList, some "v=1/x?b=2".toList) := by
  decide

end PxxlEdge
