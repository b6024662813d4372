import PxxlEdge.Proxy.Handle

/-!
The path that an upstream sees, against the canonical path that routing, the
firewall and the authentications decided on.

The canonical path is decoded, and is forwarded by parsing it again, so it comes
back whole only if it holds no delimiter and no character that is illegal in a
URI.  An empty query is not written at all.
-/

namespace PxxlEdge

open RustStd Http

variable {G : Grammar}

def PathLegal (G : Grammar) (c : Text) : Prop :=
  ∀ x ∈ c, x ≠ '?' ∧ x ≠ '#' ∧ G.pathChar x = true

def Carries (u : Uri G) (path : Text) (query : Option Text) : Prop :=
  u.path = path ∧ u.query = query

def writtenQuery (query : Option Text) : Option Text := query.filter fun q => q ≠ []

lemma writtenQuery_eq_self_iff {query : Option Text} :
    writtenQuery query = query ↔ query ≠ some [] := by
  cases query with
  | none => simp [writtenQuery]
  | some q => by_cases hq : q = [] <;> simp [writtenQuery, Option.filter, hq]

def Upstream.IsOrigin (G : Grammar) (upstream : Upstream) : Prop :=
  ∃ scheme authority, ∀ rest : Text, rest.head? = some '/' →
    (upstream.url.trimEndMatches '/' ++ rest).head? ≠ some '/' ∧
      G.splitOrigin (upstream.url.trimEndMatches '/' ++ rest) = some (scheme, authority, rest)

lemma withQuery_eq (c : Text) (query : Option Text) :
    withQuery c query = c ++ Uri.queryText (writtenQuery query) := by
  cases query with
  | none => exact (List.append_nil c).symm
  | some q =>
    by_cases hq : q = []
    · simp [withQuery, writtenQuery, Option.filter, Uri.queryText, hq]
    · simp [withQuery, writtenQuery, Option.filter, Uri.queryText, hq]

lemma parsePathAndQuery_withQuery (scheme authority : Option Text) {c : Text}
    (hc : PathLegal G c) {query : Option Text}
    (hq : ∀ q ∈ query, ∀ x ∈ q, x ≠ '#' ∧ G.queryChar x = true) :
    ∃ u : Uri G, Uri.parsePathAndQuery G scheme authority (withQuery c query) = some u ∧
      u.scheme = scheme ∧ u.authority = authority ∧ Carries u c (writtenQuery query) ∧
      u.pathAndQuery = withQuery c query := by
  have hwritten : ∀ q ∈ writtenQuery query, ∀ x ∈ q, x ≠ '#' ∧ G.queryChar x = true :=
    fun q hmem => hq q (Option.filter_eq_some_iff.mp hmem).1
  obtain ⟨u, hu, hs, ha, hpath, hquery⟩ :=
    Uri.parsePathAndQuery_append (G := G) scheme authority hc hwritten
  refine ⟨u, by rw [withQuery_eq, hu], hs, ha, ⟨hpath, hquery⟩, ?_⟩
  rw [Uri.pathAndQuery_eq, hpath, hquery, withQuery_eq]

lemma head?_withQuery {c : Text} (hc : c.head? = some '/') (query : Option Text) :
    (withQuery c query).head? = some '/' := by
  cases query with
  | none => exact hc
  | some q =>
    rw [withQuery]
    split
    · exact hc
    · rw [List.head?_append, hc]
      rfl

section Forwarded

variable {W : World G} {conn : Connection} {req : Request G} {s : EdgeState}

lemma forwardUri_of_legal {c : Text} (hslash : c.head? = some '/') (hc : PathLegal G c) :
    Carries (forwardUri req c) c (writtenQuery req.uri.query) ∧
      (forwardUri req c).originForm = withQuery c req.uri.query := by
  obtain ⟨u, hu, -, ha, hcarries, htext⟩ :=
    parsePathAndQuery_withQuery (G := G) none none hc req.uri.query_legal
  have hparse : Uri.parse G (withQuery c req.uri.query) = some u := by
    rw [Uri.parse, if_pos (head?_withQuery hslash _), hu]
  rw [forwardUri, canonicalForwardUri, hparse]
  exact ⟨hcarries, by rw [Uri.originForm, if_neg (by simp [ha]), htext]⟩

lemma carries_iff_of_legal {u : Uri G} {c : Text} {query : Option Text}
    (h : PathLegal G c → Carries u c (writtenQuery query)) :
    Carries u c query ↔ PathLegal G c ∧ query ≠ some [] := by
  constructor
  · intro hcarries
    have hlegal : PathLegal G c := hcarries.1 ▸ u.path_legal
    exact ⟨hlegal, writtenQuery_eq_self_iff.mp ((h hlegal).2.symm.trans hcarries.2)⟩
  · rintro ⟨hlegal, hquery⟩
    obtain ⟨hpath, hwritten⟩ := h hlegal
    exact ⟨hpath, hwritten.trans (writtenQuery_eq_self_iff.mpr hquery)⟩

/-- **The forwarded path and query are the canonical path and the client's query exactly
if the path is legal in a URI and the query is not empty.**  This goes for the URI that
`handle` forwards, and for the target of an upstream whose URL is an origin. -/
theorem forwarded_path_canonical_iff {c : Text} (hc : canonicalizePath req.uri.path = .ok c)
    {o : Outgoing G} (ho : .forwarded o ∈ (handle W conn req s).log) :
    (Carries o.requestUri c req.uri.query ↔ PathLegal G c ∧ req.uri.query ≠ some []) ∧
      (o.upstream.IsOrigin G →
        (Carries o.target c req.uri.query ↔ PathLegal G c ∧ req.uri.query ≠ some [])) := by
  obtain ⟨adm, upstream, hsent⟩ := handle_sends ho
  obtain rfl : adm.path = c := Except.ok.inj (hsent.admitted.path.symm.trans hc)
  have huri := hsent.relayed.requestUri
  have htarget := hsent.relayed.target
  have hslash := canonicalizePath_slash hc
  refine ⟨carries_iff_of_legal fun hlegal => ?_,
    fun horigin => carries_iff_of_legal fun hlegal => ?_⟩
  · rw [huri]
    exact (forwardUri_of_legal hslash hlegal).1
  · obtain ⟨scheme, authority, hsplit⟩ := horigin
    obtain ⟨habs, hrest⟩ := hsplit _ (head?_withQuery hslash req.uri.query)
    obtain ⟨t, ht, -, -, hcarries, -⟩ := parsePathAndQuery_withQuery (G := G) (some scheme)
      (some authority) hlegal req.uri.query_legal
    rw [(forwardUri_of_legal hslash hlegal).2, Uri.parse, if_neg habs, hrest] at htarget
    simp only [Option.bind_eq_bind, Option.bind_some, head?_withQuery hslash, if_true, ht,
      Option.some.injEq] at htarget
    rw [← htarget]
    exact hcarries

end Forwarded

/-- A path with an encoded delimiter is cut there; one with an encoded blank is not
decoded. -/
theorem path_changed :
    canonicalizePath "/a%3Fb" = .ok "/a?b".toList ∧
      (sentMessages (handle sampleWorld sampleConnection (sampleRequest "/a%3Fb" (by decide) [])
        (sampleState {} [])).log).map (fun o => (o.requestUri.path, o.requestUri.query)) =
        [("/a".toList, some "b".toList)] ∧
      canonicalizePath "/a%20b" = .ok "/a b".toList ∧
      (sentMessages (handle sampleWorld sampleConnection (sampleRequest "/a%20b" (by decide) [])
        (sampleState {} [])).log).map (fun o => (o.requestUri.path, o.requestUri.query)) =
        [("/a%20b".toList, none)] := by
  decide +kernel

def slashRequest : Request .http1 := sampleRequest "/a%2Fb" (by decide) []

theorem forwarded_path_canonical_slash :
    canonicalizePath slashRequest.uri.path = .ok "/a/b".toList ∧
      ∃ o, .forwarded o ∈
        (handle sampleWorld sampleConnection slashRequest (sampleState {} [])).log ∧
        Carries o.requestUri "/a/b" slashRequest.uri.query := by
  have hc : canonicalizePath slashRequest.uri.path = .ok "/a/b".toList := by decide +kernel
  have hlegal : PathLegal .http1 "/a/b" := (sampleRequest "/a/b" (by decide) []).uri.path_legal
  have hsent : 0 < (sentMessages (handle sampleWorld sampleConnection slashRequest
      (sampleState {} [])).log).length := by decide +kernel
  obtain ⟨o, ho⟩ := List.exists_mem_of_length_pos hsent
  rw [mem_sentMessages] at ho
  have hquery : slashRequest.uri.query ≠ some [] := by decide
  exact ⟨hc, o, ho, (forwarded_path_canonical_iff hc ho).1.mpr ⟨hlegal, hquery⟩⟩

end PxxlEdge
