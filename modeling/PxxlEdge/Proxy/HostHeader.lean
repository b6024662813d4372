import PxxlEdge.Proxy.SentHeaders

/-!
The `Host` header an upstream receives.  The client's is removed with the
hop-by-hop headers on both paths, and forwarding writes the upstream's authority
in its place, unless the route is to preserve the client's; then nothing is
written, and the HTTP client fills in the authority of the URI.
-/

namespace PxxlEdge

open RustStd Http

variable {G : Grammar} {W : World G} {conn : Connection} {req : Request G} {s : EdgeState}
  {adm : Admission} {o : Outgoing G}

def effectiveHost (headers : HeaderMap) (uri : Uri G) : List HeaderValue :=
  match headers.getAll Header.host with
  | [] => (uri.authority.map Text.asBytes).toList
  | values => values

def requiredHost (W : World G) (req : Request G) (adm : Admission) (upstream : Upstream) :
    List HeaderValue :=
  if adm.matched.route.rules.preserveHostHeader then effectiveHost req.headers req.uri
  else (hostValue W upstream).toOption.toList

def urlAuthority (upstream : Upstream) (uri : Uri G) : List HeaderValue :=
  (((buildUpstreamUri upstream uri).toOption.bind (·.authority)).map Text.asBytes).toList

lemma passedValues_host : passedValues W req adm Header.host = [] := by
  have hlength : lengthValue (forwardedBody adm.matched req.body) Header.host = none := by
    rw [lengthValue, if_neg (by decide)]
  have hstripped : Header.host ∈ strippedRequestHeaders := by decide
  rw [passedValues, hlength, Option.elim_none, keptValues, if_pos (.inl hstripped)]

lemma hostValue_of_forwardingHeaders {ctx : ForwardContext} {es : List (Text × HeaderValue)}
    (h : forwardingHeaders W ctx = .ok es)
    (hkeep : ctx.matched.route.rules.preserveHostHeader = false) :
    ∃ v, hostValue W ctx.upstream = .ok v := by
  cases hvalue : hostValue W ctx.upstream with
  | ok v => exact ⟨v, rfl⟩
  | error e =>
    simp [forwardingHeaders, ForwardContext.hostHeader, hkeep, hvalue, Except.map, bind,
      Except.bind] at h

lemma matched_sendContext (destination : Destination) (upstream : Upstream) :
    (sendContext W conn req adm destination upstream).matched = adm.matched := by
  cases destination <;> rfl

lemma upstream_sendContext (destination : Destination) (upstream : Upstream) :
    (sendContext W conn req adm destination upstream).upstream = upstream := by
  cases destination <;> rfl

lemma receivedHost_eq (hr : Routed s req adm) (ho : .forwarded o ∈ (handle W conn req s).log) :
    effectiveHost o.headers o.target =
      match valueFor Header.host (sentCert G conn adm.matched o.destination) with
      | some v => [v]
      | none =>
        if adm.matched.route.rules.preserveHostHeader then
          urlAuthority o.upstream (forwardUri req adm.path)
        else (hostValue W o.upstream).toOption.toList := by
  obtain ⟨upstream, hsent⟩ := handle_sends_routed hr ho
  have hrelayed := hsent.relayed
  have hupstream : o.upstream = upstream := hrelayed.upstream.trans (upstream_sendContext _ _)
  subst hupstream
  have hgetAll := hrelayed.getAll Header.host
  rw [getAll_passedHeaders (by decide) (by decide), passedValues_host, ForwardContext.written,
    certHeader_sendContext, if_neg (by decide), if_neg (by decide), if_neg (by decide),
    matched_sendContext, upstream_sendContext] at hgetAll
  rw [effectiveHost, hgetAll]
  cases hcert : valueFor Header.host (sentCert G conn adm.matched o.destination) with
  | some v => rfl
  | none =>
    cases hkeep : adm.matched.route.rules.preserveHostHeader with
    | true =>
      have htarget : buildUpstreamUri o.upstream (forwardUri req adm.path) = .ok o.target := by
        rw [buildUpstreamUri, hrelayed.target]
      rw [urlAuthority, htarget]
      rfl
    | false =>
      obtain ⟨es, hes⟩ := hrelayed.written
      obtain ⟨v, hv⟩ := hostValue_of_forwardingHeaders hes
        (by rw [matched_sendContext, hkeep])
      rw [upstream_sendContext] at hv
      rw [hv]
      rfl

/-- For every message to an upstream or a mirror, streamed or buffered: the `Host` received is
the client's where the route preserves it and the upstream's authority elsewhere, exactly if
the certificate header is not `Host` (or has that very value), and the route does not preserve
it or the client's is the authority of the upstream's URL. -/
theorem host_header_iff (hr : Routed s req adm) (ho : .forwarded o ∈ (handle W conn req s).log) :
    effectiveHost o.headers o.target = requiredHost W req adm o.upstream ↔
      match valueFor Header.host (sentCert G conn adm.matched o.destination) with
      | some v => requiredHost W req adm o.upstream = [v]
      | none =>
        adm.matched.route.rules.preserveHostHeader = true →
          effectiveHost req.headers req.uri =
            urlAuthority o.upstream (forwardUri req adm.path) := by
  rw [receivedHost_eq hr ho]
  cases valueFor Header.host (sentCert G conn adm.matched o.destination) with
  | some v => exact eq_comm
  | none =>
    dsimp only
    rw [requiredHost]
    by_cases hkeep : adm.matched.route.rules.preserveHostHeader = true
    · rw [if_pos hkeep, if_pos hkeep]
      exact ⟨fun h _ => h.symm, fun h => (h hkeep).symm⟩
    · rw [if_neg hkeep, if_neg hkeep]
      exact iff_of_true rfl fun h => absurd h hkeep

/-- Without the setting, the sample upstream receives its authority. -/
theorem host_header_iff_not_preserving :
    ∃ o, .forwarded o ∈ (handle sampleWorld sampleConnection (rootRequest [])
        (sampleState {} [])).log ∧
      effectiveHost o.headers o.target =
        requiredHost sampleWorld (rootRequest []) ⟨"a.io", "/", sampleMatch {} []⟩ o.upstream := by
  obtain ⟨o, ho, hd⟩ := exists_sent (d := .upstream) (l := (handle sampleWorld sampleConnection
    (rootRequest []) (sampleState {} [])).log) (by decide +kernel)
  refine ⟨o, ho, (host_header_iff (routed_sample {} [] []) ho).mpr ?_⟩
  have hkeep : (sampleMatch {} []).route.rules.preserveHostHeader = false := rfl
  rw [hd]
  intro h
  rw [hkeep] at h
  exact absurd h Bool.false_ne_true

/-- On a route that preserves the header, the upstream is sent its own authority and not the
host the client asked for. -/
theorem host_not_preserved :
    requiredHost sampleWorld (rootRequest [])
        ⟨"a.io", "/", sampleMatch { preserveHostHeader := true } []⟩ { url := "http://app:80" } =
      [.fromStatic "a.io"] ∧
    (sentMessages (handle sampleWorld sampleConnection (rootRequest [])
      (sampleState { preserveHostHeader := true } [])).log).map
        (fun o => effectiveHost o.headers o.target) = [[.fromStatic "app:80"]] := by
  refine ⟨?_, ?_⟩
  · rfl
  · decide +kernel

end PxxlEdge
