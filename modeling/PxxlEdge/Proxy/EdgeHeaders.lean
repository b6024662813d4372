import PxxlEdge.Proxy.SentHeaders

/-!
The headers that only the edge should choose: those that the rules of a route and
tracing add, and that of the client's certificate.
-/

namespace PxxlEdge

open RustStd Http

variable {G : Grammar} {W : World G} {conn : Connection} {req : Request G} {s : EdgeState}
  {adm : Admission} {o : Outgoing G} {n : Text}

/-! ### The headers that the edge adds -/

section Added

def EdgeAdds (G : Grammar) (rules : DomainRules) (n : Text) : Prop :=
  n ∉ strippedRequestHeaders ∧ (n = Header.requestId ∨ (rules.addedValue G n).isSome)

def edgeValue (W : World G) (conn : Connection) (matched : RouteMatch)
    (body : Option (List UInt8)) (destination : Destination) (n : Text) : Option HeaderValue :=
  (valueFor n (sentCert G conn matched destination)).or <| (lengthValue body n).or <|
    if n = Header.requestId then some (Text.asBytes W.requestId)
    else matched.route.rules.addedValue G n

def KeepsEdgeHeaders (W : World G) (conn : Connection) (matched : RouteMatch)
    (frames : List Frame) (o : Outgoing G) : Prop :=
  ∀ n, EdgeAdds G matched.route.rules n → ∃ v,
    edgeValue W conn matched (forwardedBody matched frames) o.destination n = some v ∧
      o.headers.getAll n = [v]

def WrittenLate (G : Grammar) (conn : Connection) (matched : RouteMatch)
    (destination : Destination) (n : Text) : Prop :=
  (∃ v, sentCert G conn matched destination = some (n, v)) ∨
    (n = Header.contentLength ∧ buffers matched = true)

def NominatesEdgeHeader (G : Grammar) (conn : Connection) (matched : RouteMatch)
    (destination : Destination) (headers : HeaderMap) : Prop :=
  ∃ n, EdgeAdds G matched.route.rules n ∧
    n ∈ nominatedHeaders G matched.route.rules headers ∧
    ¬ WrittenLate G conn matched destination n

variable (W req) in
lemma preparedValues_edge
    (hn : n = Header.requestId ∨ (adm.matched.route.rules.addedValue G n).isSome)
    (body : Option (List UInt8)) :
    ∃ v, (if n = Header.requestId then some (Text.asBytes W.requestId)
        else adm.matched.route.rules.addedValue G n) = some v ∧
      preparedValues W req adm body n = [v] := by
  by_cases hreq : n = Header.requestId
  · have htype : n ≠ Header.contentType := hreq ▸ by decide
    have htraced : ∀ values, tracedValues W n values = [Text.asBytes W.requestId] :=
      fun values => if_pos hreq
    refine ⟨Text.asBytes W.requestId, if_pos hreq, ?_⟩
    cases body <;> simp [preparedValues, foundValues_of_ne_nil (.inl htype), htraced]
  · obtain ⟨v, hv⟩ := Option.isSome_iff_exists.mp (hn.resolve_left hreq)
    have hruled : adm.matched.route.rules.ruledValues G
        (clientHeaders req adm.matched.middleware) n = [v] := by
      rw [DomainRules.ruledValues, hv]
      rfl
    have hne : [v] ≠ [] := List.cons_ne_nil v []
    refine ⟨v, by rw [if_neg hreq, hv], ?_⟩
    cases body <;>
      simp [preparedValues, hruled, foundValues_of_ne_nil (.inr hne),
        tracedValues_of_ne_nil hreq (.inr hne)]

lemma keeps_edge_header_iff (hr : Routed s req adm)
    (ho : .forwarded o ∈ (handle W conn req s).log) (hn : EdgeAdds G adm.matched.route.rules n) :
    (∃ v, edgeValue W conn adm.matched (forwardedBody adm.matched req.body) o.destination n =
        some v ∧ o.headers.getAll n = [v]) ↔
      (n ∈ nominatedHeaders G adm.matched.route.rules req.headers →
        WrittenLate G conn adm.matched o.destination n) := by
  obtain ⟨hstrip, hadds⟩ := hn
  obtain ⟨-, -, hbuffered, -⟩ := handle_sends_routed hr ho
  rw [handle_getAll_of_notMem hr ho (fun h => hstrip (forwardingNames_subset h)), edgeValue,
    WrittenLate]
  cases hcert : valueFor n (sentCert G conn adm.matched o.destination) with
  | some v =>
    have hlate := valueFor_eq_some.mp hcert
    exact iff_of_true ⟨v, rfl, rfl⟩ fun _ => .inl ⟨v, hlate⟩
  | none =>
    have hnocert : ¬ ∃ v, sentCert G conn adm.matched o.destination = some (n, v) := by
      rintro ⟨v, hv⟩
      rw [valueFor_eq_some.mpr hv] at hcert
      cases hcert
    rw [Option.none_or, Option.elim_none, passedValues]
    cases hlength : lengthValue (forwardedBody adm.matched req.body) n with
    | some v =>
      have hlate := isSome_lengthValue.mp (Option.isSome_iff_exists.mpr ⟨v, hlength⟩)
      rw [hbuffered] at hlate
      exact iff_of_true ⟨v, rfl, rfl⟩ fun _ => .inr hlate
    | none =>
      have hshort : ¬ (n = Header.contentLength ∧ buffers adm.matched = true) := by
        rw [← hbuffered, ← isSome_lengthValue, hlength]
        exact Bool.false_ne_true
      obtain ⟨v, hv, hprepared⟩ := preparedValues_edge W req hadds
        (forwardedBody adm.matched req.body)
      rw [Option.none_or, hv, Option.elim_none, hprepared, keptValues]
      -- an early header is lost exactly if it is nominated
      by_cases hnom : n ∈ nominatedHeaders G adm.matched.route.rules req.headers
      · rw [if_pos (.inr hnom)]
        refine iff_of_false ?_ fun h => (h hnom).elim hnocert hshort
        rintro ⟨w, -, hw⟩
        cases hw
      · rw [if_neg (not_or.mpr ⟨hstrip, hnom⟩)]
        exact iff_of_true ⟨v, rfl, rfl⟩ fun h => absurd h hnom

lemma keepsEdgeHeaders_iff (hr : Routed s req adm)
    (ho : .forwarded o ∈ (handle W conn req s).log) :
    KeepsEdgeHeaders W conn adm.matched req.body o ↔
      ¬ NominatesEdgeHeader G conn adm.matched o.destination req.headers := by
  constructor
  · rintro hkeeps ⟨n, hn, hnom, hlate⟩
    exact hlate ((keeps_edge_header_iff hr ho hn).mp (hkeeps n hn) hnom)
  · intro h n hn
    refine (keeps_edge_header_iff hr ho hn).mpr fun hnom => ?_
    by_contra hlate
    exact h ⟨n, hn, hnom, hlate⟩

variable (req) in
/-- **The headers that the edge adds survive exactly if no client nominates them.**  Two
requests that differ in their headers and match the same route both carry them, with the
values the edge chose, exactly if neither nominates one that is added before the removal
of hop-by-hop headers. -/
theorem edge_headers_kept_iff {headers₁ headers₂ : HeaderMap} {W₁ W₂ : World G}
    {s₁ s₂ : EdgeState} {host₁ host₂ path : Text} {matched : RouteMatch}
    {destination : Destination} {o₁ o₂ : Outgoing G}
    (hr₁ : Routed s₁ { req with headers := headers₁ } ⟨host₁, path, matched⟩)
    (hr₂ : Routed s₂ { req with headers := headers₂ } ⟨host₂, path, matched⟩)
    (ho₁ : .forwarded o₁ ∈ (handle W₁ conn { req with headers := headers₁ } s₁).log)
    (ho₂ : .forwarded o₂ ∈ (handle W₂ conn { req with headers := headers₂ } s₂).log)
    (hd₁ : o₁.destination = destination) (hd₂ : o₂.destination = destination) :
    KeepsEdgeHeaders W₁ conn matched req.body o₁ ∧ KeepsEdgeHeaders W₂ conn matched req.body o₂ ↔
      ¬ NominatesEdgeHeader G conn matched destination headers₁ ∧
        ¬ NominatesEdgeHeader G conn matched destination headers₂ := by
  have h₁ := keepsEdgeHeaders_iff hr₁ ho₁
  have h₂ := keepsEdgeHeaders_iff hr₂ ho₂
  rw [hd₁] at h₁
  rw [hd₂] at h₂
  exact and_congr h₁ h₂

def addingRules : DomainRules where
  addRequestHeaders := Map.ofList [("x-tenant", "t1")]

def connectionRequest (value : Text) : Request .http1 :=
  rootRequest [(Header.connection, value)]

/-- A client that nominates them has the request id and a header of the route removed. -/
theorem edge_header_removed :
    ((sentMessages (handle sampleWorld sampleConnection (connectionRequest "close")
        (sampleState addingRules [])).log).map fun o =>
      (o.headers.getAll Header.requestId, o.headers.getAll "x-tenant")) =
        [([.fromStatic sampleWorld.requestId], [.fromStatic "t1"])] ∧
      ((sentMessages (handle sampleWorld sampleConnection
          (connectionRequest "x-request-id, X-Tenant") (sampleState addingRules [])).log).map
        fun o => (o.headers.getAll Header.requestId, o.headers.getAll "x-tenant")) =
        [([], [])] := by
  decide +kernel

lemma not_nominates_of_singleton {matched : RouteMatch} {headers : HeaderMap} (token : Text)
    (hnom : nominatedHeaders G matched.route.rules headers = [token])
    (hid : token ≠ Header.requestId) (hadd : matched.route.rules.addedValue G token = none) :
    ¬ NominatesEdgeHeader G conn matched .upstream headers := by
  rintro ⟨n, ⟨-, hn⟩, hmem, -⟩
  obtain rfl : n = token := List.mem_singleton.mp (hnom ▸ hmem)
  rw [hadd] at hn
  exact hn.elim hid Bool.false_ne_true

/-- Two clients that nominate nothing of the edge's both have its headers sent. -/
theorem edge_headers_kept_close_and_keep_alive :
    ∃ o₁ o₂,
      .forwarded o₁ ∈ (handle sampleWorld sampleConnection (connectionRequest "close")
        (sampleState addingRules [])).log ∧
      .forwarded o₂ ∈ (handle sampleWorld sampleConnection (connectionRequest "keep-alive")
        (sampleState addingRules [])).log ∧
      KeepsEdgeHeaders sampleWorld sampleConnection (sampleMatch addingRules []) [] o₁ ∧
      KeepsEdgeHeaders sampleWorld sampleConnection (sampleMatch addingRules []) [] o₂ := by
  obtain ⟨o₁, ho₁, hd₁⟩ := exists_sent (d := .upstream) (l := (handle sampleWorld
    sampleConnection (connectionRequest "close") (sampleState addingRules [])).log)
    (by decide +kernel)
  obtain ⟨o₂, ho₂, hd₂⟩ := exists_sent (d := .upstream) (l := (handle sampleWorld
    sampleConnection (connectionRequest "keep-alive") (sampleState addingRules [])).log)
    (by decide +kernel)
  have hkept := (edge_headers_kept_iff (connectionRequest "close")
    (routed_sample addingRules [] [(Header.connection, "close".toList)])
    (routed_sample addingRules [] [(Header.connection, "keep-alive".toList)]) ho₁ ho₂ hd₁ hd₂).mpr
    ⟨not_nominates_of_singleton "close" (by decide) (by decide)
        (by decide),
      not_nominates_of_singleton "keep-alive" (by decide) (by decide)
        (by decide)⟩
  exact ⟨o₁, o₂, ho₁, ho₂, hkept⟩

end Added

/-! ### The header of the client's certificate -/

section Certificate

def IsClientCert (conn : Connection) (v : HeaderValue) : Prop :=
  ∃ pem, conn.clientCertPem = some pem ∧ v = Text.asBytes pem

def NoOtherSource (req : Request G) (adm : Admission) (n : Text) : Prop :=
  let middleware := adm.matched.middleware
  let rules := adm.matched.route.rules
  ¬ (n = Header.contentLength ∧ buffers adm.matched = true) ∧
    (n ∈ nominatedHeaders G rules req.headers ∨
      n ≠ Header.requestId ∧ n ≠ Header.traceparent ∧
        (n = Header.contentType → middleware.contentTypeAutodetect.enabled = true →
          detectContentType (forwardUri req adm.path).path
            (forwardedBody adm.matched req.body) = none) ∧
        rules.addedValue G n = none ∧
        (rules.Strips G n ∨ n = Header.authorization ∧ middleware.consumesAuthorization = true ∨
          req.headers.getAll n = []))

lemma ruledValues_eq_nil_iff {rules : DomainRules} {middleware : EffectiveMiddleware} :
    rules.ruledValues G (clientHeaders req middleware) n = [] ↔
      rules.addedValue G n = none ∧ (rules.Strips G n ∨
        n = Header.authorization ∧ middleware.consumesAuthorization = true ∨
        req.headers.getAll n = []) := by
  rw [DomainRules.ruledValues, getAll_clientHeaders]
  cases rules.addedValue G n with
  | some v => simp
  | none =>
    rw [Option.elim_none, eq_self, true_and]
    by_cases hstrips : rules.Strips G n
    · simp [hstrips]
    · rw [if_neg hstrips, or_iff_right hstrips]
      split
      · next hconsumed => simp [hconsumed]
      · next hkept => rw [or_iff_right hkept]

lemma tracedValues_eq_nil_iff {values : List HeaderValue} :
    tracedValues W n values = [] ↔
      n ≠ Header.requestId ∧ n ≠ Header.traceparent ∧ values = [] := by
  rw [tracedValues]
  by_cases hid : n = Header.requestId
  · rw [if_pos hid]
    exact iff_of_false (List.cons_ne_nil _ _) fun h => h.1 hid
  · rw [if_neg hid]
    by_cases htrace : n = Header.traceparent ∧ values = []
    · rw [if_pos htrace]
      exact iff_of_false (List.cons_ne_nil _ _) fun h => h.2.1 htrace.1
    · rw [if_neg htrace]
      exact ⟨fun hnil => ⟨hid, fun hn => htrace ⟨hn, hnil⟩, hnil⟩, fun h => h.2.2⟩

lemma foundValues_eq_nil_iff {matched : RouteMatch} {path : Text} {body : Option (List UInt8)}
    {values : List HeaderValue} :
    foundValues matched path body n values = [] ↔
      values = [] ∧ (n = Header.contentType →
        matched.middleware.contentTypeAutodetect.enabled = true →
          detectContentType path body = none) := by
  rw [foundValues, detectedValues]
  by_cases henabled : matched.middleware.contentTypeAutodetect.enabled = true
  · by_cases hnil : n = Header.contentType ∧ values = []
    · simp [henabled, hnil]
    · rw [if_pos henabled, if_neg hnil]
      exact ⟨fun h => ⟨h, fun hn => absurd ⟨hn, h⟩ hnil⟩, fun h => h.1⟩
  · simp [henabled]

lemma ite_some_eq_none_mono {α : Type} {c : Prop} [Decidable c] {a : α} {x y : Option α}
    (h : (if c then some a else x) = none) (hxy : x = none → y = none) :
    (if c then some a else y) = none := by
  split at h
  · cases h
  · next hc =>
    rw [if_neg hc]
    exact hxy h

lemma detectContentType_none_of_some {path : Text} {body : List UInt8}
    (h : detectContentType path (some body) = none) : detectContentType path none = none := by
  -- the six suffixes are tested before the body
  refine ite_some_eq_none_mono h fun h => ite_some_eq_none_mono h fun h => ?_
  refine ite_some_eq_none_mono h fun h => ite_some_eq_none_mono h fun h => ?_
  refine ite_some_eq_none_mono h fun h => ite_some_eq_none_mono h fun _ => ?_
  rfl

lemma preparedValues_eq_nil_iff (body : Option (List UInt8)) :
    preparedValues W req adm body n = [] ↔
      n ≠ Header.requestId ∧ n ≠ Header.traceparent ∧
        (n = Header.contentType → adm.matched.middleware.contentTypeAutodetect.enabled = true →
          detectContentType (forwardUri req adm.path).path body = none) ∧
        adm.matched.route.rules.ruledValues G (clientHeaders req adm.matched.middleware) n =
          [] := by
  rw [preparedValues]
  cases body with
  | none =>
    rw [Option.elim_none, tracedValues_eq_nil_iff, foundValues_eq_nil_iff]
    exact and_congr_right fun _ => and_congr_right fun _ => and_comm
  | some body =>
    rw [Option.elim_some, foundValues_eq_nil_iff, tracedValues_eq_nil_iff,
      foundValues_eq_nil_iff]
    constructor
    · rintro ⟨⟨hid, htrace, hruled, -⟩, hfound⟩
      exact ⟨hid, htrace, hfound, hruled⟩
    · rintro ⟨hid, htrace, hfound, hruled⟩
      have hpath := fun hn henabled => detectContentType_none_of_some (hfound hn henabled)
      exact ⟨⟨hid, htrace, hruled, hpath⟩, hfound⟩

variable (W) in
lemma passedValues_eq_nil_iff (hn : n ∉ strippedRequestHeaders)
    (hbuffered : (forwardedBody adm.matched req.body).isSome = buffers adm.matched) :
    passedValues W req adm n = [] ↔ NoOtherSource req adm n := by
  rw [passedValues, NoOtherSource, ← hbuffered, ← isSome_lengthValue]
  cases lengthValue (forwardedBody adm.matched req.body) n with
  | some v => simp
  | none =>
    rw [Option.elim_none, keptValues]
    split
    · next hgone => simp [hgone.resolve_left hn]
    · next hkept =>
      rw [preparedValues_eq_nil_iff, ruledValues_eq_nil_iff, or_iff_right (not_or.mp hkept).2]
      simp

/-- **The header of the client's certificate holds nothing else exactly if the connection
has one, or if no other source gives the header a value.** -/
theorem client_cert_only_iff (hr : Routed s req adm)
    (henabled : adm.matched.middleware.clientCertForwarding.enabled = true)
    (hname : G.parseName adm.matched.middleware.clientCertForwarding.headerName = some n)
    (hn : n ∉ strippedRequestHeaders) (ho : .forwarded o ∈ (handle W conn req s).log)
    (hd : o.destination = .upstream) :
    (∀ v ∈ o.headers.getAll n, IsClientCert conn v) ↔
      conn.clientCertPem.isSome = true ∨ NoOtherSource req adm n := by
  obtain ⟨-, -, hbuffered, -⟩ := handle_sends_routed hr ho
  rw [handle_getAll_of_notMem hr ho (fun h => hn (forwardingNames_subset h)), hd]
  cases hpem : conn.clientCertPem with
  | some pem =>
    have hparse := G.parseValue_visible (conn.clientCertPem_visible pem hpem)
    have hcert : sentCert G conn adm.matched .upstream = some (n, Text.asBytes pem) := by
      simp [sentCert, clientCertHeader, henabled, hname, hpem, hparse]
    rw [valueFor_eq_some.mpr hcert]
    refine iff_of_true (fun v hv => ⟨pem, hpem, ?_⟩) (.inl rfl)
    exact List.mem_singleton.mp hv
  | none =>
    have hcert : sentCert G conn adm.matched .upstream = none := by
      simp [sentCert, clientCertHeader, hpem]
    have hnocert : ∀ v, ¬ IsClientCert conn v := by
      rintro v ⟨pem, hsome, -⟩
      rw [hpem] at hsome
      cases hsome
    rw [hcert, ← passedValues_eq_nil_iff W hn hbuffered, List.eq_nil_iff_forall_not_mem]
    simp [hnocert, valueFor, HeaderMap.lastValue]

def certRules : DomainRules where
  clientCertForwarding := { enabled := true, headerName := "X-Client-Cert" }

def forgedCertRequest : Request .http1 :=
  rootRequest [("x-client-cert", "forged")]

/-- A client without a certificate chooses the header's value. -/
theorem client_cert_forged :
    sampleConnection.clientCertPem = none ∧
      ((sentMessages (handle sampleWorld sampleConnection forgedCertRequest
        (sampleState certRules [])).log).map fun o => o.headers.getAll "x-client-cert") =
          [[.fromStatic "forged"]] := by
  decide +kernel

def certConnection : Connection where
  peer := sampleConnection.peer
  scheme := .https
  clientCertPem := some "pem"
  clientCertPem_visible := by
    rintro _ ⟨⟩
    decide

/-- A client with a certificate does not. -/
theorem client_cert_only_overwritten :
    ∃ o, .forwarded o ∈ (handle sampleWorld certConnection forgedCertRequest
        (sampleState certRules [])).log ∧
      ∀ v ∈ o.headers.getAll "x-client-cert", IsClientCert certConnection v := by
  obtain ⟨o, ho, hd⟩ := exists_sent (d := .upstream) (l := (handle sampleWorld certConnection
    forgedCertRequest (sampleState certRules [])).log) (by decide +kernel)
  refine ⟨o, ho, (client_cert_only_iff (routed_sample certRules [] _) ?_ ?_ ?_ ho hd).mpr
    (.inl rfl)⟩
  · decide
  · decide
  · decide

end Certificate

end PxxlEdge
