import PxxlEdge.Proxy.SentHeaders

/-!
What an upstream and the authentication service are told about the address of a
client that is no trusted proxy.
-/

namespace PxxlEdge

open RustStd Http

variable {G : Grammar} {W : World G} {conn : Connection} {req : Request G} {s : EdgeState}
  {adm : Admission} {o : Outgoing G} {n : Text}

/-! ### What is told, and when it is safe -/

def clientAddressHeaders : List Text :=
  ["cf-connecting-ip", "true-client-ip", "x-real-ip", "x-client-ip", "forwarded"]

-- the headers that are believed of a trusted peer and not removed from a request
example : clientAddressHeaders.filter (· ∉ strippedRequestHeaders) =
    ["cf-connecting-ip", "true-client-ip"] := by decide

def forwardedHeaders : List Text :=
  [Header.xForwardedFor, Header.xForwardedHost, Header.xForwardedProto]

def toldConnection (conn : Connection) : Destination → Option IpAddr × RequestScheme
  | .upstream => (conn.peer, conn.scheme)
  | .mirror => (none, .http)

def forwardingValues (G : Grammar) (conn : Connection) (matched : RouteMatch)
    (destination : Destination) (n : Text) : List HeaderValue :=
  let told := toldConnection conn destination
  if n = Header.xForwardedFor then (told.1.bind fun ip => G.parseValue ip.display).toList
  else if n = Header.xForwardedProto then [.fromStatic told.2.asStr]
  else (G.parseValue matched.route.domain).toList

structure HidesClientAddress (G : Grammar) (conn : Connection) (matched : RouteMatch)
    (o : Outgoing G) : Prop where
  forwarded : ∀ n ∈ forwardedHeaders,
    o.headers.getAll n = forwardingValues G conn matched o.destination n
  other : ∀ n ∈ clientAddressHeaders, ∀ v ∈ o.headers.getAll n,
    matched.route.rules.addedValue G n = some v ∨
      sentCert G conn matched o.destination = some (n, v)

structure AddressHeadersSafe (G : Grammar) (conn : Connection) (matched : RouteMatch)
    (destination : Destination) (headers : HeaderMap) : Prop where
  cert : ∀ n ∈ forwardedHeaders, ∀ v, sentCert G conn matched destination = some (n, v) →
    forwardingValues G conn matched destination n = [v]
  kept : ∀ n ∈ clientAddressHeaders, n ∉ strippedRequestHeaders →
    (∃ v, sentCert G conn matched destination = some (n, v)) ∨
      n ∈ nominatedHeaders G matched.route.rules headers ∨
      (matched.route.rules.addedValue G n).isSome ∨ matched.route.rules.Strips G n ∨
      headers.getAll n = []

def AuthHeadersSafe (req : Request G) (config : ForwardAuthConfig) : Prop :=
  ∀ n ∈ clientAddressHeaders ++ forwardedHeaders,
    (∃ header ∈ config.requestHeaders, G.parseName header = some n) →
      ∀ v, req.headers.get n = some v →
        n = Header.xForwardedHost ∧ req.headers.get Header.host = some v

/-! ### The values in a message -/

variable (req adm) in
lemma sendContext_told (hpeer : ∀ ip, conn.peer = some ip → W.trusted.trustedPeer ip = false)
    (destination : Destination) (upstream : Upstream) :
    let ctx := sendContext W conn req adm destination upstream
    (ctx.remoteIp, ctx.scheme) = toldConnection conn destination ∧ ctx.matched = adm.matched := by
  have hip : remoteIp W conn req = conn.peer := by
    rw [remoteIp, resolveEffectiveClientIp]
    cases hip : conn.peer with
    | none => rfl
    | some ip => simp [hpeer ip hip]
  cases destination with
  | upstream => exact ⟨congrArg (·, conn.scheme) hip, rfl⟩
  | mirror => exact ⟨rfl, rfl⟩

lemma passedValues_of_stripped (hn : n ∈ strippedRequestHeaders) :
    passedValues W req adm n = [] := by
  have hlength : lengthValue (forwardedBody adm.matched req.body) n = none := by
    refine if_neg ?_
    rintro rfl
    exact absurd hn (by decide)
  rw [passedValues, hlength, Option.elim_none, keptValues, if_pos (.inl hn)]

lemma handle_getAll_forwarded (hpeer : ∀ ip, conn.peer = some ip → W.trusted.trustedPeer ip = false)
    (hr : Routed s req adm) (ho : .forwarded o ∈ (handle W conn req s).log)
    (hn : n ∈ forwardedHeaders) :
    o.headers.getAll n =
      (valueFor n (sentCert G conn adm.matched o.destination)).elim
        (forwardingValues G conn adm.matched o.destination n) fun v => [v] := by
  have hstripped : n ∈ strippedRequestHeaders := by
    have hsub : forwardedHeaders ⊆ strippedRequestHeaders := by decide
    exact hsub hn
  have hne : ∀ m ∉ forwardedHeaders, n ≠ m := fun m hm h => hm (h ▸ hn)
  obtain ⟨upstream, hgetAll⟩ := handle_getAll hr ho (hne Header.connection (by decide))
    (hne Header.upgrade (by decide))
  rw [hgetAll, passedValues_of_stripped hstripped, ForwardContext.written, certHeader_sendContext]
  cases valueFor n (sentCert G conn adm.matched o.destination) with
  | some v => rfl
  | none =>
    obtain ⟨htold, hmatched⟩ := sendContext_told req adm hpeer o.destination upstream
    rw [Option.none_or, Option.elim_none, forwardingValues, ← htold, hmatched]
    dsimp only
    simp only [forwardedHeaders, List.mem_cons, List.not_mem_nil, or_false] at hn
    rcases hn with rfl | rfl | rfl
    · rw [if_pos rfl, if_pos rfl]
      cases Option.bind _ _ <;> rfl
    · rw [if_neg (by decide), if_neg (by decide), if_pos rfl, if_neg (by decide),
        if_neg (by decide)]
      cases G.parseValue adm.matched.route.domain <;> rfl
    · rfl

lemma handle_getAll_clientAddress (hr : Routed s req adm)
    (ho : .forwarded o ∈ (handle W conn req s).log) (hn : n ∈ clientAddressHeaders) :
    o.headers.getAll n =
      (valueFor n (sentCert G conn adm.matched o.destination)).elim
        (keptValues (nominatedHeaders G adm.matched.route.rules req.headers) n
          (adm.matched.route.rules.ruledValues G req.headers n))
        fun v => [v] := by
  have hne : ∀ m ∉ clientAddressHeaders, n ≠ m := fun m hm h => hm (h ▸ hn)
  have hforwarding : n ∉ forwardingNames := by
    have hdisjoint : ∀ m ∈ forwardingNames, m ∉ clientAddressHeaders := by decide
    exact fun h => hdisjoint n h hn
  have hplain : n ∉ [Header.authorization, Header.contentType, Header.requestId,
      Header.traceparent] := by
    have hdisjoint : ∀ m ∈ [Header.authorization, Header.contentType, Header.requestId,
        Header.traceparent], m ∉ clientAddressHeaders := by decide
    exact fun h => hdisjoint n h hn
  have hlength : lengthValue (forwardedBody adm.matched req.body) n = none :=
    if_neg (hne Header.contentLength (by decide))
  rw [handle_getAll_of_notMem hr ho hforwarding, passedValues, hlength, Option.elim_none,
    preparedValues_plain _ hplain]

/-! ### What reaches an upstream and the authentication service -/

lemma forwarded_own_iff (hpeer : ∀ ip, conn.peer = some ip → W.trusted.trustedPeer ip = false)
    (hr : Routed s req adm) (ho : .forwarded o ∈ (handle W conn req s).log)
    (hn : n ∈ forwardedHeaders) :
    o.headers.getAll n = forwardingValues G conn adm.matched o.destination n ↔
      ∀ v, sentCert G conn adm.matched o.destination = some (n, v) →
        forwardingValues G conn adm.matched o.destination n = [v] := by
  rw [handle_getAll_forwarded hpeer hr ho hn]
  constructor
  · intro h v hv
    rw [valueFor_eq_some.mpr hv] at h
    exact h.symm
  · intro h
    cases hval : valueFor n (sentCert G conn adm.matched o.destination) with
    | none => rfl
    | some v => exact (h v (valueFor_eq_some.mp hval)).symm

lemma clientAddress_own_iff (hr : Routed s req adm)
    (ho : .forwarded o ∈ (handle W conn req s).log) (hn : n ∈ clientAddressHeaders) :
    (∀ v ∈ o.headers.getAll n, adm.matched.route.rules.addedValue G n = some v ∨
        sentCert G conn adm.matched o.destination = some (n, v)) ↔
      (n ∉ strippedRequestHeaders →
        (∃ v, sentCert G conn adm.matched o.destination = some (n, v)) ∨
          n ∈ nominatedHeaders G adm.matched.route.rules req.headers ∨
          (adm.matched.route.rules.addedValue G n).isSome ∨
          adm.matched.route.rules.Strips G n ∨ req.headers.getAll n = []) := by
  rw [handle_getAll_clientAddress hr ho hn]
  cases hval : valueFor n (sentCert G conn adm.matched o.destination) with
  | some w =>
    have hw := valueFor_eq_some.mp hval
    refine iff_of_true (fun v hv => .inr ?_) fun _ => .inl ⟨w, hw⟩
    rw [List.mem_singleton.mp hv, hw]
  | none =>
    have hnocert : ¬ ∃ v, sentCert G conn adm.matched o.destination = some (n, v) := by
      rintro ⟨w, hw⟩
      rw [valueFor_eq_some.mpr hw] at hval
      cases hval
    rw [Option.elim_none, keptValues]
    split
    · next hgone =>
      exact iff_of_true (fun _ hv => absurd hv List.not_mem_nil) fun hstrip =>
        .inr (.inl (hgone.resolve_left hstrip))
    · next hopen =>
      obtain ⟨hstrip, hnom⟩ := not_or.mp hopen
      rw [DomainRules.ruledValues]
      cases adm.matched.route.rules.addedValue G n with
      | some w =>
        refine iff_of_true (fun v hv => .inl ?_) fun _ => .inr (.inr (.inl rfl))
        rw [List.mem_singleton.mp hv]
      | none =>
        rw [Option.elim_none]
        split
        · next hstrips =>
          exact iff_of_true (fun _ hv => absurd hv List.not_mem_nil) fun _ =>
            .inr (.inr (.inr (.inl hstrips)))
        · next hkept =>
          -- nothing stands between the client and the upstream
          simp only [hnocert, hnom, hkept, hstrip, Option.isSome_none, reduceCtorEq,
            Bool.false_eq_true, false_or, not_false_eq_true, forall_const]
          constructor
          · intro h
            exact List.eq_nil_iff_forall_not_mem.mpr fun v hv => hnocert ⟨v, h v hv⟩
          · intro h v hv
            rw [h] at hv
            cases hv

lemma hidesClientAddress_iff
    (hpeer : ∀ ip, conn.peer = some ip → W.trusted.trustedPeer ip = false)
    (hr : Routed s req adm) (ho : .forwarded o ∈ (handle W conn req s).log) :
    HidesClientAddress G conn adm.matched o ↔
      AddressHeadersSafe G conn adm.matched o.destination req.headers := by
  constructor
  · rintro ⟨hforwarded, hother⟩
    exact ⟨fun n hn => (forwarded_own_iff hpeer hr ho hn).mp (hforwarded n hn),
      fun n hn => (clientAddress_own_iff hr ho hn).mp (hother n hn)⟩
  · rintro ⟨hcert, hkept⟩
    exact ⟨fun n hn => (forwarded_own_iff hpeer hr ho hn).mpr (hcert n hn),
      fun n hn => (clientAddress_own_iff hr ho hn).mpr (hkept n hn)⟩

lemma forwardAuthHeaders_hide_iff (config : ForwardAuthConfig) :
    (∀ n ∈ clientAddressHeaders ++ forwardedHeaders,
        ∀ v ∈ (forwardAuthHeaders req config).getAll n,
          n = Header.xForwardedHost ∧ req.headers.get Header.host = some v) ↔
      AuthHeadersSafe req config := by
  refine forall₂_congr fun n hn => ?_
  constructor
  · intro h hconfig v hv
    refine h v (mem_getAll_forwardAuthHeaders.mpr ⟨hconfig, ?_⟩)
    rw [forwardAuthValue, hv, Option.some_or]
  · intro h v hv
    obtain ⟨hconfig, hvalue⟩ := mem_getAll_forwardAuthHeaders.mp hv
    rw [forwardAuthValue] at hvalue
    cases hget : req.headers.get n with
    | some w =>
      rw [hget, Option.some_or] at hvalue
      cases hvalue
      exact h hconfig v hget
    | none =>
      rw [hget, Option.none_or] at hvalue
      split at hvalue
      · next hhost => exact ⟨hhost, hvalue⟩
      · cases hvalue

/-- **No header about the client's address is the client's own exactly if it sends none
of those that are not removed.**  For a request from an untrusted peer this is decided for
each message to an upstream or a mirror, and for the question to the authentication
service. -/
theorem client_address_headers_iff
    (hpeer : ∀ ip, conn.peer = some ip → W.trusted.trustedPeer ip = false)
    (hr : Routed s req adm) :
    (∀ destination o, .forwarded o ∈ (handle W conn req s).log → o.destination = destination →
        (HidesClientAddress G conn adm.matched o ↔
          AddressHeadersSafe G conn adm.matched destination req.headers)) ∧
      ∀ url headers, .authRequest url headers ∈ (handle W conn req s).log →
        ((∀ n ∈ clientAddressHeaders ++ forwardedHeaders, ∀ v ∈ headers.getAll n,
            n = Header.xForwardedHost ∧ req.headers.get Header.host = some v) ↔
          ∀ config, adm.matched.middleware.forwardAuth = some config →
            AuthHeadersSafe req config) := by
  refine ⟨?_, fun url headers hasked => ?_⟩
  · rintro _ o ho rfl
    exact hidesClientAddress_iff hpeer hr ho
  · obtain ⟨config, hconfig, -, -, rfl⟩ := handle_asks hr hasked
    rw [forwardAuthHeaders_hide_iff, hconfig]
    exact ⟨fun h _ hsome => Option.some.inj hsome ▸ h, fun h => h config rfl⟩

def askingRules (header : Text) : DomainRules where
  middlewares := Map.ofList [("auth",
    { forwardAuth := some
        { enabled := true, url := "http://auth:80/", requestHeaders := [header] } })]

def addressRequest (header : Text) : Request .http1 := rootRequest [(header, "1.2.3.4")]

/-- An untrusted client's `CF-Connecting-IP` reaches the upstream, and its
`X-Forwarded-For` the authentication service. -/
theorem client_address_leaked :
    sampleWorld.trusted.trustedPeer (.v4 ⟨9, 9, 9, 9⟩) = false ∧
      ((sentMessages (handle sampleWorld sampleConnection (addressRequest "cf-connecting-ip")
        (sampleState {} [])).log).map fun o => o.headers.getAll "cf-connecting-ip") =
          [[.fromStatic "1.2.3.4"]] ∧
      ((handle sampleWorld sampleConnection (addressRequest Header.xForwardedFor)
        (sampleState (askingRules "X-Forwarded-For") ["auth"])).log.filterMap fun
          | .authRequest _ headers => some (headers.getAll Header.xForwardedFor)
          | _ => none) = [[.fromStatic "1.2.3.4"]] := by
  decide +kernel

/-- A client's `X-Real-IP` is removed, and the authentication service only told the
host. -/
theorem client_address_headers_hidden :
    ∃ o, .forwarded o ∈ (handle sampleWorld sampleConnection (addressRequest "x-real-ip")
        (sampleState (askingRules "X-Forwarded-Host") ["auth"])).log ∧
      HidesClientAddress .http1 sampleConnection
        (sampleMatch (askingRules "X-Forwarded-Host") ["auth"]) o ∧
      ∀ url headers, .authRequest url headers ∈
          (handle sampleWorld sampleConnection (addressRequest "x-real-ip")
            (sampleState (askingRules "X-Forwarded-Host") ["auth"])).log →
        ∀ n ∈ clientAddressHeaders ++ forwardedHeaders, ∀ v ∈ headers.getAll n,
          n = Header.xForwardedHost ∧
            (addressRequest "x-real-ip").headers.get Header.host = some v := by
  have hnocert : sentCert .http1 sampleConnection
      (sampleMatch (askingRules "X-Forwarded-Host") ["auth"]) .upstream = none := by
    decide
  have hpeer : ∀ ip, sampleConnection.peer = some ip →
      sampleWorld.trusted.trustedPeer ip = false := by
    rintro _ ⟨⟩
    decide
  obtain ⟨hsent, hasked⟩ := client_address_headers_iff (W := sampleWorld) hpeer
    (routed_sample (askingRules "X-Forwarded-Host") ["auth"]
      [("x-real-ip".toList, "1.2.3.4".toList)])
  obtain ⟨o, ho, hd⟩ := exists_sent (d := .upstream) (l := (handle sampleWorld sampleConnection
    (addressRequest "x-real-ip") (sampleState (askingRules "X-Forwarded-Host") ["auth"])).log)
    (by decide +kernel)
  refine ⟨o, ho, (hsent .upstream o ho hd).mpr ⟨?_, ?_⟩, fun url headers h => ?_⟩
  · intro n _ v hv
    rw [hnocert] at hv
    cases hv
  · have hclient : ∀ n ∈ clientAddressHeaders, n ∉ strippedRequestHeaders →
        (addressRequest "x-real-ip").headers.getAll n = [] := by decide
    exact fun n hn hstrip => .inr (.inr (.inr (.inr (hclient n hn hstrip))))
  · refine (hasked url headers h).mpr fun config hconfig n hn hheader v hv => ?_
    have hask : (sampleMatch (askingRules "X-Forwarded-Host") ["auth"]).middleware.forwardAuth =
        some { enabled := true, url := "http://auth:80/",
               requestHeaders := ["X-Forwarded-Host".toList] } := by decide
    obtain rfl := Option.some.inj (hask.symm.trans hconfig)
    obtain ⟨header, hheader, hname⟩ := hheader
    obtain rfl := List.mem_singleton.mp hheader
    have hname' : Grammar.http1.parseName "X-Forwarded-Host" = some Header.xForwardedHost := by
      decide
    obtain rfl := Option.some.inj (hname'.symm.trans hname)
    have hnone : (addressRequest "x-real-ip").headers.get Header.xForwardedHost = none := by
      decide
    exact absurd (hnone.symm.trans hv) (by simp)

end PxxlEdge
