import PxxlEdge.Proxy.Handle

/-!
The headers an upstream sees, name by name, from the ones the client sent.

Between the client and the upstream a header passes the rules of the route, the
trace headers, detection of the content type, removal of hop-by-hop headers and
the writes of forwarding, in this order: what the edge adds early can be removed
again, and what it does not remove reaches the upstream.
-/

namespace PxxlEdge

open RustStd Http

variable {G : Grammar} {W : World G} {conn : Connection} {req : Request G} {s : EdgeState}
  {adm : Admission} {o : Outgoing G} {n : Text}

/-! ### A prepared request -/

def foundValues (matched : RouteMatch) (path : Text) (body : Option (List UInt8)) (n : Text)
    (values : List HeaderValue) : List HeaderValue :=
  if matched.middleware.contentTypeAutodetect.enabled then detectedValues path body n values
  else values

def preparedValues (W : World G) (req : Request G) (adm : Admission)
    (body : Option (List UInt8)) (n : Text) : List HeaderValue :=
  let path := (forwardUri req adm.path).path
  let ruled := adm.matched.route.rules.ruledValues G (clientHeaders req adm.matched.middleware) n
  let traced := tracedValues W n (foundValues adm.matched path none n ruled)
  body.elim traced fun body => foundValues adm.matched path (some body) n traced

def nominatedHeaders (G : Grammar) (rules : DomainRules) (headers : HeaderMap) : List Text :=
  nominated G (rules.ruledValues G headers Header.connection)

def lengthValue (body : Option (List UInt8)) (n : Text) : Option HeaderValue :=
  if n = Header.contentLength then body.map fun b => Text.asBytes (Nat.toDigits 10 b.length)
  else none

def passedValues (W : World G) (req : Request G) (adm : Admission) (n : Text) :
    List HeaderValue :=
  let body := forwardedBody adm.matched req.body
  (lengthValue body n).elim
    (keptValues (nominatedHeaders G adm.matched.route.rules req.headers) n
      (preparedValues W req adm body n))
    fun v => [v]

lemma foundValues_of_ne_nil {matched : RouteMatch} {path : Text} {body : Option (List UInt8)}
    {values : List HeaderValue} (h : n ≠ Header.contentType ∨ values ≠ []) :
    foundValues matched path body n values = values := by
  rw [foundValues, detectedValues, if_neg (show ¬ (_ ∧ _) by tauto), ite_self]

lemma tracedValues_of_ne_nil {values : List HeaderValue} (hid : n ≠ Header.requestId)
    (h : n ≠ Header.traceparent ∨ values ≠ []) : tracedValues W n values = values := by
  rw [tracedValues, if_neg hid, if_neg (by tauto)]

lemma isSome_lengthValue {body : Option (List UInt8)} :
    (lengthValue body n).isSome = true ↔ n = Header.contentLength ∧ body.isSome = true := by
  rw [lengthValue]
  split
  · next hn => rw [Option.isSome_map, and_iff_right hn]
  · next hn => exact iff_of_false Bool.false_ne_true fun h => hn h.1

variable (req) in
lemma getAll_clientHeaders (middleware : EffectiveMiddleware) (n : Text) :
    (clientHeaders req middleware).getAll n =
      if n = Header.authorization ∧ middleware.consumesAuthorization = true then []
      else req.headers.getAll n := by
  rw [clientHeaders]
  by_cases hconsumes : middleware.consumesAuthorization = true
  · rw [if_pos hconsumes, HeaderMap.getAll_remove]
    simp only [hconsumes, and_true]
  · rw [if_neg hconsumes, if_neg (fun h => hconsumes h.2)]

lemma getAll_detected (middleware : EffectiveMiddleware) (headers : HeaderMap) (uri : Uri G)
    (body : Option (List UInt8)) (n : Text) :
    (detected middleware headers uri body).getAll n =
      if middleware.contentTypeAutodetect.enabled then
        detectedValues uri.path body n (headers.getAll n)
      else headers.getAll n := by
  rw [detected]
  split
  · exact getAll_applyContentTypeDetection _ _ _ _
  · rfl

lemma getAll_preparedHeaders (body : Option (List UInt8)) (n : Text) :
    (preparedHeaders W req adm body).getAll n = preparedValues W req adm body n := by
  have htraced : (ensureTraceHeaders W (prepareRequest req adm).headers).getAll n =
      preparedValues W req adm none n := by
    rw [getAll_ensureTraceHeaders, prepareRequest, getAll_detected, getAll_applyRequestRules]
    rfl
  cases body with
  | none => exact htraced
  | some body =>
    rw [preparedHeaders, getAll_detected, htraced]
    rfl

lemma preparedValues_plain (body : Option (List UInt8))
    (hn : n ∉ [Header.authorization, Header.contentType, Header.requestId, Header.traceparent]) :
    preparedValues W req adm body n = adm.matched.route.rules.ruledValues G req.headers n := by
  simp only [List.mem_cons, List.not_mem_nil, or_false, not_or] at hn
  obtain ⟨hauth, htype, hid, htrace⟩ := hn
  have hruled : adm.matched.route.rules.ruledValues G
      (clientHeaders req adm.matched.middleware) n =
      adm.matched.route.rules.ruledValues G req.headers n := by
    have hclient := getAll_clientHeaders req adm.matched.middleware n
    rw [if_neg (fun h => hauth h.1)] at hclient
    rw [DomainRules.ruledValues, hclient, DomainRules.ruledValues]
  cases body <;>
    simp [preparedValues, foundValues_of_ne_nil (.inl htype),
      tracedValues_of_ne_nil hid (.inl htrace), hruled]

lemma nominated_preparedHeaders (body : Option (List UInt8)) :
    nominated G ((preparedHeaders W req adm body).getAll Header.connection) =
      nominatedHeaders G adm.matched.route.rules req.headers := by
  rw [getAll_preparedHeaders, preparedValues_plain body (by decide), nominatedHeaders]

lemma getAll_passedHeaders (hc : n ≠ Header.connection) (hu : n ≠ Header.upgrade) :
    (passedHeaders W req adm (forwardedBody adm.matched req.body)).getAll n =
      passedValues W req adm n := by
  rw [passedValues]
  cases forwardedBody adm.matched req.body with
  | none =>
    rw [passedHeaders, getAll_streamedHeaders _ hc hu, nominated_preparedHeaders,
      getAll_preparedHeaders]
    simp [lengthValue]
  | some body =>
    rw [passedHeaders, getAll_bufferedHeaders, nominated_preparedHeaders,
      getAll_preparedHeaders, lengthValue]
    split <;> rfl

/-! ### A sent message -/

def sentCert (G : Grammar) (conn : Connection) (matched : RouteMatch) :
    Destination → Option (Text × HeaderValue)
  | .upstream => clientCertHeader G matched.middleware.clientCertForwarding conn.clientCertPem
  | .mirror => none

lemma certHeader_sendContext (destination : Destination) (upstream : Upstream) :
    (sendContext W conn req adm destination upstream).certHeader G =
      sentCert G conn adm.matched destination := by
  cases destination with
  | upstream => rfl
  | mirror =>
    change clientCertHeader G _ none = none
    simp [clientCertHeader]

lemma handle_getAll (hr : Routed s req adm) (ho : .forwarded o ∈ (handle W conn req s).log)
    (hc : n ≠ Header.connection) (hu : n ≠ Header.upgrade) :
    ∃ upstream, o.headers.getAll n =
      ((sendContext W conn req adm o.destination upstream).written W n).elim
        (passedValues W req adm n) fun v => [v] := by
  obtain ⟨upstream, hsent⟩ := handle_sends_routed hr ho
  exact ⟨upstream, by rw [hsent.relayed.getAll, getAll_passedHeaders hc hu]⟩

def forwardingNames : List Text :=
  [Header.connection, Header.upgrade, Header.host, Header.xForwardedFor, Header.xForwardedProto,
    Header.xForwardedHost]

lemma forwardingNames_subset : forwardingNames ⊆ strippedRequestHeaders := by
  decide

lemma handle_getAll_of_notMem (hr : Routed s req adm)
    (ho : .forwarded o ∈ (handle W conn req s).log) (hn : n ∉ forwardingNames) :
    o.headers.getAll n =
      (valueFor n (sentCert G conn adm.matched o.destination)).elim (passedValues W req adm n)
        fun v => [v] := by
  simp only [forwardingNames, List.mem_cons, List.not_mem_nil, or_false, not_or] at hn
  obtain ⟨hc, hu, hhost, hfor, hproto, hfhost⟩ := hn
  obtain ⟨upstream, hgetAll⟩ := handle_getAll hr ho hc hu
  rw [hgetAll, ForwardContext.written, certHeader_sendContext, if_neg hfor, if_neg hproto,
    if_neg hfhost, if_neg (fun h => hhost h.1), Option.or_none]

end PxxlEdge
