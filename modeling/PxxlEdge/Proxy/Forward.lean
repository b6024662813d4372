import PxxlEdge.Proxy.Upstreams

/-!
Forwarding: the message to an upstream is built, sent, and its answer read.  A
request is streamed, or buffered and then sent once or several times and
mirrored.

* `forwardStreaming_composes`, `forwardBuffered_composes`: what is sent is one message;
  `forwardWithRetry_composes` and `mirrorRequest_composes` lift this to all attempts and
  all mirrors.
* `getAll_streamedHeaders`, `getAll_bufferedHeaders`: the client's headers that
  are left on the two paths.
-/

namespace PxxlEdge

open RustStd Http Handlers

/-! ### Bodies -/

inductive BufferError where
  | tooLarge
  | body (error : Text)
deriving DecidableEq, Repr

def collectBodyWithLimit (maxBytes : ℕ) :
    (collected : List UInt8) → List Frame → Except BufferError (List UInt8)
  | collected, [] => .ok collected
  | collected, .data data :: frames =>
    if maxBytes < collected.length + data.length then .error .tooLarge
    else collectBodyWithLimit maxBytes (collected ++ data) frames
  | collected, .trailers :: frames => collectBodyWithLimit maxBytes collected frames
  | _, .failed error :: _ => .error (.body error)

structure BufferedRequest (G : Grammar) where
  method : Text
  uri : Uri G
  headers : HeaderMap
  body : List UInt8

def BufferedRequest.fromRequest {G : Grammar} (req : Request G) (maxBytes : ℕ) :
    Except BufferError (BufferedRequest G) :=
  (collectBodyWithLimit maxBytes [] req.body).map fun body =>
    ⟨req.method, req.uri, req.headers, body⟩

/-! ### Messages -/

section Messages

variable {G : Grammar} (W : World G)

def buildUpstreamUri (upstream : Upstream) (original : Uri G) : Except PxxlError (Uri G) :=
  match Uri.parse G (upstream.url.trimEndMatches '/' ++ original.originForm) with
  | some uri => .ok uri
  | none => .error (.invalidUpstream upstream.url)

def relayMessage (destination : Destination) (ctx : ForwardContext) (method : Text) (uri : Uri G)
    (headers : HeaderMap) (body : Body) : Except PxxlError (Outgoing G) := do
  ensureRuntimeUpstreamAllowed W ctx.matched.route.source ctx.upstream.url
  let target ← buildUpstreamUri ctx.upstream uri
  let written ← forwardingHeaders W ctx
  return {
    destination
    upstream := ctx.upstream
    method
    requestUri := uri
    target
    headers := headers.insertAll written
    body }

def streamedHeaders (G : Grammar) (headers : HeaderMap) : HeaderMap :=
  if isWebsocketUpgrade G headers then
    preserveWebsocketUpgradeHeaders (stripForwardedRequestHeaders G headers)
  else stripForwardedRequestHeaders G headers

def streamingMessage (ctx : ForwardContext) (req : Request G) (maxRequestBytes : ℕ) :
    Except PxxlError (Outgoing G) :=
  relayMessage W .upstream ctx req.method req.uri (streamedHeaders G req.headers)
    (.stream req.body (some maxRequestBytes))

def bufferedHeaders (G : Grammar) (headers : HeaderMap) (body : List UInt8) : HeaderMap :=
  insertText G (stripForwardedRequestHeaders G headers) Header.contentLength
    (Nat.toDigits 10 body.length)

def bufferedMessage (destination : Destination) (ctx : ForwardContext) (req : BufferedRequest G) :
    Except PxxlError (Outgoing G) :=
  relayMessage W destination ctx req.method req.uri (bufferedHeaders G req.headers req.body)
    (.bytes req.body)

variable {W} {ctx : ForwardContext} {o : Outgoing G}

structure Relayed (W : World G) (destination : Destination) (ctx : ForwardContext) (uri : Uri G)
    (headers : HeaderMap) (o : Outgoing G) : Prop where
  destination : o.destination = destination
  upstream : o.upstream = ctx.upstream
  requestUri : o.requestUri = uri
  target : Uri.parse G (o.upstream.url.trimEndMatches '/' ++ uri.originForm) = some o.target
  written : ∃ es, forwardingHeaders W ctx = .ok es
  getAll : ∀ n, o.headers.getAll n = (ctx.written W n).elim (headers.getAll n) fun v => [v]

lemma relayMessage_cases (W : World G) (ctx : ForwardContext) (uri : Uri G) :
    (∃ e, ∀ destination method headers body,
      relayMessage W destination ctx method uri headers body = .error e) ∨
    ∃ target written, buildUpstreamUri ctx.upstream uri = .ok target ∧
      forwardingHeaders W ctx = .ok written ∧
      ∀ destination method headers body,
        relayMessage W destination ctx method uri headers body = .ok
          ⟨destination, ctx.upstream, method, uri, target, headers.insertAll written, body⟩ := by
  cases hallowed : ensureRuntimeUpstreamAllowed W ctx.matched.route.source ctx.upstream.url with
  | error e =>
    refine .inl ⟨e, fun destination method headers body => ?_⟩
    rw [relayMessage, hallowed]
    rfl
  | ok _ =>
    cases htarget : buildUpstreamUri ctx.upstream uri with
    | error e =>
      refine .inl ⟨e, fun destination method headers body => ?_⟩
      rw [relayMessage, hallowed, htarget]
      rfl
    | ok target =>
      cases hwritten : forwardingHeaders W ctx with
      | error e =>
        refine .inl ⟨e, fun destination method headers body => ?_⟩
        rw [relayMessage, hallowed, htarget, hwritten]
        rfl
      | ok written =>
        refine .inr ⟨target, written, rfl, rfl, fun destination method headers body => ?_⟩
        rw [relayMessage, hallowed, htarget, hwritten]
        rfl

lemma relayed_of_relayMessage {destination : Destination} {method : Text} {uri : Uri G}
    {headers : HeaderMap} {body : Body}
    (h : relayMessage W destination ctx method uri headers body = .ok o) :
    Relayed W destination ctx uri headers o := by
  rcases relayMessage_cases W ctx uri with ⟨e, he⟩ | ⟨target, written, htarget, hwritten, hok⟩
  · rw [he] at h
    cases h
  · rw [hok] at h
    obtain rfl := Except.ok.inj h
    refine ⟨rfl, rfl, rfl, ?_, ⟨written, hwritten⟩, getAll_insertForwardingHeaders hwritten headers⟩
    rw [buildUpstreamUri] at htarget
    split at htarget
    · next hparse =>
      cases htarget
      exact hparse
    · cases htarget

def keptValues (names : List Text) (n : Text) (values : List HeaderValue) : List HeaderValue :=
  if n ∈ strippedRequestHeaders ∨ n ∈ names then [] else values

lemma getAll_streamedHeaders (headers : HeaderMap) {n : Text} (hc : n ≠ Header.connection)
    (hu : n ≠ Header.upgrade) :
    (streamedHeaders G headers).getAll n =
      keptValues (nominated G (headers.getAll Header.connection)) n (headers.getAll n) := by
  have hstrip := getAll_stripHopByHop G strippedRequestHeaders headers n
  rw [streamedHeaders]
  split
  · rw [preserveWebsocketUpgradeHeaders, HeaderMap.getAll_insert, if_neg hu,
      HeaderMap.getAll_insert, if_neg hc]
    exact hstrip
  · exact hstrip

lemma getAll_bufferedHeaders (headers : HeaderMap) (body : List UInt8) (n : Text) :
    (bufferedHeaders G headers body).getAll n =
      if n = Header.contentLength then [Text.asBytes (Nat.toDigits 10 body.length)]
      else keptValues (nominated G (headers.getAll Header.connection)) n (headers.getAll n) := by
  rw [bufferedHeaders, getAll_insertText, stripForwardedRequestHeaders, getAll_stripHopByHop,
    ← keptValues, G.parseValue_visible (isVisible_toDigits _)]

end Messages

/-! ### Sending -/

section Sending

variable {G : Grammar} (W : World G)

def forwardStreaming (ctx : ForwardContext) (req : Request G) (maxRequestBytes : ℕ) :
    ProxyM G (Except PxxlError Response) :=
  match streamingMessage W ctx req maxRequestBytes with
  | .error e => return .error e
  | .ok message => do
      Handler.emit (.forwarded message)
      match W.answer 1 message with
      | .error e => return .error e
      | .ok (status, headers, frames) =>
        if isWebsocketUpgrade G req.headers ∧ status = 101 then
          return .ok ⟨status, headers, .stream frames none⟩
        else
          return .ok ⟨status, stripHopByHopResponseHeaders G headers,
            .stream frames (some ctx.middleware.responseBuffering.maxResponseBytes)⟩

def forwardBuffered (destination : Destination) (ctx : ForwardContext) (req : BufferedRequest G)
    (attempt : ℕ) : ProxyM G (Except PxxlError BufferedResponse) :=
  match bufferedMessage W destination ctx req with
  | .error e => return .error e
  | .ok message => do
      Handler.emit (.forwarded message)
      match W.answer attempt message with
      | .error e => return .error e
      | .ok (status, headers, frames) =>
        match collectBodyWithLimit ctx.middleware.responseBuffering.maxResponseBytes []
            frames with
        | .error _ => return .error (.invalidUpstream ctx.upstream.url)
        | .ok body => return .ok ⟨status, headers, body⟩

def retryableStatus (status : ℕ) (retry : RetryConfig) : Bool :=
  retry.enabled && (retry.retryStatuses.isEmpty || retry.retryStatuses.any (· == status))

def retryLoop (ctx : ForwardContext) (req : BufferedRequest G) :
    (further attempt : ℕ) → ProxyM G (Except PxxlError BufferedResponse)
  | 0, attempt => forwardBuffered W .upstream ctx req attempt
  | further + 1, attempt => do
      match ← forwardBuffered W .upstream ctx req attempt with
      | .ok response =>
        if retryableStatus response.status ctx.middleware.retry then
          retryLoop ctx req further (attempt + 1)
        else return .ok response
      | .error _ => retryLoop ctx req further (attempt + 1)

def forwardWithRetry (ctx : ForwardContext) (req : BufferedRequest G) :
    ProxyM G (Except PxxlError BufferedResponse) :=
  let retry := ctx.middleware.retry
  retryLoop W ctx req ((if retry.enabled then max retry.attempts 1 else 1) - 1) 1

def mirrorShouldRun (domain : Text) (uri : Uri G) (upstream : Text) (percent : ℕ) : Bool :=
  decide (100 ≤ percent) ||
    decide ((fnv1a (Text.asBytes (joinKey [domain, uri.display, upstream]))).toNat % 100 < percent)

def mirrorContext (matched : RouteMatch) (upstream : Upstream) : ForwardContext where
  matched
  upstream
  remoteIp := none
  scheme := .http
  middleware := .fromRules matched.route.rules []
  clientCertPem := none

def mirrorRequest (req : BufferedRequest G) (matched : RouteMatch) (mirror : TrafficMirrorConfig)
    (domain : Text) : ProxyM G Unit :=
  if ¬ mirror.enabled ∨ mirror.upstreams = [] ∨ mirror.percent = 0 then return ()
  else
    Handler.each
      (fun upstream =>
        if mirrorShouldRun domain req.uri upstream.url mirror.percent then do
          let _ ← forwardBuffered W .mirror (mirrorContext matched upstream) req 0
          return ()
        else return ())
      (mirror.upstreams.filter fun upstream => upstream.healthy)

/-! ### What is sent -/

variable {W} {s : EdgeState} {ctx : ForwardContext} {allowed : EdgeState → EdgeState → Prop}
  {Φ : (α : Type) → ProxyM G α → EdgeState → Prop} (h : Composes allowed Φ)

include h

lemma forwardStreaming_composes {req : Request G} {limit : ℕ}
    (hsends : ∀ o, streamingMessage W ctx req limit = .ok o →
      Φ Unit (Handler.emit (.forwarded o)) s) :
    Φ _ (forwardStreaming W ctx req limit) s := by
  rw [forwardStreaming]
  split
  · exact h.pure _ _
  · next o ho =>
    refine h.bind (hsends o ho) fun _ _ => ?_
    split
    · exact h.pure _ _
    · split <;> exact h.pure _ _

variable {req : BufferedRequest G}

lemma forwardBuffered_composes {destination : Destination} {attempt : ℕ}
    (hsends : ∀ o, bufferedMessage W destination ctx req = .ok o →
      Φ Unit (Handler.emit (.forwarded o)) s) :
    Φ _ (forwardBuffered W destination ctx req attempt) s := by
  rw [forwardBuffered]
  split
  · exact h.pure _ _
  · next o ho =>
    refine h.bind (hsends o ho) fun _ _ => ?_
    split
    · exact h.pure _ _
    · split <;> exact h.pure _ _

lemma retryLoop_composes (hsends : ∀ o s, bufferedMessage W .upstream ctx req = .ok o →
      Φ Unit (Handler.emit (.forwarded o)) s) (further attempt : ℕ) :
    Φ _ (retryLoop W ctx req further attempt) s := by
  induction further generalizing attempt s with
  | zero => exact forwardBuffered_composes h fun o => hsends o s
  | succ further ih =>
    refine h.bind (forwardBuffered_composes h fun o => hsends o s) fun r _ => ?_
    cases r with
    | error e => exact ih (attempt + 1)
    | ok response =>
      dsimp only
      split
      · exact ih (attempt + 1)
      · exact h.pure _ _

lemma forwardWithRetry_composes (hsends : ∀ o s, bufferedMessage W .upstream ctx req = .ok o →
      Φ Unit (Handler.emit (.forwarded o)) s) :
    Φ _ (forwardWithRetry W ctx req) s :=
  retryLoop_composes h hsends _ _

lemma mirrorRequest_composes {matched : RouteMatch} {mirror : TrafficMirrorConfig} {domain : Text}
    (hsends : ∀ upstream o s,
      bufferedMessage W .mirror (mirrorContext matched upstream) req = .ok o →
        Φ Unit (Handler.emit (.forwarded o)) s) :
    Φ Unit (mirrorRequest W req matched mirror domain) s := by
  rw [mirrorRequest]
  split
  · exact h.pure _ _
  · refine h.each (fun upstream s => ?_) _ s
    split
    · exact h.bind (forwardBuffered_composes h fun o => hsends upstream o s) fun _ _ => h.pure _ _
    · exact h.pure _ _

end Sending

end PxxlEdge
