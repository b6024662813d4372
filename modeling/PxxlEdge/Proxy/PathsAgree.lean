import PxxlEdge.Proxy.SentHeaders

/-!
The two ways of forwarding a request, compared.

A request is streamed to its upstream, or collected first and sent with its whole body.
The two messages are built by different code from the same prepared request.
-/

namespace PxxlEdge

open RustStd Http Handlers

/-! ### Reading a body -/

def limitedFrames : (remaining : ℕ) → List Frame → List Frame
  | _, [] => []
  | remaining, .data data :: frames =>
    if remaining < data.length then [.failed "length limit exceeded"]
    else .data data :: limitedFrames (remaining - data.length) frames
  | remaining, .trailers :: frames => .trailers :: limitedFrames remaining frames
  | _, .failed error :: _ => [.failed error]

def frameBytes : List Frame → Option (List UInt8)
  | [] => some []
  | .data data :: frames => (frameBytes frames).map fun rest => data ++ rest
  | .trailers :: frames => frameBytes frames
  | .failed _ :: _ => none

inductive Body.Carries : Body → List UInt8 → Prop
  | bytes (b : List UInt8) : Carries (.bytes b) b
  | stream {frames : List Frame} {limit : ℕ} {b : List UInt8}
      (h : frameBytes (limitedFrames limit frames) = some b) :
      Carries (.stream frames (some limit)) b

lemma frameBytes_limitedFrames {maxBytes : ℕ} {collected body : List UInt8} {frames : List Frame}
    (h : collectBodyWithLimit maxBytes collected frames = .ok body) :
    ∃ rest, frameBytes (limitedFrames (maxBytes - collected.length) frames) = some rest ∧
      body = collected ++ rest := by
  induction frames generalizing collected with
  | nil =>
    cases h
    exact ⟨[], rfl, (List.append_nil _).symm⟩
  | cons frame frames ih =>
    cases frame with
    | data data =>
      rw [collectBodyWithLimit] at h
      split at h
      · cases h
      · next hfits =>
        obtain ⟨rest, hrest, rfl⟩ := ih h
        have hroom : ¬ maxBytes - collected.length < data.length := by omega
        have hleft : maxBytes - collected.length - data.length =
            maxBytes - (collected ++ data).length := by
          rw [List.length_append]
          omega
        refine ⟨data ++ rest, ?_, List.append_assoc ..⟩
        rw [limitedFrames, if_neg hroom, frameBytes, hleft, hrest, Option.map_some]
    | trailers => exact ih h
    | failed error => cases h

/-! ### The two messages -/

section Messages

variable {G : Grammar} {W : World G} {ctx : ForwardContext}

lemma forwardStreaming_of_error {req : Request G} {limit : ℕ} {e : PxxlError}
    (h : streamingMessage W ctx req limit = .error e) (s : EdgeState) :
    forwardStreaming W ctx req limit s = ⟨.ok (.error e), s, []⟩ := by
  rw [forwardStreaming, h]
  rfl

lemma log_forwardStreaming {req : Request G} {limit : ℕ} {o : Outgoing G}
    (h : streamingMessage W ctx req limit = .ok o) (s : EdgeState) :
    (forwardStreaming W ctx req limit s).log = [.forwarded o] := by
  rw [forwardStreaming, h]
  dsimp only
  split
  · rfl
  · split <;> rfl

lemma forwardBuffered_of_error {destination : Destination} {req : BufferedRequest G}
    {attempt : ℕ} {e : PxxlError} (h : bufferedMessage W destination ctx req = .error e)
    (s : EdgeState) :
    forwardBuffered W destination ctx req attempt s = ⟨.ok (.error e), s, []⟩ := by
  rw [forwardBuffered, h]
  rfl

lemma log_forwardBuffered {destination : Destination} {req : BufferedRequest G} {attempt : ℕ}
    {o : Outgoing G} (h : bufferedMessage W destination ctx req = .ok o) (s : EdgeState) :
    (forwardBuffered W destination ctx req attempt s).log = [.forwarded o] := by
  rw [forwardBuffered, h]
  dsimp only
  split
  · rfl
  · split <;> rfl

lemma getAll_streamedHeaders_of_not_upgrade {headers : HeaderMap}
    (h : ¬ isWebsocketUpgrade G headers = true) (n : Text) :
    (streamedHeaders G headers).getAll n =
      keptValues (nominated G (headers.getAll Header.connection)) n (headers.getAll n) := by
  rw [streamedHeaders, if_neg h, stripForwardedRequestHeaders, getAll_stripHopByHop, ← keptValues]

end Messages

/-! ### The two paths -/

section Paths

variable {G : Grammar} (W : World G) (conn : Connection) (req : Request G) (adm : Admission)

def streamedRequest : Request G :=
  { prepareRequest req adm with headers := preparedHeaders W req adm none }

def collectedRequest (body : List UInt8) : BufferedRequest G :=
  ⟨req.method, forwardUri req adm.path, preparedHeaders W req adm (some body), body⟩

def streamedForward (upstream : Upstream) : ProxyM G (Except PxxlError Response) :=
  forwardStreaming W (sendContext W conn req adm .upstream upstream) (streamedRequest W req adm)
    (bodyLimit adm.matched)

def bufferedForward (body : List UInt8) (upstream : Upstream) (attempt : ℕ) :
    ProxyM G (Except PxxlError BufferedResponse) :=
  forwardBuffered W .upstream (sendContext W conn req adm .upstream upstream)
    (collectedRequest W req adm body) attempt

def DetectsInBody : Prop :=
  adm.matched.middleware.contentTypeAutodetect.enabled = true ∧
    (streamedRequest W req adm).headers.getAll Header.contentType = []

structure SameRequest (body : List UInt8) (o o' : Outgoing G) : Prop where
  method : o.method = o'.method
  target : o.target = o'.target
  carries : o.body.Carries body
  carries' : o'.body.Carries body
  headers : ∀ n ≠ Header.contentLength, ¬ (n = Header.contentType ∧ DetectsInBody W req adm) →
    o.headers.getAll n = o'.headers.getAll n

variable {W conn req adm}

lemma getAll_preparedHeaders_body (body : List UInt8) {n : Text}
    (hn : ¬ (n = Header.contentType ∧ DetectsInBody W req adm)) :
    (preparedHeaders W req adm (some body)).getAll n =
      (preparedHeaders W req adm none).getAll n := by
  change (detected _ (preparedHeaders W req adm none) _ _).getAll n = _
  rw [getAll_detected]
  split
  · next henabled =>
    refine if_neg ?_
    rintro ⟨rfl, hnone⟩
    exact hn ⟨rfl, henabled, hnone⟩
  · rfl

lemma getAll_passed_eq (hplain : ¬ isWebsocketUpgrade G (preparedHeaders W req adm none) = true)
    (body : List UInt8) {n : Text} (hlength : n ≠ Header.contentLength)
    (hn : ¬ (n = Header.contentType ∧ DetectsInBody W req adm)) :
    (streamedHeaders G (preparedHeaders W req adm none)).getAll n =
      (bufferedHeaders G (preparedHeaders W req adm (some body)) body).getAll n := by
  rw [getAll_streamedHeaders_of_not_upgrade hplain, getAll_bufferedHeaders, if_neg hlength,
    nominated_preparedHeaders, nominated_preparedHeaders, getAll_preparedHeaders_body body hn]

variable (conn) in
/-- **The streaming path and the buffered path hand over the same request**, with any route,
upstream, client and generated names, if its body is within the limit and it is no websocket
handshake: both fail to build a message, with the same error, or both send one, and the two
have the same method, target and bytes, and the same headers up to the length and a content
type that was detected in the body. -/
theorem streaming_and_buffered_agree {body : List UInt8} (upstream : Upstream) (attempt : ℕ)
    (s s' : EdgeState)
    (hbody : collectBodyWithLimit (bodyLimit adm.matched) [] req.body = .ok body)
    (hplain : ¬ isWebsocketUpgrade G (streamedRequest W req adm).headers = true) :
    let streamed := streamedForward W conn req adm upstream s
    let buffered := bufferedForward W conn req adm body upstream attempt s'
    (∃ e, streamed.log = [] ∧ streamed.result = .ok (.error e) ∧
      buffered.log = [] ∧ buffered.result = .ok (.error e)) ∨
    ∃ o o', streamed.log = [.forwarded o] ∧ buffered.log = [.forwarded o'] ∧
      SameRequest W req adm body o o' := by
  intro streamed buffered
  have hstreaming : streamingMessage W (sendContext W conn req adm .upstream upstream)
      (streamedRequest W req adm) (bodyLimit adm.matched) =
      relayMessage W .upstream (sendContext W conn req adm .upstream upstream) req.method
        (forwardUri req adm.path) (streamedHeaders G (preparedHeaders W req adm none))
        (.stream req.body (some (bodyLimit adm.matched))) := rfl
  have hbuffering : bufferedMessage W .upstream (sendContext W conn req adm .upstream upstream)
      (collectedRequest W req adm body) =
      relayMessage W .upstream (sendContext W conn req adm .upstream upstream) req.method
        (forwardUri req adm.path)
        (bufferedHeaders G (preparedHeaders W req adm (some body)) body) (.bytes body) := rfl
  rcases relayMessage_cases W (sendContext W conn req adm .upstream upstream)
    (forwardUri req adm.path) with ⟨e, he⟩ | ⟨target, written, -, -, hok⟩
  · rw [he] at hstreaming hbuffering
    have hstreamed : streamed = ⟨.ok (.error e), s, []⟩ := forwardStreaming_of_error hstreaming s
    have hbuffered : buffered = ⟨.ok (.error e), s', []⟩ := forwardBuffered_of_error hbuffering s'
    rw [hstreamed, hbuffered]
    exact .inl ⟨e, rfl, rfl, rfl, rfl⟩
  · rw [hok] at hstreaming hbuffering
    refine .inr ⟨_, _, log_forwardStreaming hstreaming s, log_forwardBuffered hbuffering s',
      rfl, rfl, ?_, .bytes body, fun n hlength hn => ?_⟩
    · obtain ⟨rest, hrest, rfl⟩ := frameBytes_limitedFrames hbody
      exact .stream hrest
    · rw [HeaderMap.getAll_insertAll, HeaderMap.getAll_insertAll,
        getAll_passed_eq hplain body hlength hn]

end Paths

def twoPieceRequest : Request .http1 :=
  { rootRequest [] with method := "POST", body := [.data [104], .data [105], .trailers] }

def twoPieceAdmission : Admission := ⟨"a.io", "/", sampleMatch {} []⟩

/-- The two pieces are streamed, or collected, and arrive as one body. -/
theorem streaming_and_buffered_agree_sample :
    ∃ o o',
      (streamedForward sampleWorld sampleConnection twoPieceRequest twoPieceAdmission
        { url := "http://app:80" } (sampleState {} [])).log = [.forwarded o] ∧
      (bufferedForward sampleWorld sampleConnection twoPieceRequest twoPieceAdmission [104, 105]
        { url := "http://app:80" } 1 (sampleState {} [])).log = [.forwarded o'] ∧
      SameRequest sampleWorld twoPieceRequest twoPieceAdmission [104, 105] o o' := by
  have hbody : collectBodyWithLimit (bodyLimit twoPieceAdmission.matched) [] twoPieceRequest.body =
      .ok [104, 105] := by
    decide
  have hplain : ¬ isWebsocketUpgrade .http1
      (streamedRequest sampleWorld twoPieceRequest twoPieceAdmission).headers = true := by
    decide
  have hsent : (streamedForward sampleWorld sampleConnection twoPieceRequest twoPieceAdmission
      { url := "http://app:80" } (sampleState {} [])).log.length = 1 := by
    decide
  rcases streaming_and_buffered_agree sampleConnection { url := "http://app:80" } 1
    (sampleState {} []) (sampleState {} []) hbody hplain with ⟨e, hlog, -⟩ | hsame
  · rw [hlog] at hsent
    cases hsent
  · exact hsame

end PxxlEdge
