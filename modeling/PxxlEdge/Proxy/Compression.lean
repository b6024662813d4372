import PxxlEdge.Proxy.CacheHeaders

/-!
Compression of buffered responses, as their clients see it.

A client decodes a body as `Content-Encoding` says.  The edge compresses under a reading of
`Accept-Encoding` of its own, and the headers of a compressed response still pass the removal of
hop-by-hop headers.
-/

namespace PxxlEdge

open RustStd Http Handlers

variable {G : Grammar} {W : World G} {conn : Connection} {req : Request G} {s : EdgeState}
  {r : Response} {adm : Admission} {upstream : Upstream} {a : BufferedResponse}

/-! ### Buffered responses -/

structure Delivers (W : World G) (req : Request G) (s : EdgeState) (r : Response)
    (adm : Admission) (upstream : Upstream) (a : BufferedResponse) : Prop
    extends AnswerOf W req s r adm upstream a where
  buffered : buffers adm.matched = true
  collected : Collects W adm.matched.middleware.responseBuffering.maxResponseBytes upstream a
  body : r.body = .bytes (clientBody W req adm a)

lemma handle_delivers (hr : Routed s req adm) (hbuffers : buffers adm.matched = true)
    (h : (handle W conn req s).result = .ok r) :
    ∃ upstream a, Delivers W req s r adm upstream a := by
  have hreturns : Returns (fun r _ => ∃ upstream a, Delivers W req s r adm upstream a)
      (handle W conn req) s := by
    refine .bind admitRequest_returns fun adm' s' hadm => ?_
    obtain rfl : adm = adm' := hr.unique hadm.toRouted
    rw [if_pos hbuffers]
    intro r hr'
    obtain ⟨upstream, a, hcollects, hstatus, hheaders, hbody⟩ :=
      serveBuffered_answers hbuffers r hr'
    exact ⟨upstream, a, ⟨hr, hcollects.gives, hstatus, hheaders⟩, hbuffers, hcollects, hbody⟩
  exact hreturns r h

def contentEncoding : Text := "content-encoding"

lemma receivedHeaders_of_buffers (hbuffers : buffers adm.matched = true) :
    receivedHeaders W req adm a = a.headers := by
  rw [receivedHeaders, hbuffers]
  rfl

lemma getAll_contentEncoding (h : Delivers W req s r adm upstream a) :
    r.headers.getAll contentEncoding =
      if Stripped W req adm a contentEncoding then []
      else if compresses W req adm a then [.fromStatic "gzip"]
      else (routeEntry G adm contentEncoding).elim (a.headers.getAll contentEncoding)
        fun v => [v] := by
  have hzip : HeaderMap.lastValue (if compresses W req adm a then gzipWrites else [])
      contentEncoding = if compresses W req adm a then some (.fromStatic "gzip") else none := by
    split <;> rfl
  rw [getAll_of_answer h.toAnswerOf (by decide), hzip,
    lastValue_routeWrites req adm (by decide), ← routeEntry,
    receivedHeaders_of_buffers h.buffered]
  refine if_congr Iff.rfl rfl ?_
  cases compresses W req adm a <;> rfl

lemma of_compressedBody {answer : BufferedResponse} {middleware : EffectiveMiddleware}
    {gzipAccepted : Bool} {zipped : List UInt8}
    (h : compressedBody W answer middleware gzipAccepted = some zipped) :
    gzipAccepted = true ∧ answer.headers.getAll contentEncoding = [] ∧
      W.gzip answer.body = some zipped := by
  rw [compressedBody] at h
  split at h
  · cases h
  · next hpasses =>
    simp only [Bool.or_eq_true, not_or, Bool.not_eq_true, Bool.not_eq_false'] at hpasses
    obtain ⟨⟨⟨⟨-, haccepted⟩, -⟩, hkey⟩, -⟩ := hpasses
    have hnone : ¬ (typedHeaders middleware answer).containsKey contentEncoding = true :=
      Bool.eq_false_iff.mp hkey
    rw [HeaderMap.containsKey_iff, not_not, getAll_typedHeaders (.inl (by decide))] at hnone
    exact ⟨haccepted, hnone, h⟩

lemma exists_compressedBody (hzip : compresses W req adm a = true) :
    compressedBody W (ruledAnswer W req adm a) adm.matched.middleware
      (acceptsGzip G (req.headers.get Header.acceptEncoding)) = some (clientBody W req adm a) := by
  obtain ⟨zipped, hzipped⟩ := Option.isSome_iff_exists.mp (Bool.and_eq_true_iff.mp hzip).2
  rw [clientBody, hzipped, Option.getD_some]

lemma clientBody_of_compresses (hbuffers : buffers adm.matched = true)
    (hzip : compresses W req adm a = true) :
    W.gzip a.body = some (clientBody W req adm a) ∧ a.headers.getAll contentEncoding = [] := by
  obtain ⟨-, hnone, hgzip⟩ := of_compressedBody (exists_compressedBody hzip)
  refine ⟨hgzip, ?_⟩
  rw [ruledAnswer, receivedHeaders_of_buffers hbuffers] at hnone
  cases hroute : HeaderMap.lastValue (routeWrites req adm) contentEncoding with
  | some v =>
    rw [getAll_responseHeaders_of_some req adm _ hroute] at hnone
    cases hnone
  | none => rwa [getAll_responseHeaders_of_none req adm _ (by decide) hroute] at hnone

lemma clientBody_of_not_compresses (hbuffers : buffers adm.matched = true)
    (hzip : ¬ compresses W req adm a = true) : clientBody W req adm a = a.body := by
  rw [compresses, hbuffers, Bool.true_and, Bool.not_eq_true, Option.isSome_eq_false_iff,
    Option.isNone_iff_eq_none] at hzip
  rw [clientBody, hzip, Option.getD_none]

lemma getAll_contentLength_of_compresses (h : Delivers W req s r adm upstream a)
    (hzip : compresses W req adm a = true) : r.headers.getAll Header.contentLength = [] := by
  rw [h.headers, getAll_clientResponseHeaders, if_neg (by decide),
    getAll_unstripped_contentLength hzip, ite_self]

/-! ### Which codings a client accepts -/

def nonzeroWeight : Text → Bool
  | ['1'] => true
  | '1' :: '.' :: digits => decide (digits.length ≤ 3) && digits.all fun c => c == '0'
  | '0' :: '.' :: digits =>
    decide (digits.length ≤ 3) && digits.all Char.isDigit && digits.any fun c => c != '0'
  | _ => false

def nonzeroParameter : Text → Bool
  | 'q' :: '=' :: weight => nonzeroWeight weight
  | 'Q' :: '=' :: weight => nonzeroWeight weight
  | _ => false

def isGzipName (name : Text) : Bool :=
  name.eqIgnoreAsciiCase "gzip" || name.eqIgnoreAsciiCase "x-gzip"

def acceptsCoding (element : Text) : Bool :=
  match Text.splitOnce ';' element with
  | none => isGzipName (Text.trim element)
  | some (name, parameter) =>
    isGzipName (Text.trim name) && nonzeroParameter (Text.trim parameter)

def ListsGzip (req : Request G) : Prop :=
  ∃ v ∈ req.headers.getAll Header.acceptEncoding, ∃ element ∈ (valueChars v).splitOn ',',
    acceptsCoding element = true

instance : Decidable (ListsGzip req) :=
  inferInstanceAs (Decidable (∃ v ∈ req.headers.getAll Header.acceptEncoding,
    ∃ element ∈ (valueChars v).splitOn ',', acceptsCoding element = true))

def PlainGzip (req : Request G) : Prop :=
  ∀ v, req.headers.get Header.acceptEncoding = some v → ∀ element ∈ (valueChars v).splitOn ',',
    (Text.trim element).startsWith "gzip" = true → acceptsCoding element = true

lemma listsGzip_of_acceptsGzip (hplain : PlainGzip req)
    (h : acceptsGzip G (req.headers.get Header.acceptEncoding) = true) : ListsGzip req := by
  rw [acceptsGzip, Option.any_eq_true] at h
  obtain ⟨text, htext, helements⟩ := h
  obtain ⟨v, hv, hstr⟩ := Option.bind_eq_some_iff.mp htext
  obtain ⟨element, helement, hprefix⟩ := List.any_eq_true.mp helements
  obtain rfl : valueChars v = text := by
    rw [Grammar.toStr] at hstr
    split at hstr
    · exact Option.some.inj hstr
    · cases hstr
  exact ⟨v, List.mem_of_mem_head? hv, element, helement, hplain v hv element helement hprefix⟩

/-! ### What a client gets -/

structure Decoder (W : World G) where
  decode : List HeaderValue → List UInt8 → Option (List UInt8)
  plain : ∀ b, decode [] b = some b
  gunzip : ∀ b zipped, W.gzip b = some zipped → decode [.fromStatic "gzip"] zipped = some b

def Decodes (D : Decoder W) (r : Response) (a : BufferedResponse) : Prop :=
  ∃ body, r.body = .bytes body ∧ D.decode (r.headers.getAll contentEncoding) body =
    D.decode (a.headers.getAll contentEncoding) a.body

def EncodingKept (D : Decoder W) (req : Request G) (adm : Admission) (a : BufferedResponse) :
    Prop :=
  if Stripped W req adm a contentEncoding then
    if compresses W req adm a then W.gzip a.body = some a.body
    else D.decode (a.headers.getAll contentEncoding) a.body = some a.body
  else compresses W req adm a = true ∨ ∀ v, routeEntry G adm contentEncoding = some v →
    D.decode [v] a.body = D.decode (a.headers.getAll contentEncoding) a.body

lemma decodes_iff (h : Delivers W req s r adm upstream a) (D : Decoder W) :
    Decodes D r a ↔ EncodingKept D req adm a := by
  have hbody : Decodes D r a ↔
      D.decode (r.headers.getAll contentEncoding) (clientBody W req adm a) =
        D.decode (a.headers.getAll contentEncoding) a.body := by
    rw [Decodes, h.body]
    simp
  rw [hbody, EncodingKept, getAll_contentEncoding h]
  by_cases hzip : compresses W req adm a = true
  · obtain ⟨hgzip, hplain⟩ := clientBody_of_compresses h.buffered hzip
    rw [if_pos hzip, if_pos hzip, hplain, D.plain]
    by_cases hstripped : Stripped W req adm a contentEncoding
    · rw [if_pos hstripped, if_pos hstripped, D.plain, hgzip]
    · rw [if_neg hstripped, if_neg hstripped]
      exact iff_of_true (D.gunzip _ _ hgzip) (.inl hzip)
  · rw [if_neg hzip, if_neg hzip, clientBody_of_not_compresses h.buffered hzip]
    by_cases hstripped : Stripped W req adm a contentEncoding
    · rw [if_pos hstripped, if_pos hstripped, D.plain, eq_comm]
    · rw [if_neg hstripped, if_neg hstripped, or_iff_right hzip]
      cases routeEntry G adm contentEncoding with
      | none => simp
      | some v => simp

/-! ### A coder that marks what it encodes -/

lemma eq_of_collects {status limit : ℕ} {headers : HeaderMap} {frames : List Frame}
    {body : List UInt8}
    (hanswer : ∀ attempt message, W.answer attempt message = .ok (status, headers, frames))
    (hbody : collectBodyWithLimit limit [] frames = .ok body) (h : Collects W limit upstream a) :
    a = ⟨status, headers, body⟩ := by
  obtain ⟨attempt, message, frames', -, hgiven, hcollected⟩ := h
  obtain ⟨astatus, aheaders, abody⟩ := a
  rw [hanswer] at hgiven
  obtain ⟨rfl, rfl, rfl⟩ : status = astatus ∧ headers = aheaders ∧ frames = frames' := by
    simpa using hgiven
  rw [hbody] at hcollected
  rw [Except.ok.inj hcollected]

def markWorld (headers : List (Text × HeaderValue)) : World .http1 :=
  { sampleWorld with
    gzip := fun b => some (31 :: b)
    answer := fun _ _ => .ok (200, ⟨headers⟩, [.data [1, 2]]) }

def markDecoder (headers : List (Text × HeaderValue)) : Decoder (markWorld headers) where
  decode codings b := if codings = [] then some b else some b.tail
  plain b := if_pos rfl
  gunzip b zipped h := by
    obtain rfl : 31 :: b = zipped := Option.some.inj h
    rfl

def zipRules : DomainRules where
  compression := { enabled := true, minBytes := 0 }

def encodedRequest (value : Text) : Request .http1 :=
  rootRequest [("accept-encoding".toList, value)]

def twoByteLength : List (Text × HeaderValue) := [(Header.contentLength, .fromStatic "2")]

end PxxlEdge
