import PxxlEdge.Proxy.BodyLimit
import PxxlEdge.Proxy.WebsocketUpgrade

/-!
Bodies on the streaming path.

A streamed request and its response are passed on frame by frame, each under the limit that is
meant for buffering.  Only the frames of an upgraded connection have none.
-/

namespace PxxlEdge

open RustStd Http Handlers

/-! ### Frames under a limit -/

def readFrames : List Frame → List Frame
  | [] => []
  | .data data :: frames => .data data :: readFrames frames
  | .trailers :: frames => .trailers :: readFrames frames
  | .failed error :: _ => [.failed error]

inductive Body.Arrives : Body → List Frame → Prop
  | limited (frames : List Frame) (limit : ℕ) :
      Arrives (.stream frames (some limit)) (limitedFrames limit frames)
  | whole (frames : List Frame) : Arrives (.stream frames none) (readFrames frames)

lemma limitedFrames_eq_iff {limit : ℕ} {frames : List Frame} :
    limitedFrames limit frames = readFrames frames ↔ bodyLength frames ≤ limit := by
  induction frames generalizing limit with
  | nil => simp [limitedFrames, readFrames, bodyLength]
  | cons frame frames ih =>
    cases frame with
    | data data =>
      rw [limitedFrames, readFrames, bodyLength]
      split
      · next hexceeds => exact iff_of_false (by simp) (by omega)
      · next hfits =>
        rw [List.cons_inj_right, ih]
        omega
    | trailers => rw [limitedFrames, readFrames, bodyLength, List.cons_inj_right, ih]
    | failed error => simp [limitedFrames, readFrames, bodyLength]

lemma arrives_stream_iff {frames : List Frame} {limit : Option ℕ} :
    Body.Arrives (.stream frames limit) (readFrames frames) ↔
      ∀ bound, limit = some bound → bodyLength frames ≤ bound := by
  cases limit with
  | none => exact iff_of_true (.whole frames) fun _ h => nomatch h
  | some bound =>
    constructor
    · rintro h _ ⟨⟩
      generalize hreceived : readFrames frames = received at h
      cases h
      exact limitedFrames_eq_iff.mp hreceived.symm
    · intro h
      rw [← limitedFrames_eq_iff.mpr (h bound rfl)]
      exact .limited frames bound

/-! ### What is passed on -/

section Passed

variable {G : Grammar} {W : World G} {conn : Connection} {req : Request G} {s : EdgeState}
  {adm : Admission}

lemma body_of_relayMessage {destination : Destination} {ctx : ForwardContext} {method : Text}
    {uri : Uri G} {headers : HeaderMap} {body : Body} {o : Outgoing G}
    (h : relayMessage W destination ctx method uri headers body = .ok o) : o.body = body := by
  rcases relayMessage_cases W ctx uri with ⟨e, he⟩ | ⟨target, written, -, -, hok⟩
  · rw [he] at h
    cases h
  · rw [hok] at h
    obtain rfl := Except.ok.inj h
    rfl

lemma maxBodyBytes_of_streams (hstreams : buffers adm.matched = false) :
    adm.matched.route.rules.maxBodyBytes = none := by
  cases hm : adm.matched.route.rules.maxBodyBytes with
  | none => rfl
  | some m =>
    rw [buffers_of_maxBodyBytes hm] at hstreams
    cases hstreams

def SentBody (body : Body) (e : Event G) : Prop := ∀ o, e = .forwarded o → o.body = body

lemma sentBody_of_bookkeeping {body : Body} {e : Event G} (h : e.Bookkeeping) :
    SentBody body e := by
  rintro o rfl
  exact h.elim

lemma handle_streams_request (hr : Routed s req adm) (hstreams : buffers adm.matched = false)
    {o : Outgoing G} (ho : .forwarded o ∈ (handle W conn req s).log) :
    o.body = .stream req.body (some (bodyLimit adm.matched)) := by
  have hall : AllEvents (SentBody (.stream req.body (some (bodyLimit adm.matched))))
      (handle W conn req) s := by
    refine .bindReturns (admitRequest_events (fun _ => sentBody_of_bookkeeping) ?_)
      admitRequest_returns fun adm' _ hadm => ?_
    · rintro _ _ _ _ _ _ ⟨⟩
    · obtain rfl : adm = adm' := hr.unique hadm.toRouted
      rw [if_neg (by simp [hstreams])]
      refine serveStreaming_events (fun _ => sentBody_of_bookkeeping) fun _ _ hmessage => ?_
      rintro _ ⟨⟩
      exact body_of_relayMessage hmessage
  exact hall _ ho o rfl

variable (G) in
def responseLimit (headers : HeaderMap) (middleware : EffectiveMiddleware) (status : ℕ) :
    Option ℕ :=
  if isWebsocketUpgrade G headers ∧ status = 101 then none
  else some middleware.responseBuffering.maxResponseBytes

def StreamsAnswer (W : World G) (limit : ℕ → Option ℕ) (r : Response) (log : List (Event G)) :
    Prop :=
  ∃ o status headers frames, .forwarded o ∈ log ∧
    W.answer 1 o = .ok (status, headers, frames) ∧ r.body = .stream frames (limit status)

lemma StreamsAnswer.mono {limit : ℕ → Option ℕ} {r r' : Response} {log log' : List (Event G)}
    (h : StreamsAnswer W limit r log) (hbody : r'.body = r.body) (hlog : log ⊆ log') :
    StreamsAnswer W limit r' log' := by
  obtain ⟨o, status, headers, frames, ho, hanswer, hr⟩ := h
  exact ⟨o, status, headers, frames, hlog ho, hanswer, hbody.trans hr⟩

lemma forwardStreaming_logs {ctx : ForwardContext} {req' : Request G} {limit : ℕ} :
    Logs (fun result log => ∀ r, result = .ok r →
        StreamsAnswer W (responseLimit G req'.headers ctx.middleware) r log)
      (forwardStreaming W ctx req' limit) s := by
  rw [forwardStreaming]
  split
  · exact .pure fun r hr => by cases hr
  · next o ho =>
    refine .bind (P := fun _ log => log = [.forwarded o]) (.emit rfl) ?_
    rintro _ _ _ rfl
    split
    · exact .pure fun r hr => by cases hr
    · next status headers frames hanswer =>
      have hsent : Event.forwarded o ∈ [Event.forwarded o] ++ [] := by simp
      split
      · next hup =>
        refine .pure fun r hr => ⟨o, status, headers, frames, hsent, hanswer, ?_⟩
        obtain rfl := Except.ok.inj hr
        rw [responseLimit, if_pos hup]
      · next hup =>
        refine .pure fun r hr => ⟨o, status, headers, frames, hsent, hanswer, ?_⟩
        obtain rfl := Except.ok.inj hr
        rw [responseLimit, if_neg hup]

lemma serveStreaming_logs :
    Logs (StreamsAnswer W (responseLimit G (preparedHeaders W req adm none)
        adm.matched.middleware)) (serveStreaming W conn req adm) s := by
  refine .skip fun pool _ _ => ?_
  refine .skip fun upstream _ _ => ?_
  refine .skip fun key _ _ => ?_
  refine .skip fun _ _ _ => ?_
  refine .bind forwardStreaming_logs fun result log _ hresult => .of_returns ?_
  split
  · next r =>
    refine .skip fun _ _ => .skip fun _ _ => .pure fun log' => ?_
    refine (hresult r rfl).mono rfl fun e he => ?_
    simp only [List.mem_append, he, true_or, or_true]
  · exact .skip fun _ _ => refuseDiagnostic_returns _ _ _

lemma handle_streams_response (hr : Routed s req adm) (hstreams : buffers adm.matched = false)
    {r : Response} (h : (handle W conn req s).result = .ok r) :
    StreamsAnswer W (responseLimit G (preparedHeaders W req adm none) adm.matched.middleware) r
      (handle W conn req s).log := by
  have hlogs : Logs (StreamsAnswer W (responseLimit G (preparedHeaders W req adm none)
      adm.matched.middleware)) (handle W conn req) s := by
    refine .bind (P := fun adm' _ => Routed s req adm')
      (fun adm' hadm => (admitRequest_returns adm' hadm).toRouted) fun adm' log _ hadm => ?_
    obtain rfl : adm = adm' := hr.unique hadm
    rw [if_neg (by simp [hstreams])]
    exact fun r hr => (serveStreaming_logs r hr).mono rfl (by simp)
  exact hlogs r h

end Passed

/-! ### Two bytes -/

def twoByteWorld : World .http1 :=
  { sampleWorld with answer := fun _ _ => .ok (200, ⟨[]⟩, [.data [1, 2]]) }

def oneByteRules : DomainRules where
  requestBuffering := { maxRequestBytes := 1 }
  responseBuffering := { maxResponseBytes := 1 }

end PxxlEdge
