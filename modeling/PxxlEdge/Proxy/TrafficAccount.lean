import PxxlEdge.Proxy.StatsCounts
import PxxlEdge.Proxy.StreamedBody

/-!
The bytes that the statistics of a domain add up.

A buffered exchange is recorded with the lengths of its bodies, a streamed one with the lengths
that its headers declare, before its bodies are passed on.
-/

namespace PxxlEdge

open RustStd Http Handlers Run List

/-! ### What is forwarded -/

def Body.forwarded : Body → ℕ
  | .bytes b => b.length
  | .stream frames (some limit) => bodyLength (limitedFrames limit frames)
  | .stream frames none => bodyLength frames
  | _ => 0

section Log

variable {G : Grammar}

def upstreamMessages (log : List (Event G)) : List (Outgoing G) :=
  (sentMessages log).filter (·.destination = .upstream)

def requestBytes (log : List (Event G)) : ℕ :=
  ((upstreamMessages log).map (·.body.forwarded)).sum

def Event.Carries (B : Body → Prop) : Event G → Prop
  | .forwarded o => o.destination = .upstream → B o.body
  | .observed _ => False
  | _ => True

def Sends (B : Body → Prop) {α : Type} (x : ProxyM G α) (s : EdgeState) : Prop :=
  Logs (fun _ l => ∀ e ∈ l, e.Carries B) x s

def Ends (B : Body → Prop) (P : Response → RequestObservation → Prop) (r : Response)
    (log : List (Event G)) : Prop :=
  ∃ l event, log = l ++ [.observed event] ∧ (∀ e ∈ l, e.Carries B) ∧ P r event

variable {B : Body → Prop} {P : Response → RequestObservation → Prop} {s : EdgeState}
  {log : List (Event G)} {r : Response}

lemma observations_append (l l' : List (Event G)) :
    observations (l ++ l') = observations l ++ observations l' := filterMap_append

lemma observations_of_carries (h : ∀ e ∈ log, e.Carries B) : observations log = [] := by
  refine filterMap_eq_nil_iff.mpr fun e he => ?_
  cases e with
  | observed o => exact (h _ he).elim
  | _ => rfl

lemma Ends.spec (h : Ends B P r log) :
    (∃ event, observations log = [event] ∧ P r event) ∧ ∀ o ∈ upstreamMessages log, B o.body := by
  obtain ⟨l, event, rfl, hl, hP⟩ := h
  refine ⟨⟨event, ?_, hP⟩, fun o ho => ?_⟩
  · rw [observations_append, observations_of_carries hl]
    rfl
  · obtain ⟨hsent, hupstream⟩ := mem_filter.mp ho
    have hmem := (mem_append.mp (mem_sentMessages.mp hsent)).resolve_right (by simp)
    exact hl _ hmem (of_decide_eq_true hupstream)

lemma Ends.bindReturns {α : Type} {x : ProxyM G α} {f : α → ProxyM G Response}
    {Q : α → EdgeState → Prop} (hret : Returns Q x s) (hx : Sends B x s)
    (hf : ∀ a s' s'', Q a s' → Logs (Ends B P) (f a) s'') : Logs (Ends B P) (x >>= f) s := by
  have hboth : Logs (fun a l => Q a (x s).state ∧ ∀ e ∈ l, e.Carries B) x s := fun a ha =>
    ⟨hret a ha, hx a ha⟩
  refine .bind hboth fun a l s' hl r hr => ?_
  obtain ⟨l', event, hlog, hl', hP⟩ := hf a _ s' hl.1 r hr
  refine ⟨l ++ l', event, by rw [hlog, append_assoc], fun e he => ?_, hP⟩
  exact (mem_append.mp he).elim (hl.2 e) (hl' e)

lemma Ends.bind {α : Type} {x : ProxyM G α} {f : α → ProxyM G Response} (hx : Sends B x s)
    (hf : ∀ a s', Logs (Ends B P) (f a) s') : Logs (Ends B P) (x >>= f) s :=
  .bindReturns (Q := fun _ _ => True) (fun _ _ => trivial) hx fun a _ s' _ => hf a s'

end Log

/-! ### The two paths -/

section Paths

variable {G : Grammar} {W : World G} {conn : Connection} {req : Request G} {s : EdgeState}
  {adm : Admission} {ctx : ProxyRequestContext} {B : Body → Prop}

lemma sends_composes : Composes (fun _ _ : EdgeState => True) fun _ (x : ProxyM G _) s =>
    Sends B x s where
  bind := by
    intro α β x f s hx hf b hb e he
    change (Handler.bind x f s).result = .ok b at hb
    change e ∈ (Handler.bind x f s).log at he
    rw [Handler.bind] at hb he
    cases hr : (x s).result with
    | error r => simp [hr] at hb
    | ok a =>
      rw [hr] at hb he
      exact (mem_append.mp he).elim (hx a hr e) (hf a hr b hb e)
  pure _ _ := Logs.pure (by simp)
  get _ := by
    rintro _ ⟨⟩ _ ⟨⟩
  update _ _ _ := by
    rintro _ ⟨⟩ _ ⟨⟩

lemma sends_emit {e : Event G} (h : e.Carries B) : Sends B (Handler.emit e) s :=
  Logs.emit fun _ he => mem_singleton.mp he ▸ h

lemma stageProperty_sends : StageProperty W ctx (fun _ _ => True) fun _ (x : ProxyM G _) s =>
    Sends B x s where
  toComposes := sends_composes
  counters _ := trivial
  refuseWith _ := Logs.of_returns (refuseWith_returns _)
  refuseDiagnostic _ := .of_returns (refuseDiagnostic_returns _ _ _)

lemma sends_admitRequest : Sends B (admitRequest W conn req) s := by
  refine admitRequest_composes sends_composes ?_ (fun _ _ _ _ => stageProperty_sends)
    (fun _ _ _ _ _ _ => Logs.of_returns (refuseWith_returns _))
    fun _ _ _ _ _ _ => sends_emit trivial
  rw [readTarget]
  split
  · exact Logs.of_returns (refuseWith_returns _)
  · split
    · exact Logs.of_returns (refuseWith_returns _)
    · exact Logs.pure (by simp)

lemma sends_concludeForward {matched : RouteMatch} {routeKey : Text} {upstream : Upstream}
    {key : Option Text} {status : ℕ} {error : Bool} :
    Sends B (concludeForward W ctx matched routeKey upstream key status error) s :=
  concludeForward_composes sends_composes (fun _ _ => trivial) fun _ _ _ => sends_emit trivial

lemma ends_emit {P : Response → RequestObservation → Prop} {event : RequestObservation}
    {r : Response} (h : P r event) :
    Logs (Ends B P) (Handler.emit (.observed event) >>= fun _ => pure r : ProxyM G Response) s := by
  rintro _ ⟨⟩
  exact ⟨[], _, rfl, by simp, h⟩

variable (G) in
def declaredLength (headers : HeaderMap) : ℕ := (contentLength G headers).getD 0

lemma declaredLength_attachRequestIdHeader (r : Response) :
    declaredLength G (attachRequestIdHeader W r).headers = declaredLength G r.headers := by
  have hget : (insertText G r.headers Header.requestId W.requestId).getAll Header.contentLength =
      r.headers.getAll Header.contentLength := by
    rw [getAll_insertText, if_neg (by decide)]
  rw [declaredLength, contentLength, headerText, HeaderMap.get]
  change ((((insertText G r.headers Header.requestId W.requestId).getAll
    Header.contentLength).head?.bind _).bind _).getD 0 = _
  rw [hget]
  rfl

lemma serveStreaming_ends : Logs (Ends (fun _ => True) fun r event =>
    event.bytesSent = declaredLength G (preparedHeaders W req adm none) ∧
      event.bytesReceived = declaredLength G r.headers) (serveStreaming W conn req adm) s := by
  refine Ends.bind (sends_composes.update _ _ trivial) fun pool _ => ?_
  refine Ends.bind (stageProperty_sends.takeUpstream fun _ _ => trivial) fun upstream _ => ?_
  refine Ends.bind (stageProperty_sends.acquireInFlight fun _ _ => trivial) fun key _ => ?_
  refine Ends.bind (sends_composes.update _ _ trivial) fun _ _ => ?_
  have hsends : ∀ (o : Outgoing G), (Event.forwarded o).Carries fun _ => True := fun _ _ => trivial
  refine Ends.bind (forwardStreaming_composes sends_composes fun o _ =>
    sends_emit (hsends o)) fun result _ => ?_
  split
  · refine Ends.bind sends_concludeForward fun _ _ => ?_
    refine ends_emit ⟨rfl, ?_⟩
    rw [declaredLength_attachRequestIdHeader]
    rfl
  · exact .of_returns (.skip fun _ _ => refuseDiagnostic_returns _ _ _)

lemma length_of_collectBodyWithLimit {maxBytes : ℕ} {collected body : List UInt8}
    {frames : List Frame} (h : collectBodyWithLimit maxBytes collected frames = .ok body) :
    body.length = collected.length + bodyLength frames := by
  induction frames generalizing collected with
  | nil =>
    cases h
    rfl
  | cons frame frames ih =>
    cases frame with
    | data data =>
      rw [collectBodyWithLimit] at h
      split at h
      · cases h
      · rw [ih h, bodyLength, length_append, add_assoc]
    | trailers => exact ih h
    | failed error => cases h

lemma serveBuffered_ends : Logs (Ends (fun body => body.forwarded = bodyLength req.body)
    fun r event => event.bytesSent = bodyLength req.body ∧ event.bytesReceived = r.body.forwarded)
      (serveBuffered W conn req adm) s := by
  refine .bindReturns bufferRequest_returns ?_ fun request _ _ hrequest => ?_
  · rw [bufferRequest]
    split
    · exact Logs.pure (by simp)
    · exact Logs.of_returns (refuseWith_returns _)
    · exact Logs.of_returns (refuseWith_returns _)
  have hlength : request.body.length = bodyLength req.body :=
    (length_of_collectBodyWithLimit hrequest.1).trans (Nat.zero_add _)
  have hsends : ∀ {ctx : ForwardContext} {destination : Destination} (o : Outgoing G) s,
      bufferedMessage W destination ctx request = .ok o → Sends
        (fun body => body.forwarded = bodyLength req.body) (Handler.emit (.forwarded o)) s := by
    intro ctx destination o s ho
    refine sends_emit (e := .forwarded o) fun _ => ?_
    rw [body_of_relayMessage ho]
    exact hlength
  refine Ends.bind (sends_composes.update _ _ trivial) fun pool _ => ?_
  refine Ends.bind (mirrorRequest_composes sends_composes fun _ o s => hsends o s) fun _ _ => ?_
  refine Ends.bind (stageProperty_sends.takeUpstream fun _ _ => trivial) fun upstream _ => ?_
  refine Ends.bind (stageProperty_sends.acquireInFlight fun _ _ => trivial) fun key _ => ?_
  refine Ends.bind (sends_composes.update _ _ trivial) fun _ _ => ?_
  refine Ends.bind (forwardWithRetry_composes sends_composes fun o s => hsends o s)
    fun result _ => ?_
  split
  · refine Ends.bind sends_concludeForward fun _ _ => ?_
    exact ends_emit ⟨hlength, rfl⟩
  · exact .of_returns (.skip fun _ _ => refuseDiagnostic_returns _ _ _)

lemma handle_ends (hr : Routed s req adm) : Logs (Ends
    (fun body => buffers adm.matched = true → body.forwarded = bodyLength req.body)
    fun r event => if buffers adm.matched then
        event.bytesSent = bodyLength req.body ∧ event.bytesReceived = r.body.forwarded
      else event.bytesSent = declaredLength G (preparedHeaders W req adm none) ∧
        event.bytesReceived = declaredLength G r.headers) (handle W conn req) s := by
  refine .bindReturns admitRequest_returns sends_admitRequest fun adm' _ _ hadm => ?_
  obtain rfl : adm = adm' := hr.unique hadm.toRouted
  by_cases hbuffers : buffers adm.matched = true
  · simp only [hbuffers, if_true, true_imp_iff]
    exact serveBuffered_ends
  · simp only [hbuffers, Bool.false_eq_true, if_false, false_imp_iff]
    exact serveStreaming_ends

end Paths

/-! ### Runs -/

structure Exchange (G : Grammar) where
  world : World G
  conn : Connection
  req : Request G
  state : EdgeState
  adm : Admission
  routed : Routed state req adm
  response : Response
  answered : (handle world conn req state).result = .ok response

namespace Exchange

variable {G : Grammar} (x : Exchange G)

def log : List (Event G) := (handle x.world x.conn x.req x.state).log

def Exact : Prop := ∀ event ∈ observations x.log,
  event.bytesSent = requestBytes x.log ∧ event.bytesReceived = x.response.body.forwarded

def Declares : Prop :=
  if buffers x.adm.matched then bodyLength x.req.body = 0 ∨ (upstreamMessages x.log).length = 1
  else declaredLength G (preparedHeaders x.world x.req x.adm none) = requestBytes x.log ∧
    declaredLength G x.response.headers = x.response.body.forwarded

lemma exact_iff : x.Exact ↔ x.Declares := by
  have hends : Ends _ _ x.response x.log := handle_ends x.routed x.response x.answered
  obtain ⟨⟨event, hevent, hP⟩, hbodies⟩ := hends.spec
  rw [Exact, Declares, hevent, forall_mem_singleton]
  split at hP
  · next hbuffers =>
    have hbytes : requestBytes x.log = (upstreamMessages x.log).length * bodyLength x.req.body := by
      rw [requestBytes, map_congr_left fun o ho => hbodies o ho hbuffers, map_const', sum_replicate,
        smul_eq_mul]
    rw [if_pos hbuffers, hP.1, hP.2, hbytes, and_iff_left rfl]
    by_cases hlength : bodyLength x.req.body = 0
    · simp [hlength]
    · rw [eq_comm, mul_eq_right₀ hlength, or_iff_right hlength]
  · next hstreams => rw [if_neg hstreams, hP.1, hP.2]

lemma observations_log :
    ∃ event, observations x.log = [event] ∧ event.context.domain = observedDomain x.req := by
  have honce := handle_observes_once x.world x.conn x.req x.state
  rw [← map_domain_observations, map_eq_singleton_iff] at honce
  exact honce

end Exchange

section Totals

variable {G : Grammar}

def domainTotal (f : Exchange G → ℕ) (domain : Text) (exchanges : List (Exchange G)) : ℕ :=
  ((exchanges.filter fun x => observedDomain x.req = domain).map f).sum

lemma totalBytes_recorded (events : List RequestObservation) :
    (recorded events).totalBytesSent = .ofNat (events.map (·.bytesSent)).sum ∧
      (recorded events).totalBytesReceived = .ofNat (events.map (·.bytesReceived)).sum := by
  induction events using reverseRecOn with
  | nil => exact ⟨rfl, rfl⟩
  | append_singleton events event ih =>
    rw [recorded_concat, map_append, sum_append, map_append, sum_append, UInt64.ofNat_add,
      UInt64.ofNat_add, ← ih.1, ← ih.2]
    exact ⟨rfl, rfl⟩

lemma sum_ofDomain {exchanges : List (Exchange G)} {g : RequestObservation → ℕ}
    {f : Exchange G → ℕ} (h : ∀ x ∈ exchanges, ∀ event ∈ observations x.log, g event = f x)
    (domain : Text) :
    ((ofDomain domain (exchanges.flatMap fun x => observations x.log)).map g).sum =
      domainTotal f domain exchanges := by
  induction exchanges with
  | nil => rfl
  | cons x exchanges ih =>
    obtain ⟨event, hevent, hdomain⟩ := x.observations_log
    have hx := h x mem_cons_self event (by simp [hevent])
    have hrest := ih fun x hx => h x (mem_cons_of_mem _ hx)
    rw [ofDomain] at hrest
    rw [ofDomain, flatMap_cons, hevent, filter_append, map_append, sum_append, hrest, domainTotal,
      domainTotal, filter_cons, filter_cons, filter_nil, hdomain]
    by_cases heq : observedDomain x.req = domain <;> simp [heq, hx]

end Totals

end PxxlEdge
