import PxxlEdge.Proxy.Handle

/-!
The observation of requests: whichever way a request ends, it is recorded once.
-/

namespace PxxlEdge

open RustStd Http Handlers

variable {G : Grammar}

def observedDomain (req : Request G) : Text :=
  match canonicalizePath req.uri.path, requestHost req with
  | .ok _, some host => normalizeDomain host
  | _, _ => "unknown"

def Event.recordedDomain : Event G → Option Text
  | .observed o => some o.context.domain
  | _ => none

section Notes

variable {W : World G} {conn : Connection} {req : Request G} {s : EdgeState} {adm : Admission}
  {ctx : ProxyRequestContext}

lemma notes_refuseWith {α : Type} (r : Response) :
    Notes Event.recordedDomain [ctx.domain] [] (refuseWith (α := α) W ctx r) s :=
  .of_answers (.emitBind (by rfl) (.exit _)) (refuseWith_returns _)

lemma notes_refuseDiagnostic {α : Type} {returned : List Text} (status : ℕ)
    (reason : ProxyErrorReason) (upstream : Option Text) :
    Notes Event.recordedDomain [ctx.domain] returned
      (refuseDiagnostic (α := α) W ctx status reason upstream) s := by
  refine .of_answers ?_ (refuseDiagnostic_returns _ _ _)
  rw [refuseDiagnostic, observeRequest]
  exact .emitBind (by rfl) (.bind (diagnosticErrorResponse_composes Notes.composes
    (fun _ _ => .emit rfl) _ _ _ _) fun _ _ => .exit _)

lemma stageProperty_notes :
    StageProperty W ctx (fun _ _ => True)
      fun _ x s => Notes Event.recordedDomain [ctx.domain] [] x s where
  toComposes := Notes.composes
  counters _ := trivial
  refuseWith _ := notes_refuseWith _
  refuseDiagnostic _ := notes_refuseDiagnostic _ _ _

/-! ### Admission -/

lemma notes_readTarget :
    Notes Event.recordedDomain [observedDomain req] [] (readTarget W conn req) s := by
  rw [readTarget]
  cases hpath : canonicalizePath req.uri.path with
  | error e =>
    rw [observedDomain, hpath]
    change Notes _ [(requestContext W conn req "unknown" req.uri.originForm {}).domain] _ _ _
    exact notes_refuseWith _
  | ok path =>
    cases hhost : requestHost req with
    | none =>
      rw [observedDomain, hpath, hhost]
      change Notes _ [(requestContext W conn req "unknown" path
        (requestLocation W conn req)).domain] _ _ _
      exact notes_refuseWith _
    | some host => exact .pure _

lemma observedDomain_eq {host path : Text} (hpath : canonicalizePath req.uri.path = .ok path)
    (hhost : requestHost req = some host) : observedDomain req = normalizeDomain host := by
  rw [observedDomain, hpath, hhost]

lemma notes_admitRequest :
    Notes Event.recordedDomain [observedDomain req] [] (admitRequest W conn req) s := by
  refine admitRequest_composes Notes.composes notes_readTarget (fun host path hpath hhost => ?_)
    (fun adm _ _ _ hr _ => ?_) fun _ _ _ _ _ _ => .emit rfl
  · rw [observedDomain_eq hpath hhost]
    exact stageProperty_notes
  · rw [observedDomain_eq hr.path hr.host]
    change Notes _ [(targetContext W conn req adm.host adm.path).domain] _ _ _
    exact notes_refuseWith _

/-! ### Forwarding -/

lemma notes_bufferRequest :
    Notes Event.recordedDomain [(targetContext W conn req adm.host adm.path).domain] []
      (bufferRequest W conn req adm) s := by
  rw [bufferRequest]
  split
  · exact .pure _
  · exact notes_refuseWith _
  · exact notes_refuseWith _

variable {matched : RouteMatch}

lemma notes_takeUpstream {routeKey : Text} {upstreams : List Upstream} {headers : HeaderMap} :
    Notes Event.recordedDomain [ctx.domain] []
      (takeUpstream W ctx matched routeKey upstreams headers) s :=
  stageProperty_notes.takeUpstream fun _ _ => trivial

lemma notes_acquireInFlight {upstream : Upstream} :
    Notes Event.recordedDomain [ctx.domain] [] (acquireInFlight W ctx matched upstream) s :=
  stageProperty_notes.acquireInFlight fun _ _ => trivial

lemma notes_concludeForward {answered : List Text} {routeKey : Text} {upstream : Upstream}
    {key : Option Text} {status : ℕ} {error : Bool} :
    Notes Event.recordedDomain answered []
      (concludeForward W ctx matched routeKey upstream key status error) s :=
  concludeForward_composes Notes.composes (fun _ _ => trivial) fun _ _ _ => .emit rfl

lemma notes_serveStreaming :
    Notes Event.recordedDomain [normalizeDomain adm.host] [normalizeDomain adm.host]
      (serveStreaming W conn req adm) s := by
  change Notes _ [(targetContext W conn req adm.host adm.path).domain]
    [(targetContext W conn req adm.host adm.path).domain] _ _
  refine .bind (.update _) fun pool _ => .bind notes_takeUpstream fun upstream _ =>
    .bind notes_acquireInFlight fun key _ => .bind (.update _) fun _ _ =>
      .bind (forwardStreaming_composes Notes.composes fun _ _ => .emit rfl) fun answer _ => ?_
  split
  · exact .bind notes_concludeForward fun _ _ => .emitBind (by rfl) (.pure _)
  · exact .bind notes_concludeForward fun _ _ => notes_refuseDiagnostic _ _ _

lemma notes_serveBuffered :
    Notes Event.recordedDomain [normalizeDomain adm.host] [normalizeDomain adm.host]
      (serveBuffered W conn req adm) s := by
  refine .bind notes_bufferRequest fun request _ => ?_
  change Notes _ [(targetContext W conn req adm.host adm.path).domain]
    [(targetContext W conn req adm.host adm.path).domain] _ _
  refine .bind (.update _) fun pool _ => .bind (mirrorRequest_composes Notes.composes
    fun _ _ _ _ => .emit rfl) fun _ _ => .bind notes_takeUpstream fun upstream _ =>
      .bind notes_acquireInFlight fun key _ => .bind (.update _) fun _ _ =>
        .bind (forwardWithRetry_composes Notes.composes fun _ _ _ => .emit rfl) fun answer _ => ?_
  split
  · exact .bind notes_concludeForward fun _ _ => .emitBind (by rfl) (.pure _)
  · exact .bind notes_concludeForward fun _ _ => notes_refuseDiagnostic _ _ _

end Notes

theorem handle_observes_once (W : World G) (conn : Connection) (req : Request G)
    (s : EdgeState) :
    (handle W conn req s).log.filterMap Event.recordedDomain = [observedDomain req] := by
  have hnotes : Notes Event.recordedDomain [observedDomain req] [observedDomain req]
      (handle W conn req) s := by
    refine .bind notes_admitRequest fun adm hadm => ?_
    have hrouted := (admitRequest_returns adm hadm).toRouted
    rw [observedDomain_eq hrouted.path hrouted.host]
    split
    · exact notes_serveBuffered
    · exact notes_serveStreaming
  rw [hnotes.log_eq]
  cases (handle W conn req s).result <;> rfl

/-- In every run each request is recorded once, in order. -/
theorem requests_observed_once (requests : List (World G × Connection × Request G))
    (s : EdgeState) :
    (Run.trace (fun s x => (handle x.1 x.2.1 x.2.2 s).state)
      (fun s x => (handle x.1 x.2.1 x.2.2 s).log) s requests).flatten.filterMap
        Event.recordedDomain = requests.map fun x => observedDomain x.2.2 := by
  induction requests generalizing s with
  | nil => rfl
  | cons x requests ih =>
    rw [Run.trace, List.flatten_cons, List.filterMap_append, ih, handle_observes_once]
    rfl

end PxxlEdge
