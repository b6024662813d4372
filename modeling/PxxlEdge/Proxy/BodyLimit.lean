import PxxlEdge.Proxy.Handle

/-!
The limit for the bodies of requests.

A declared length is checked with the other rules of a domain.  The body of a route with a limit
is then collected, under the smaller one of this limit and that for buffering.
-/

namespace PxxlEdge

open RustStd Http Handlers List

/-! ### The length of a body -/

def bodyLength : List Frame → ℕ
  | [] => 0
  | .data data :: frames => data.length + bodyLength frames
  | .trailers :: frames => bodyLength frames
  | .failed _ :: _ => 0

lemma collectBodyWithLimit_eq_tooLarge_iff {maxBytes : ℕ} {collected : List UInt8}
    {frames : List Frame} (h : collected.length ≤ maxBytes) :
    collectBodyWithLimit maxBytes collected frames = .error .tooLarge ↔
      maxBytes < collected.length + bodyLength frames := by
  induction frames generalizing collected with
  | nil => simp [collectBodyWithLimit, bodyLength, h]
  | cons frame frames ih =>
    cases frame with
    | data data =>
      rw [collectBodyWithLimit, bodyLength]
      split
      · next hexceeds => exact iff_of_true rfl (by omega)
      · next hfits =>
        rw [ih (by rw [length_append]; omega), length_append, Nat.add_assoc]
    | trailers => exact ih h
    | failed error => simp [collectBodyWithLimit, bodyLength, h]

/-! ### Collecting a body -/

def frameData : Frame → List UInt8
  | .data data => data
  | _ => []

def received (frames : List Frame) : List UInt8 := frames.flatMap frameData

lemma received_concat (frames : List Frame) (frame : Frame) :
    received (frames ++ [frame]) = received frames ++ frameData frame := by
  simp [received]

def Collectable (maxBytes : ℕ) (frames : List Frame) : Prop :=
  (∀ error, .failed error ∉ frames) ∧ (received frames).length ≤ maxBytes

inductive StopsAt (maxBytes : ℕ) (before : List Frame) : Frame → BufferError → Prop
  | failed (error : Text) : StopsAt maxBytes before (.failed error) (.body error)
  | tooLarge {data : List UInt8} (h : maxBytes < (received before).length + data.length) :
      StopsAt maxBytes before (.data data) .tooLarge

lemma collectBodyWithLimit_append (maxBytes : ℕ) (collected : List UInt8)
    (before after : List Frame) :
    collectBodyWithLimit maxBytes collected (before ++ after) =
      (collectBodyWithLimit maxBytes collected before).bind fun held =>
        collectBodyWithLimit maxBytes held after := by
  induction before generalizing collected with
  | nil => rfl
  | cons frame before ih =>
    cases frame with
    | data data =>
      rw [cons_append, collectBodyWithLimit, collectBodyWithLimit]
      split
      · rfl
      · exact ih _
    | trailers => exact ih collected
    | failed error => rfl

lemma collectBodyWithLimit_of_collectable {maxBytes : ℕ} {frames : List Frame}
    (h : Collectable maxBytes frames) :
    collectBodyWithLimit maxBytes [] frames = .ok (received frames) := by
  induction frames using reverseRecOn with
  | nil => rfl
  | append_singleton frames frame ih =>
    obtain ⟨hfails, hlength⟩ := h
    rw [received_concat, length_append] at hlength
    rw [received_concat, collectBodyWithLimit_append,
      ih ⟨fun error hmem => hfails error (mem_append_left _ hmem), by omega⟩]
    cases frame with
    | data data => exact if_neg (not_lt.mpr hlength)
    | trailers => exact congrArg Except.ok (append_nil _).symm
    | failed error => exact absurd mem_concat_self (hfails error)

lemma collectBodyWithLimit_of_stopsAt {maxBytes : ℕ} {before after : List Frame} {frame : Frame}
    {e : BufferError} (hbefore : Collectable maxBytes before)
    (h : StopsAt maxBytes before frame e) :
    collectBodyWithLimit maxBytes [] (before ++ frame :: after) = .error e := by
  rw [collectBodyWithLimit_append, collectBodyWithLimit_of_collectable hbefore]
  cases h with
  | failed error => rfl
  | tooLarge hexceeds => exact if_pos hexceeds

lemma collectable_or_stopsAt (maxBytes : ℕ) (frames : List Frame) :
    Collectable maxBytes frames ∨ ∃ before frame after e, frames = before ++ frame :: after ∧
      Collectable maxBytes before ∧ StopsAt maxBytes before frame e := by
  induction frames using reverseRecOn with
  | nil => exact .inl ⟨by simp, Nat.zero_le _⟩
  | append_singleton frames frame ih =>
    rcases ih with h | ⟨before, frame', after, e, rfl, hbefore, hstops⟩
    · cases frame with
      | data data =>
        by_cases hroom : (received frames).length + data.length ≤ maxBytes
        · exact .inl ⟨by simpa using h.1, by simpa [received_concat, frameData] using hroom⟩
        · exact .inr ⟨frames, _, [], _, rfl, h, .tooLarge (not_le.mp hroom)⟩
      | trailers => exact .inl ⟨by simpa using h.1, by simpa [received_concat, frameData] using h.2⟩
      | failed error => exact .inr ⟨frames, _, [], _, rfl, h, .failed error⟩
    · exact .inr ⟨before, frame', after ++ [frame], e, by simp, hbefore, hstops⟩

/-- **Collecting a body.**  After any number of frames at most `maxBytes` bytes are held.  The
result is the data of all frames exactly if none fails and the data is within the limit, and
otherwise the error of the first frame that fails or exceeds it. -/
theorem collect_body_exact (maxBytes : ℕ) (frames : List Frame) :
    (∀ n held, collectBodyWithLimit maxBytes [] (frames.take n) = .ok held →
        held.length ≤ maxBytes ∧ collectBodyWithLimit maxBytes [] frames =
          collectBodyWithLimit maxBytes held (frames.drop n)) ∧
      (∀ body, collectBodyWithLimit maxBytes [] frames = .ok body ↔
        Collectable maxBytes frames ∧ body = received frames) ∧
      ∀ e, collectBodyWithLimit maxBytes [] frames = .error e ↔
        ∃ before frame after, frames = before ++ frame :: after ∧
          Collectable maxBytes before ∧ StopsAt maxBytes before frame e := by
  have hok : ∀ {frames : List Frame} {body : List UInt8},
      collectBodyWithLimit maxBytes [] frames = .ok body →
        Collectable maxBytes frames ∧ body = received frames := by
    intro frames body hbody
    rcases collectable_or_stopsAt maxBytes frames with h | ⟨_, _, _, _, rfl, hbefore, hstops⟩
    · rw [collectBodyWithLimit_of_collectable h] at hbody
      exact ⟨h, (Except.ok.inj hbody).symm⟩
    · rw [collectBodyWithLimit_of_stopsAt hbefore hstops] at hbody
      cases hbody
  refine ⟨fun n held hheld => ⟨?_, ?_⟩, fun body => ⟨hok, ?_⟩, fun e => ⟨fun herror => ?_, ?_⟩⟩
  · obtain ⟨h, rfl⟩ := hok hheld
    exact h.2
  · conv_lhs => rw [← take_append_drop n frames, collectBodyWithLimit_append, hheld]
    rfl
  · rintro ⟨h, rfl⟩
    exact collectBodyWithLimit_of_collectable h
  · rcases collectable_or_stopsAt maxBytes frames with
      h | ⟨before, frame, after, e', rfl, hbefore, hstops⟩
    · rw [collectBodyWithLimit_of_collectable h] at herror
      cases herror
    · rw [collectBodyWithLimit_of_stopsAt hbefore hstops] at herror
      cases herror
      exact ⟨before, frame, after, rfl, hbefore, hstops⟩
  · rintro ⟨before, frame, after, rfl, hbefore, hstops⟩
    exact collectBodyWithLimit_of_stopsAt hbefore hstops

/-! ### Refusals for the length -/

variable {rules : DomainRules}

section Refusals

variable {G : Grammar} {W : World G} {conn : Connection} {req : Request G} {s : EdgeState}
  {ctx : ProxyRequestContext} {α : Type}

lemma refuseWith_answers {Q : Response → Prop} {r : Response} (h : Q (attachRequestIdHeader W r)) :
    Answers Q (refuseWith (α := α) W ctx r) s :=
  .bind (.emit _) fun _ _ => .exit h

lemma stageProperty_tooLarge {p : Prop} :
    StageProperty W ctx (fun _ _ => True) fun _ x s => Answers (fun r => TooLarge r → p) x s where
  toComposes := Answers.composes
  counters _ := trivial
  refuseWith h := refuseWith_answers fun hlarge => absurd hlarge h
  refuseDiagnostic {_ status _ _ _} h := by
    refine .bind (.emit _) fun _ _ => ?_
    refine .bindReturns (P := fun r _ => TooLarge r → p) ?_ ?_ fun r _ hr => .exit hr
    · exact diagnosticErrorResponse_composes Answers.composes (fun _ _ => .emit _) _ _ _ _
    · exact .skip fun _ _ => .pure fun hlarge => absurd ((tooLarge_errorBody_iff W).mp hlarge).1 h

/-! ### The rules of a domain -/

variable (req) in
def DeclaresTooMuch (rules : DomainRules) : Prop :=
  (rules.maxBodyBytes.any fun limit =>
    (contentLength G req.headers).any fun length => decide (limit < length)) = true

lemma exists_of_firstMet {β : Type} {rows : List (Bool × β)} {b : β}
    (h : firstMet rows = some b) : (true, b) ∈ rows := by
  rw [firstMet, Option.map_eq_some_iff] at h
  obtain ⟨⟨met, b'⟩, hfind, rfl⟩ := h
  obtain rfl : met = true := find?_some hfind
  exact mem_of_find?_eq_some hfind

lemma declaresTooMuch_of_accessChecks {rejection : PolicyRejection}
    (h : (true, rejection) ∈ accessChecks req rules ctx)
    (hmessage : rejection.message = tooLargeMessage) : DeclaresTooMuch req rules := by
  have hrows : ∀ row ∈ accessChecks req rules ctx, row.2.message = tooLargeMessage →
      row.1 = true → DeclaresTooMuch req rules := by
    simp only [accessChecks, forall_mem_cons]
    refine ⟨?_, ?_, ?_, ?_, ?_, ?_, ?_, ?_, ?_, ?_, ?_, ?_, ?_, fun _ h => h, by simp⟩ <;>
      exact fun hsame => absurd hsame (by decide)
  exact hrows _ h hmessage rfl

lemma message_headerChecks {row : Bool × PolicyRejection}
    (h : row ∈ headerChecks req rules) : row.2.message ≠ tooLargeMessage := by
  rw [headerChecks, mem_append, mem_flatMap] at h
  rcases h with h | ⟨required, -, h⟩
  · revert row
    simp only [forall_mem_cons]
    exact ⟨by decide, by decide, by decide, by simp⟩
  · revert row
    simp only [forall_mem_cons]
    exact ⟨by decide, by decide, by simp⟩

lemma declaresTooMuch_of_evaluate {policy : PolicyEnforcer}
    {rejection : PolicyRejection} (h : (policy.evaluate W req rules ctx).1 = some rejection)
    (hmessage : rejection.message = tooLargeMessage) : DeclaresTooMuch req rules := by
  have hpreflight : PolicyEnforcer.evaluate.preflight req rules ≠ some rejection := by
    rw [PolicyEnforcer.evaluate.preflight]
    split
    · rintro ⟨⟩
      exact absurd hmessage (by decide)
    · rintro ⟨⟩
  rw [PolicyEnforcer.evaluate] at h
  split at h
  · next haccess =>
    obtain rfl := Option.some.inj h
    exact declaresTooMuch_of_accessChecks (exists_of_firstMet haccess) hmessage
  · split at h
    · obtain rfl := Option.some.inj h
      exact absurd hmessage (show "request blocked by waf rules".toList ≠ _ by decide)
    · split at h
      · next hheader =>
        obtain rfl := Option.some.inj h
        exact absurd hmessage (message_headerChecks (exists_of_firstMet hheader))
      · split at h
        · exact absurd h hpreflight
        · split at h
          · obtain rfl := Option.some.inj h
            exact absurd hmessage (show "rate limited by domain rules".toList ≠ _ by decide)
          · exact absurd h hpreflight

variable (req) in
lemma tooLarge_rejectionResponse (rules : DomainRules) {rejection : PolicyRejection}
    (h : TooLarge (rejectionResponse W req ctx rules rejection)) :
    rejection.message = tooLargeMessage := by
  obtain ⟨status, message, reason, retryAfter, location⟩ := rejection
  -- the headers that are added do not matter
  have hplain : TooLarge (if status = 204 then
      responseWithBody status "text/plain; charset=utf-8" (.text [])
      else errorResponse W status message ctx.domain ctx.path) := by
    cases retryAfter <;> cases location <;> exact h
  split at hplain
  · exact absurd hplain.2 (show some ([] : Text) ≠ some tooLargeMessage by decide)
  · exact ((tooLarge_errorBody_iff W).mp hplain).2

lemma readTarget_answers {p : Prop} :
    Answers (fun r => TooLarge r → p) (readTarget W conn req) s := by
  rw [readTarget]
  split
  · exact stageProperty_tooLarge.refuse (by decide)
  · split
    · exact stageProperty_tooLarge.refuse (by decide)
    · exact .pure _

lemma admitRequest_answers {adm : Admission} (hr : Routed s req adm) :
    Answers (fun r => TooLarge r → DeclaresTooMuch req adm.matched.route.rules)
      (admitRequest W conn req) s := by
  refine admitRequest_composes Answers.composes readTarget_answers
    (fun _ _ _ _ => stageProperty_tooLarge) (fun adm' policy rejection s' hr' hrejection => ?_)
    fun _ _ _ _ _ _ => .emit _
  obtain rfl : adm = adm' := hr.unique hr'
  refine refuseWith_answers fun hlarge => ?_
  have hmessage := tooLarge_rejectionResponse req adm.matched.route.rules hlarge
  exact declaresTooMuch_of_evaluate hrejection hmessage

end Refusals

/-! ### The limit of a route -/

section Limit

variable {G : Grammar} {W : World G} {conn : Connection} {req : Request G} {s : EdgeState}
  {adm : Admission}

variable (W conn req s) in
def RefusedTooLarge : Prop := ∃ r, (handle W conn req s).result = .error r ∧ TooLarge r

variable (W conn req s) in
def RefusedBefore : Prop := ∃ r, (admitRequest W conn req s).result = .error r ∧ ¬ TooLarge r

lemma not_refusedBefore (h : (admitRequest W conn req s).result.isOk = true) :
    ¬ RefusedBefore W conn req s := by
  rintro ⟨r, hr, -⟩
  rw [hr] at h
  cases h

variable (req) in
def requestLength : ℕ := (contentLength G req.headers).getD (bodyLength req.body)

lemma bufferRequest_tooLarge_iff :
    (∃ r, (bufferRequest W conn req adm s).result = .error r ∧ TooLarge r) ↔
      bodyLimit adm.matched < bodyLength req.body := by
  have hcollect : collectBodyWithLimit (bodyLimit adm.matched) [] req.body = .error .tooLarge ↔
      bodyLimit adm.matched < bodyLength req.body := by
    rw [collectBodyWithLimit_eq_tooLarge_iff (Nat.zero_le _), length_nil, Nat.zero_add]
  rw [← hcollect, bufferRequest, fromRequest_prepareRequest]
  cases collectBodyWithLimit (bodyLimit adm.matched) [] req.body with
  | error e =>
    cases e with
    | tooLarge => exact iff_of_true ⟨_, rfl, (tooLarge_errorBody_iff W).mpr ⟨rfl, rfl⟩⟩ rfl
    | body error =>
      refine iff_of_false ?_ (by simp)
      rintro ⟨r, hr, hlarge⟩
      exact stageProperty_tooLarge.refuse (by decide) r hr hlarge
  | ok body =>
    refine iff_of_false ?_ (by simp)
    rintro ⟨r, ⟨⟩, -⟩

variable (W conn) in
lemma serveBuffered_tooLarge_iff :
    (∃ r, (serveBuffered W conn req adm s).result = .error r ∧ TooLarge r) ↔
      bodyLimit adm.matched < bodyLength req.body := by
  constructor
  · have hanswers : Answers (fun r => TooLarge r → bodyLimit adm.matched < bodyLength req.body)
        (serveBuffered W conn req adm) s := by
      refine .bind (fun r hr hlarge => bufferRequest_tooLarge_iff.mp ⟨r, hr, hlarge⟩) ?_
      intro request _
      -- what comes after the body was read refuses nothing as too large
      refine .bind (.update _) fun pool _ => ?_
      refine .bind (mirrorRequest_composes Answers.composes fun _ _ _ _ => .emit _) fun _ _ => ?_
      refine .bind (stageProperty_tooLarge.takeUpstream fun _ _ => trivial) fun upstream _ => ?_
      refine .bind (stageProperty_tooLarge.acquireInFlight fun _ _ => trivial) fun key _ => ?_
      refine .bind (.update _) fun _ _ => ?_
      refine .bind (forwardWithRetry_composes Answers.composes fun _ _ _ => .emit _)
        fun result _ => ?_
      split
      · exact .bind (concludeForward_composes Answers.composes (fun _ _ => trivial)
          fun _ _ _ => .emit _) fun _ _ => .bind (.emit _) fun _ _ => .pure _
      · exact .bind (concludeForward_composes Answers.composes (fun _ _ => trivial)
          fun _ _ _ => .emit _) fun _ _ => stageProperty_tooLarge.refuseDiagnostic (by decide)
    rintro ⟨r, hr, hlarge⟩
    exact hanswers r hr hlarge
  · intro hexceeds
    obtain ⟨r, hr, hlarge⟩ := bufferRequest_tooLarge_iff.mpr hexceeds
    exact ⟨r, result_bind_of_error hr _, hlarge⟩

variable {m : ℕ}

lemma buffers_of_maxBodyBytes (hm : adm.matched.route.rules.maxBodyBytes = some m) :
    buffers adm.matched = true := by
  rw [buffers, requiresBufferedForwarding, hm]
  rfl

lemma bodyLimit_of_maxBodyBytes (hm : adm.matched.route.rules.maxBodyBytes = some m) :
    bodyLimit adm.matched = min m adm.matched.middleware.requestBuffering.maxRequestBytes := by
  rw [bodyLimit, requestBodyLimit, hm, Option.getD_some]

lemma declaresTooMuch_iff :
    DeclaresTooMuch req rules ↔ ∃ limit length, rules.maxBodyBytes = some limit ∧
      contentLength G req.headers = some length ∧ limit < length := by
  simp [DeclaresTooMuch, Option.any_eq_true]

lemma Admitted.not_declaresTooMuch (h : Admitted W conn req s adm) :
    ¬ DeclaresTooMuch req adm.matched.route.rules := by
  rw [declaresTooMuch_iff]
  rintro ⟨limit, length, hlimit, hlength, hexceeds⟩
  exact absurd (h.rules.bodyLength limit length hlimit hlength) (not_le.mpr hexceeds)

lemma refusedTooLarge_iff (hr : Routed s req adm)
    (hm : adm.matched.route.rules.maxBodyBytes = some m) :
    RefusedTooLarge W conn req s ↔ ¬ RefusedBefore W conn req s ∧
      (DeclaresTooMuch req adm.matched.route.rules ∨
        bodyLimit adm.matched < bodyLength req.body) := by
  cases hadmission : (admitRequest W conn req s).result with
  | error r =>
    have hresult : (handle W conn req s).result = .error r := result_bind_of_error hadmission _
    rw [RefusedTooLarge, RefusedBefore, hresult, hadmission]
    by_cases hlarge : TooLarge r
    · refine iff_of_true ⟨r, rfl, hlarge⟩ ⟨?_, .inl (admitRequest_answers hr r hadmission hlarge)⟩
      rintro ⟨_, ⟨⟩, hnot⟩
      exact hnot hlarge
    · refine iff_of_false ?_ fun h => h.1 ⟨r, rfl, hlarge⟩
      rintro ⟨_, ⟨⟩, hyes⟩
      exact hlarge hyes
  | ok adm' =>
    have hadmitted : Admitted W conn req s adm' := admitRequest_returns adm' hadmission
    obtain rfl : adm = adm' := hr.unique hadmitted.toRouted
    have hresult := Passes.result_bind ⟨hadmission, rfl⟩ fun adm =>
      if buffers adm.matched then serveBuffered W conn req adm else serveStreaming W conn req adm
    rw [if_pos (buffers_of_maxBodyBytes hm)] at hresult
    rw [and_iff_right (not_refusedBefore (by rw [hadmission]; rfl)),
      or_iff_right hadmitted.not_declaresTooMuch, ← serveBuffered_tooLarge_iff W conn, ← hresult]
    rfl

lemma exceeds_iff (hm : adm.matched.route.rules.maxBodyBytes = some m)
    (hdeclared : ∀ n, contentLength G req.headers = some n → bodyLength req.body ≤ n) :
    DeclaresTooMuch req adm.matched.route.rules ∨ bodyLimit adm.matched < bodyLength req.body ↔
      m < requestLength req ∨
        adm.matched.middleware.requestBuffering.maxRequestBytes < bodyLength req.body := by
  rw [declaresTooMuch_iff, hm, bodyLimit_of_maxBodyBytes hm, requestLength]
  cases hlength : contentLength G req.headers with
  | none =>
    rw [Option.getD_none, min_lt_iff]
    simp
  | some n =>
    have hbody := hdeclared n hlength
    rw [Option.getD_some, min_lt_iff]
    simp only [Option.some.injEq, exists_and_left, exists_eq_left']
    omega

variable (W conn) in
/-- **The limit of a route for bodies.**  Unless another check refuses it before, a request is
refused as too large exactly when it exceeds the limit of its route, up to the limit for
buffering; and no byte of a refused body is sent. -/
theorem body_limit_exact_iff (hr : Routed s req adm) {m : ℕ}
    (hm : adm.matched.route.rules.maxBodyBytes = some m)
    (hdeclared : ∀ n, contentLength G req.headers = some n → bodyLength req.body ≤ n) :
    ((RefusedTooLarge W conn req s ↔ ¬ RefusedBefore W conn req s ∧ m < requestLength req) ↔
      RefusedBefore W conn req s ∨ m < requestLength req ∨
        bodyLength req.body ≤ adm.matched.middleware.requestBuffering.maxRequestBytes) ∧
    (RefusedTooLarge W conn req s → ∀ o, .forwarded o ∉ (handle W conn req s).log) := by
  constructor
  · rw [refusedTooLarge_iff hr hm, exceeds_iff hm hdeclared, ← not_lt]
    tauto
  · intro hrefused o ho
    obtain ⟨upstream, hsent⟩ := handle_sends_routed hr ho
    obtain ⟨-, hmuch⟩ := (refusedTooLarge_iff hr hm).mp hrefused
    have hexceeds := hmuch.resolve_left hsent.admitted.not_declaresTooMuch
    have hbuffered := hsent.buffered
    rw [forwardedBody, buffers_of_maxBodyBytes hm, if_pos rfl,
      (collectBodyWithLimit_eq_tooLarge_iff (Nat.zero_le _)).mpr (by simpa using hexceeds)]
      at hbuffered
    cases hbuffered

end Limit

/-! ### Two limits -/

def chunkedRequest (frames : List Frame) : Request .http1 := { rootRequest [] with body := frames }

lemma routed_chunkedRequest (rules : DomainRules) (frames : List Frame) :
    Routed (sampleState rules []) (chunkedRequest frames) ⟨"a.io", "/", sampleMatch rules []⟩ :=
  have hr := routed_sample rules [] []
  ⟨hr.path, hr.host, hr.matched⟩

def threeBytes : Request .http1 := chunkedRequest [.data [1, 2], .trailers, .data [3]]

/-- They exceed a limit of two bytes. -/
theorem body_limit_exact_chunked :
    RefusedTooLarge sampleWorld sampleConnection threeBytes
        (sampleState { maxBodyBytes := some 2 } []) ∧
      ∀ o, .forwarded o ∉ (handle sampleWorld sampleConnection threeBytes
        (sampleState { maxBodyBytes := some 2 } [])).log := by
  have hlength : contentLength .http1 threeBytes.headers = none := by decide
  have hbefore : ¬ RefusedBefore sampleWorld sampleConnection threeBytes
      (sampleState { maxBodyBytes := some 2 } []) :=
    not_refusedBefore (by decide +kernel)
  have hrouted : Routed (sampleState { maxBodyBytes := some 2 } []) threeBytes _ :=
    routed_chunkedRequest { maxBodyBytes := some 2 } _
  obtain ⟨hexact, hunsent⟩ := body_limit_exact_iff sampleWorld sampleConnection hrouted (m := 2)
    (by decide) (by simp [hlength])
  have hlong : 2 < requestLength threeBytes := by decide
  have hrefused := (hexact.mpr (.inr (.inl hlong))).mpr ⟨hbefore, hlong⟩
  exact ⟨hrefused, hunsent hrefused⟩

def tightRules : DomainRules where
  maxBodyBytes := some 2
  requestBuffering := { maxRequestBytes := 1 }

/-- Two bytes are within the limit of this route, and are refused as too large. -/
theorem body_within_limit_refused :
    requestLength (chunkedRequest [.data [1, 2]]) = 2 ∧
      RefusedTooLarge sampleWorld sampleConnection (chunkedRequest [.data [1, 2]])
        (sampleState tightRules []) := by
  refine ⟨by decide +kernel, (refusedTooLarge_iff (routed_chunkedRequest tightRules _)
    (m := 2) (by decide +kernel)).mpr ⟨not_refusedBefore (by decide +kernel), .inr ?_⟩⟩
  decide +kernel

end PxxlEdge
