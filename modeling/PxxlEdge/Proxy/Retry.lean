import PxxlEdge.Proxy.Handle

/-!
Repeated attempts.  A buffered request is sent again after an error, and after an
answer with one of the statuses of the retry setting; an empty list of statuses
stands for all of them.  The list is empty when the setting was decoded from JSON
without one, while the default of the setting has three server errors.
-/

namespace PxxlEdge

open RustStd Http Handlers

/-! ### Decoding -/

structure RetryConfigJson where
  enabled : Option Bool := none
  attempts : Option ℕ := none
  backoffMs : Option ℕ := none
  retryStatuses : Option (List ℕ) := none

def RetryConfig.decode (json : RetryConfigJson) : RetryConfig where
  enabled := json.enabled.getD false
  attempts := json.attempts.getD 2
  backoffMs := json.backoffMs.getD 50
  retryStatuses := json.retryStatuses.getD []

/-! ### Attempts -/

def attemptsMade (again : ℕ → Bool) : (further attempt : ℕ) → ℕ
  | 0, _ => 1
  | further + 1, attempt =>
    if again attempt then attemptsMade again further (attempt + 1) + 1 else 1

lemma attempt_made_iff {again : ℕ → Bool} {further attempt k : ℕ} :
    k < attemptsMade again further attempt ↔
      k ≤ further ∧ ∀ j < k, again (attempt + j) = true := by
  induction further generalizing attempt k with
  | zero =>
    rw [attemptsMade, Nat.lt_one_iff, Nat.le_zero]
    constructor
    · rintro rfl
      exact ⟨rfl, by simp⟩
    · exact fun h => h.1
  | succ further ih =>
    cases k with
    | zero =>
      have hpos : 0 < attemptsMade again (further + 1) attempt := by
        rw [attemptsMade]
        split <;> omega
      simp [hpos]
    | succ k =>
      rw [attemptsMade]
      split
      · next hagain =>
        rw [Nat.add_lt_add_iff_right, ih, Nat.add_le_add_iff_right]
        refine and_congr_right fun _ => ?_
        constructor
        · intro h j hj
          cases j with
          | zero => exact hagain
          | succ j => simpa [Nat.add_assoc, Nat.add_comm 1 j] using h j (by omega)
        · intro h j hj
          simpa [Nat.add_assoc, Nat.add_comm 1 j] using h (j + 1) (by omega)
      · next hagain =>
        refine iff_of_false (by omega) fun h => hagain ?_
        simpa using h.2 0 k.succ_pos

section Loop

variable {G : Grammar} (W : World G) (ctx : ForwardContext) (req : BufferedRequest G)

def attemptOutcome (attempt : ℕ) : Except PxxlError BufferedResponse := do
  let message ← bufferedMessage W .upstream ctx req
  let (status, headers, frames) ← W.answer attempt message
  match collectBodyWithLimit ctx.middleware.responseBuffering.maxResponseBytes [] frames with
  | .error _ => .error (.invalidUpstream ctx.upstream.url)
  | .ok body => return ⟨status, headers, body⟩

def attemptMessages (count : ℕ) : List (Event G) :=
  match bufferedMessage W .upstream ctx req with
  | .error _ => []
  | .ok message => List.replicate count (.forwarded message)

def repeated (retry : RetryConfig) : Except PxxlError BufferedResponse → Bool
  | .ok response => retryableStatus response.status retry
  | .error _ => true

def furtherAttempts (retry : RetryConfig) : ℕ :=
  (if retry.enabled then max retry.attempts 1 else 1) - 1

variable {W ctx req}

lemma forwardBuffered_eq (attempt : ℕ) (s : EdgeState) :
    forwardBuffered W .upstream ctx req attempt s =
      ⟨.ok (attemptOutcome W ctx req attempt), s, attemptMessages W ctx req 1⟩ := by
  rw [forwardBuffered, attemptOutcome, attemptMessages]
  cases hmessage : bufferedMessage W .upstream ctx req with
  | error e => rfl
  | ok message =>
    dsimp only
    cases hanswer : W.answer attempt message with
    | error e => simp [bind, Except.bind, Handler.bind, Handler.emit, hanswer, pure, Handler.ret]
    | ok answer =>
      obtain ⟨status, headers, frames⟩ := answer
      cases hbody : collectBodyWithLimit ctx.middleware.responseBuffering.maxResponseBytes []
          frames <;>
        simp [bind, Except.bind, Handler.bind, Handler.emit, hanswer, hbody, pure,
          Handler.ret, Except.pure]

lemma attemptMessages_succ (count : ℕ) :
    attemptMessages W ctx req (count + 1) =
      attemptMessages W ctx req 1 ++ attemptMessages W ctx req count := by
  rw [attemptMessages, attemptMessages, attemptMessages]
  cases bufferedMessage W .upstream ctx req <;> rfl

lemma retryLoop_of_not_repeated {further attempt : ℕ} (s : EdgeState)
    (h : repeated ctx.middleware.retry (attemptOutcome W ctx req attempt) = false) :
    retryLoop W ctx req (further + 1) attempt s =
      ⟨.ok (attemptOutcome W ctx req attempt), s, attemptMessages W ctx req 1⟩ := by
  rw [retryLoop]
  change Handler.bind _ _ s = _
  rw [Handler.bind, forwardBuffered_eq]
  dsimp only
  cases houtcome : attemptOutcome W ctx req attempt with
  | error e => simp [houtcome, repeated] at h
  | ok response =>
    rw [houtcome, repeated] at h
    simp [h, pure, Handler.ret]

lemma retryLoop_of_repeated {further attempt : ℕ} (s : EdgeState)
    (h : repeated ctx.middleware.retry (attemptOutcome W ctx req attempt) = true) :
    retryLoop W ctx req (further + 1) attempt s =
      ⟨(retryLoop W ctx req further (attempt + 1) s).result,
        (retryLoop W ctx req further (attempt + 1) s).state,
        attemptMessages W ctx req 1 ++ (retryLoop W ctx req further (attempt + 1) s).log⟩ := by
  rw [retryLoop]
  change Handler.bind _ _ s = _
  rw [Handler.bind, forwardBuffered_eq]
  dsimp only
  cases houtcome : attemptOutcome W ctx req attempt with
  | error e => rfl
  | ok response =>
    rw [houtcome, repeated] at h
    simp [h]

lemma retryLoop_eq (further attempt : ℕ) (s : EdgeState) :
    let made := attemptsMade
      (fun k => repeated ctx.middleware.retry (attemptOutcome W ctx req k)) further attempt
    retryLoop W ctx req further attempt s =
      ⟨.ok (attemptOutcome W ctx req (attempt + made - 1)), s,
        attemptMessages W ctx req made⟩ := by
  induction further generalizing attempt with
  | zero => exact forwardBuffered_eq attempt s
  | succ further ih =>
    dsimp only at ih ⊢
    rw [attemptsMade]
    split
    · next h =>
      rw [retryLoop_of_repeated s h, ih]
      dsimp only
      rw [← attemptMessages_succ, Nat.add_right_comm attempt 1, Nat.add_assoc]
    · next h => rw [retryLoop_of_not_repeated s (Bool.eq_false_iff.2 h), Nat.add_sub_cancel]

def attemptCount (W : World G) (ctx : ForwardContext) (req : BufferedRequest G) : ℕ :=
  attemptsMade (fun k => repeated ctx.middleware.retry (attemptOutcome W ctx req k))
    (furtherAttempts ctx.middleware.retry) 1

lemma forwardWithRetry_eq (s : EdgeState) :
    forwardWithRetry W ctx req s =
      ⟨.ok (attemptOutcome W ctx req (attemptCount W ctx req)), s,
        attemptMessages W ctx req (attemptCount W ctx req)⟩ := by
  have hloop : forwardWithRetry W ctx req s =
      ⟨.ok (attemptOutcome W ctx req (1 + attemptCount W ctx req - 1)), s,
        attemptMessages W ctx req (attemptCount W ctx req)⟩ :=
    retryLoop_eq (furtherAttempts ctx.middleware.retry) 1 s
  rwa [Nat.add_sub_cancel_left] at hloop

lemma lt_attemptCount_iff {k : ℕ} :
    k < attemptCount W ctx req ↔ k ≤ furtherAttempts ctx.middleware.retry ∧
      ∀ j, 0 < j → j ≤ k →
        repeated ctx.middleware.retry (attemptOutcome W ctx req j) = true := by
  rw [attemptCount, attempt_made_iff]
  refine and_congr_right fun _ =>
    ⟨fun h j hj hjk => ?_, fun h j hj => h (1 + j) (by omega) (by omega)⟩
  simpa [Nat.add_sub_cancel' hj] using h (j - 1) (by omega)

/-! ### What is sent again -/

def sends (W : World G) (ctx : ForwardContext) (req : BufferedRequest G) (s : EdgeState) : ℕ :=
  (sentMessages (forwardWithRetry W ctx req s).log).length

def IsServerError (status : ℕ) : Prop := 500 ≤ status ∧ status < 600

def IsSuccess (status : ℕ) : Prop := 200 ≤ status ∧ status < 300

def MayRepeat (retry : RetryConfig) : Except PxxlError BufferedResponse → Prop
  | .error _ => True
  | .ok response => IsServerError response.status ∨ response.status ∈ retry.retryStatuses

structure RetriesSafely (W : World G) (ctx : ForwardContext) (req : BufferedRequest G)
    (s : EdgeState) : Prop where
  resent : ∀ k, 0 < k → k < sends W ctx req s →
    MayRepeat ctx.middleware.retry (attemptOutcome W ctx req k)
  success : ∀ response, attemptOutcome W ctx req 1 = .ok response → IsSuccess response.status →
    sends W ctx req s = 1 ∧ (forwardWithRetry W ctx req s).result = .ok (.ok response)

def ListHarmless (W : World G) (ctx : ForwardContext) (req : BufferedRequest G) : Prop :=
  if ctx.middleware.retry.retryStatuses = [] then
    ∀ k, 0 < k → k < ctx.middleware.retry.attempts →
      ∀ response, attemptOutcome W ctx req k = .ok response → IsServerError response.status
  else
    ∀ response, attemptOutcome W ctx req 1 = .ok response → IsSuccess response.status →
      response.status ∉ ctx.middleware.retry.retryStatuses

lemma sends_eq (s : EdgeState) :
    sends W ctx req s =
      (sentMessages (attemptMessages W ctx req (attemptCount W ctx req))).length := by
  rw [sends, forwardWithRetry_eq]

lemma sends_le_attemptCount (s : EdgeState) : sends W ctx req s ≤ attemptCount W ctx req := by
  rw [sends_eq, attemptMessages, sentMessages]
  cases bufferedMessage W .upstream ctx req with
  | error e => simp
  | ok message => simp

lemma sends_of_answered {k : ℕ} {response : BufferedResponse}
    (h : attemptOutcome W ctx req k = .ok response) (s : EdgeState) :
    sends W ctx req s = attemptCount W ctx req := by
  rw [sends_eq, attemptMessages, sentMessages]
  cases hmessage : bufferedMessage W .upstream ctx req with
  | error e => simp [attemptOutcome, hmessage, bind, Except.bind] at h
  | ok message => simp

end Loop

section Safety

variable {G : Grammar} {W : World G} {ctx : ForwardContext} {req : BufferedRequest G}

lemma repeated_ok_iff {retry : RetryConfig} {response : BufferedResponse} :
    repeated retry (.ok response) = true ↔
      retry.enabled = true ∧
        (retry.retryStatuses = [] ∨ response.status ∈ retry.retryStatuses) := by
  simp [repeated, retryableStatus]

lemma furtherAttempts_eq_zero_iff {retry : RetryConfig} :
    furtherAttempts retry = 0 ↔ retry.enabled = false ∨ retry.attempts ≤ 1 := by
  rw [furtherAttempts]
  cases retry.enabled with
  | false => simp
  | true =>
    simp only [if_true, Bool.true_eq_false, false_or]
    omega

lemma sent_once (s : EdgeState) {response : BufferedResponse}
    (h : attemptOutcome W ctx req 1 = .ok response)
    (hlast : ¬ 1 < attemptCount W ctx req) :
    sends W ctx req s = 1 ∧ (forwardWithRetry W ctx req s).result = .ok (.ok response) := by
  have hpos : 0 < attemptCount W ctx req :=
    lt_attemptCount_iff.2 ⟨Nat.zero_le _, fun j hj hj0 => absurd hj0 (by omega)⟩
  have hone : attemptCount W ctx req = 1 := by omega
  exact ⟨by rw [sends_of_answered h, hone], by rw [forwardWithRetry_eq, hone, h]⟩

lemma lt_attemptCount_of_nil {k : ℕ} (henabled : ctx.middleware.retry.enabled = true)
    (hnil : ctx.middleware.retry.retryStatuses = []) (hk : k < ctx.middleware.retry.attempts) :
    k < attemptCount W ctx req := by
  refine lt_attemptCount_iff.2 ⟨?_, fun j _ _ => ?_⟩
  · rw [furtherAttempts, if_pos henabled]
    omega
  · cases attemptOutcome W ctx req j with
    | error e => rfl
    | ok response => exact repeated_ok_iff.2 ⟨henabled, .inl hnil⟩

lemma lt_attempts_of_lt_attemptCount {k : ℕ} (henabled : ctx.middleware.retry.enabled = true)
    (hpos : 0 < k) (hk : k < attemptCount W ctx req) : k < ctx.middleware.retry.attempts := by
  have hle := (lt_attemptCount_iff.1 hk).1
  rw [furtherAttempts, if_pos henabled] at hle
  omega

lemma retriesSafely_of_single (s : EdgeState)
    (hsingle : furtherAttempts ctx.middleware.retry = 0) : RetriesSafely W ctx req s := by
  have hlast : ∀ k, 0 < k → ¬ k < attemptCount W ctx req := by
    intro k hk hlt
    have hle := (lt_attemptCount_iff.1 hlt).1
    omega
  constructor
  · intro k hpos hk
    exact absurd (hk.trans_le (sends_le_attemptCount s)) (hlast k hpos)
  · intro response houtcome _
    exact sent_once s houtcome (hlast 1 Nat.one_pos)

lemma retriesSafely_of_nil (s : EdgeState) (henabled : ctx.middleware.retry.enabled = true)
    (hattempts : 1 < ctx.middleware.retry.attempts)
    (hfail : ∀ k, 0 < k → k < ctx.middleware.retry.attempts →
      ∀ response, attemptOutcome W ctx req k = .ok response → IsServerError response.status) :
    RetriesSafely W ctx req s := by
  constructor
  · intro k hpos hk
    have hlt := lt_attempts_of_lt_attemptCount henabled hpos
      (hk.trans_le (sends_le_attemptCount s))
    cases houtcome : attemptOutcome W ctx req k with
    | error e => trivial
    | ok response => exact .inl (hfail k hpos hlt response houtcome)
  · intro response houtcome hsuccess
    have herror := hfail 1 Nat.one_pos hattempts response houtcome
    rw [IsServerError] at herror
    rw [IsSuccess] at hsuccess
    omega

lemma retriesSafely_of_ne_nil (s : EdgeState) (hne : ctx.middleware.retry.retryStatuses ≠ [])
    (hfirst : ∀ response, attemptOutcome W ctx req 1 = .ok response →
      IsSuccess response.status → response.status ∉ ctx.middleware.retry.retryStatuses) :
    RetriesSafely W ctx req s := by
  have hnamed : ∀ k, 0 < k → k < attemptCount W ctx req →
      ∀ response, attemptOutcome W ctx req k = .ok response →
        response.status ∈ ctx.middleware.retry.retryStatuses := by
    intro k hpos hk response houtcome
    have hrepeated := (lt_attemptCount_iff.1 hk).2 k hpos le_rfl
    rw [houtcome, repeated_ok_iff] at hrepeated
    exact hrepeated.2.resolve_left hne
  constructor
  · intro k hpos hk
    cases houtcome : attemptOutcome W ctx req k with
    | error e => trivial
    | ok response =>
      exact .inr (hnamed k hpos (hk.trans_le (sends_le_attemptCount s)) response houtcome)
  · intro response houtcome hsuccess
    refine sent_once s houtcome fun hmore => ?_
    exact hfirst response houtcome hsuccess (hnamed 1 Nat.one_pos hmore response houtcome)

lemma RetriesSafely.listHarmless {s : EdgeState} (h : RetriesSafely W ctx req s)
    (henabled : ctx.middleware.retry.enabled = true)
    (hattempts : 1 < ctx.middleware.retry.attempts) : ListHarmless W ctx req := by
  rw [ListHarmless]
  split
  · next hnil =>
    intro k hpos hk response houtcome
    have hsent : k < sends W ctx req s := by
      rw [sends_of_answered houtcome]
      exact lt_attemptCount_of_nil henabled hnil hk
    have hmay := h.resent k hpos hsent
    rw [houtcome, MayRepeat, hnil] at hmay
    simpa using hmay
  · intro response houtcome hsuccess hnamed
    have hmore : 1 < attemptCount W ctx req := by
      refine lt_attemptCount_iff.2 ⟨?_, fun j hj hj1 => ?_⟩
      · rw [furtherAttempts, if_pos henabled]
        omega
      · obtain rfl : j = 1 := by omega
        rw [houtcome, repeated_ok_iff]
        exact ⟨henabled, .inr hnamed⟩
    have hone := (h.success response houtcome hsuccess).1
    rw [sends_of_answered houtcome] at hone
    omega

/-- For every setting and all outcomes: a request is sent again only after an attempt that
failed or has a status the setting names, and a success is returned after one attempt,
exactly if retrying is off, or there is one attempt, or the list of statuses does no harm. -/
theorem retries_safely_iff (s : EdgeState) :
    RetriesSafely W ctx req s ↔
      ctx.middleware.retry.enabled = false ∨ ctx.middleware.retry.attempts ≤ 1 ∨
        ListHarmless W ctx req := by
  by_cases hsingle : ctx.middleware.retry.enabled = false ∨ ctx.middleware.retry.attempts ≤ 1
  · rw [← or_assoc]
    exact iff_of_true (retriesSafely_of_single s (furtherAttempts_eq_zero_iff.2 hsingle))
      (.inl hsingle)
  · rw [← or_assoc, or_iff_right hsingle]
    push Not at hsingle
    obtain ⟨henabled, hattempts⟩ := hsingle
    rw [ne_eq, Bool.not_eq_false] at henabled
    refine ⟨fun h => h.listHarmless henabled hattempts, fun hlist => ?_⟩
    rw [ListHarmless] at hlist
    split at hlist
    · exact retriesSafely_of_nil s henabled hattempts hlist
    · next hne => exact retriesSafely_of_ne_nil s hne hlist

def attemptsOnly : RetryConfig := .decode { enabled := some true, attempts := some 2 }

def attemptsOnlyContext : ForwardContext where
  matched := sampleMatch { retry := attemptsOnly } []
  upstream := { url := "http://app:80" }
  remoteIp := none
  scheme := .http
  middleware := .fromRules { retry := attemptsOnly } []
  clientCertPem := none

def bodilessRequest : BufferedRequest .http1 :=
  ⟨"POST", (rootRequest []).uri, (rootRequest []).headers, []⟩

/-- The upstream has answered the first attempt with `200`, and the request is sent again. -/
theorem success_sent_again :
    attemptOutcome sampleWorld attemptsOnlyContext bodilessRequest 1 = .ok ⟨200, ⟨[]⟩, []⟩ ∧
      sends sampleWorld attemptsOnlyContext bodilessRequest (sampleState {} []) = 2 ∧
      ¬ RetriesSafely sampleWorld attemptsOnlyContext bodilessRequest (sampleState {} []) := by
  have houtcome : attemptOutcome sampleWorld attemptsOnlyContext bodilessRequest 1 =
      .ok ⟨200, ⟨[]⟩, []⟩ := by
    rfl
  have hsends : sends sampleWorld attemptsOnlyContext bodilessRequest (sampleState {} []) = 2 := by
    decide
  refine ⟨houtcome, hsends, fun h => ?_⟩
  have hone := (h.success _ houtcome ⟨by decide, by decide⟩).1
  omega

end Safety

end PxxlEdge
