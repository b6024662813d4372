import PxxlEdge.Proxy.HopByHop
import PxxlEdge.Proxy.ResponseHeaders

/-!
What a response tells caches: `Cache-Control`, `Expires` and `Vary`.

Each stage that has something to say writes its header in place of what earlier stages and the
upstream said.  The defaults for caches look at the path of the request only.
-/

namespace PxxlEdge

open RustStd Http Handlers List HeaderMap

variable {G : Grammar} {W : World G} {req : Request G} {s : EdgeState} {r : Response}
  {adm : Admission} {upstream : Upstream} {a : BufferedResponse}

def specialNames : List Text :=
  [permissionsPolicy, Header.contentType, Header.contentLength, setCookie, Header.requestId]

lemma getAll_of_answer (h : AnswerOf W req s r adm upstream a) {n : Text}
    (hn : n ∉ specialNames) :
    r.headers.getAll n =
      if Stripped W req adm a n then []
      else ((HeaderMap.lastValue (if compresses W req adm a then gzipWrites else []) n).or
        (HeaderMap.lastValue (routeWrites req adm) n)).elim
          ((receivedHeaders W req adm a).getAll n) fun v => [v] := by
  simp only [specialNames, mem_cons, not_mem_nil, or_false, not_or] at hn
  obtain ⟨hpolicy, htype, hlength, hcookie, hid⟩ := hn
  have hruled : (ruledAnswer W req adm a).headers.getAll n =
      (HeaderMap.lastValue (routeWrites req adm) n).elim
        ((receivedHeaders W req adm a).getAll n) fun v => [v] := by
    cases hroute : HeaderMap.lastValue (routeWrites req adm) n with
    | some v => exact getAll_responseHeaders_of_some req adm _ hroute
    | none => exact getAll_responseHeaders_of_none req adm _ hpolicy hroute
  rw [h.headers, getAll_clientResponseHeaders, if_neg hid, getAll_unstripped_of_ne hcookie,
    getAll_middlewareHeaders (.inl htype) fun hzip => hlength hzip.2, hruled]
  cases HeaderMap.lastValue (if compresses W req adm a then gzipWrites else []) n <;> rfl

lemma mem_of_mem_received {n : Text} {v : HeaderValue}
    (hv : v ∈ (receivedHeaders W req adm a).getAll n) : v ∈ a.headers.getAll n := by
  rw [getAll_receivedHeaders] at hv
  split at hv
  · cases hv
  · exact hv

def headerElements (values : List HeaderValue) : List Text :=
  values.flatMap fun v =>
    (((valueChars v).splitOn ',').map fun part => (Text.trim part).toAsciiLowercase).filter
      fun element => element ≠ []

lemma forall_mem_headerElements_nil {l : List Text} :
    (∀ t ∈ l, t ∈ headerElements []) ↔ l = [] := by
  simp [headerElements, eq_nil_iff_forall_not_mem]

def routeEntry (G : Grammar) (adm : Admission) (n : Text) : Option HeaderValue :=
  HeaderMap.lastValue (legalHeaders G adm.matched.route.rules.responseHeaders) n

/-! ### Long-lived answers -/

def longLived : List (Text × HeaderValue) :=
  [staticWrite "cache-control" "public, max-age=31536000, immutable",
    staticWrite "expires" "Thu, 31 Dec 2037 23:55:55 GMT"]

def Uncacheable (a : BufferedResponse) : Prop :=
  400 ≤ a.status ∨ ∃ directive ∈ headerElements (a.headers.getAll "cache-control"),
    Text.trim (directive.takeWhile (· ≠ '=')) ∈ ["no-store".toList, "private".toList]

def AddedByEdge (G : Grammar) (r : Response) (adm : Admission) (a : BufferedResponse)
    (e : Text × HeaderValue) : Prop :=
  e.2 ∈ r.headers.getAll e.1 ∧ e.2 ∉ a.headers.getAll e.1 ∧ routeEntry G adm e.1 ≠ some e.2

lemma lastValue_cacheWrites_static {path : Text} (hstatic : isStaticAssetPath path = true) :
    ∀ e ∈ longLived, HeaderMap.lastValue (cacheWrites path) e.1 = some e.2 := by
  rw [cacheWrites, if_pos hstatic]
  decide

lemma lastValue_cacheWrites_other {path : Text} (hstatic : ¬ isStaticAssetPath path = true) :
    ∀ e ∈ longLived, HeaderMap.lastValue (cacheWrites path) e.1 ≠ some e.2 := by
  rw [cacheWrites, if_neg hstatic]
  split <;> decide

lemma getAll_longLived (h : AnswerOf W req s r adm upstream a) :
    ∀ e ∈ longLived, r.headers.getAll e.1 =
      if Stripped W req adm a e.1 then []
      else ((HeaderMap.lastValue (cacheWrites adm.path) e.1).or (routeEntry G adm e.1)).elim
        ((receivedHeaders W req adm a).getAll e.1) fun v => [v] := by
  have hnames : ∀ e ∈ longLived, e.1 ∉ specialNames ∧ e.1 ∉ securityNames ∧
      e.1 ∉ gzipWrites.map Prod.fst ∧ e.1 ∉ corsNames := by
    decide
  intro e he
  obtain ⟨hspecial, hsecurity, hgzip, hcors⟩ := hnames e he
  have hzip : HeaderMap.lastValue (if compresses W req adm a then gzipWrites else []) e.1 =
      none := by
    rw [lastValue_eq_none]
    split
    · exact hgzip
    · exact not_mem_nil
  have hroute : HeaderMap.lastValue (routeWrites req adm) e.1 =
      (HeaderMap.lastValue (cacheWrites adm.path) e.1).or (routeEntry G adm e.1) := by
    rw [routeWrites, ruleWrites, lastValue_append, lastValue_append,
      lastValue_append,
      lastValue_eq_none.mpr fun hmem => hsecurity (mem_securityWrites hmem),
      lastValue_eq_none.mpr fun hmem => hcors (mem_corsNames_of_corsWrites hmem),
      Option.none_or, Option.or_none, routeEntry]
  rw [getAll_of_answer h hspecial, hzip, Option.none_or, hroute]

lemma not_addedByEdge_of_other (h : AnswerOf W req s r adm upstream a)
    (hstatic : ¬ isStaticAssetPath adm.path = true) {e : Text × HeaderValue}
    (he : e ∈ longLived) : ¬ AddedByEdge G r adm a e := by
  rintro ⟨hv, hanswer, hentry⟩
  have hother := lastValue_cacheWrites_other hstatic e he
  rw [getAll_longLived h e he] at hv
  split at hv
  · cases hv
  · cases hcache : HeaderMap.lastValue (cacheWrites adm.path) e.1 with
    | some v =>
      rw [hcache, Option.some_or, Option.elim_some, mem_singleton] at hv
      exact hother (hcache.trans (congrArg some hv.symm))
    | none =>
      rw [hcache, Option.none_or] at hv
      cases hroute : routeEntry G adm e.1 with
      | some v =>
        rw [hroute, Option.elim_some, mem_singleton] at hv
        exact hentry (hroute.trans (congrArg some hv.symm))
      | none =>
        rw [hroute, Option.elim_none] at hv
        exact hanswer (mem_of_mem_received hv)

/-- **Answers that must not be kept** are not made long-lived exactly if their path is not that
of an asset, or each header for it is removed again, or is the upstream's or the route's own. -/
theorem long_lived_not_added_iff (h : AnswerOf W req s r adm upstream a) :
    (Uncacheable a → ∀ e ∈ longLived, ¬ AddedByEdge G r adm a e) ↔
      (Uncacheable a → isStaticAssetPath adm.path = true → ∀ e ∈ longLived,
        Stripped W req adm a e.1 ∨ e.2 ∈ a.headers.getAll e.1 ∨
          routeEntry G adm e.1 = some e.2) := by
  refine imp_congr_right fun _ => ?_
  by_cases hstatic : isStaticAssetPath adm.path = true
  · rw [forall_prop_of_true hstatic]
    refine forall₂_congr fun e he => ?_
    rw [AddedByEdge, getAll_longLived h e he, lastValue_cacheWrites_static hstatic e he,
      Option.some_or, Option.elim_some]
    by_cases hstripped : Stripped W req adm a e.1
    · simp [hstripped]
    · rw [if_neg hstripped, and_iff_right (mem_singleton_self _), or_iff_right hstripped]
      tauto
  · exact iff_of_true (fun e he => not_addedByEdge_of_other h hstatic he)
      fun hyes => absurd hyes hstatic

def missingWorld : World .http1 :=
  { sampleWorld with
    answer := fun _ _ => .ok (404, ⟨[("cache-control", .fromStatic "no-store")]⟩, []) }

lemma uncacheable_missing {req : Request .http1}
    (h : AnswerOf missingWorld req s r adm upstream a) : Uncacheable a := by
  obtain ⟨attempt, message, frames, -, hgiven⟩ := h.given
  have hstatus : 404 = a.status :=
    congrArg (fun t : ℕ × HeaderMap × List Frame => t.1) (Except.ok.inj hgiven)
  exact .inl (by omega)

/-- The root is no asset. -/
theorem long_lived_not_added_root :
    ∃ r a, (handle missingWorld sampleConnection (rootRequest []) (sampleState {} [])).result =
        .ok r ∧ Uncacheable a ∧
      ∀ e ∈ longLived, ¬ AddedByEdge .http1 r ⟨"a.io", "/", sampleMatch {} []⟩ a e := by
  have hok : ((handle missingWorld sampleConnection (rootRequest [])
      (sampleState {} [])).result.toOption.any fun _ => true) = true := by
    decide +kernel
  obtain ⟨r, upstream, a, hr, -, h⟩ := exists_answerOf_sample hok
  have hroot : ¬ isStaticAssetPath "/" = true := by decide
  exact ⟨r, a, hr, uncacheable_missing h, (long_lived_not_added_iff h).mpr
    (fun _ hstatic => absurd hstatic hroot) (uncacheable_missing h)⟩

def assetRequest : Request .http1 := sampleRequest "/app.js" (by decide) []

lemma isSome_find_asset (rules : DomainRules) :
    (find (sampleState rules []).table "a.io" "/app.js").isSome = true := by
  rfl

def assetMatch (rules : DomainRules) : RouteMatch :=
  (find (sampleState rules []).table "a.io" "/app.js").get (isSome_find_asset rules)

lemma routed_asset (rules : DomainRules) :
    Routed (sampleState rules []) assetRequest ⟨"a.io", "/app.js", assetMatch rules⟩ where
  path :=
    have hpath : canonicalizePath "/app.js" = .ok "/app.js" := by decide +kernel
    hpath
  host := (routed_sample rules [] []).host
  matched := (Option.some_get (isSome_find_asset rules)).symm

def MadeLongLived (rules : DomainRules) : Prop :=
  ∃ r adm upstream a, AnswerOf missingWorld assetRequest (sampleState rules []) r adm upstream a ∧
    Uncacheable a ∧ ∀ e ∈ longLived, AddedByEdge .http1 r adm a e

lemma madeLongLived {rules : DomainRules}
    (hrun : ((handle missingWorld sampleConnection assetRequest
      (sampleState rules [])).result.toOption.any fun r => longLived.all fun e =>
        (r.headers.getAll e.1).contains e.2) = true)
    (hentry : ∀ e ∈ longLived, routeEntry .http1 ⟨"a.io", "/app.js", assetMatch rules⟩ e.1 = none) :
    MadeLongLived rules := by
  obtain ⟨r, upstream, a, -, hvalues, h⟩ := exists_answerOf (routed_asset rules) hrun
  refine ⟨r, _, upstream, a, h, uncacheable_missing h, fun e he => ⟨?_, ?_, ?_⟩⟩
  · simpa using all_eq_true.mp hvalues e he
  · rw [headers_of_gives (fun _ _ => rfl) h.given]
    revert e
    decide
  · rw [hentry e he]
    simp

/-- A missing asset is made long-lived on both paths. -/
theorem missing_asset_long_lived :
    MadeLongLived {} ∧ MadeLongLived { responseBuffering := { enabled := true } } :=
  ⟨madeLongLived (by decide +kernel) (by decide), madeLongLived (by decide +kernel) (by decide)⟩

/-! ### What a response depends on -/

def vary : Text := "vary"

variable (G req adm) in
def originSet : Bool :=
  (req.headers.get Header.origin).any fun origin =>
    corsOriginAllowed G origin adm.matched.route.rules.corsAllowedOrigins

structure VaryComplete (W : World G) (req : Request G) (r : Response) (adm : Admission)
    (a : BufferedResponse) : Prop where
  upstream : ∀ t ∈ headerElements (a.headers.getAll vary),
    t ∈ headerElements (r.headers.getAll vary)
  origin : originSet G req adm = true → "origin".toList ∈ headerElements (r.headers.getAll vary)
  encoding : compresses W req adm a = true →
    "accept-encoding".toList ∈ headerElements (r.headers.getAll vary)

def varyNeeds (W : World G) (req : Request G) (adm : Admission) (a : BufferedResponse) :
    List Text :=
  headerElements (a.headers.getAll vary) ++
    (if originSet G req adm then ["origin".toList] else []) ++
    if compresses W req adm a then ["accept-encoding".toList] else []

lemma varyComplete_iff :
    VaryComplete W req r adm a ↔
      ∀ t ∈ varyNeeds W req adm a, t ∈ headerElements (r.headers.getAll vary) := by
  have hparts : VaryComplete W req r adm a ↔ _ ∧ _ ∧ _ :=
    ⟨fun h => ⟨h.upstream, h.origin, h.encoding⟩, fun h => ⟨h.1, h.2.1, h.2.2⟩⟩
  rw [hparts, varyNeeds, forall_mem_append, forall_mem_append, and_assoc]
  refine and_congr Iff.rfl (and_congr ?_ ?_)
  · cases originSet G req adm <;> simp
  · cases compresses W req adm a <;> simp

def VaryKept (W : World G) (req : Request G) (adm : Admission) (a : BufferedResponse) : Prop :=
  if Stripped W req adm a vary then varyNeeds W req adm a = []
  else if compresses W req adm a then
    ∀ t ∈ varyNeeds W req adm a, t = "accept-encoding"
  else if originSet G req adm then ∀ t ∈ varyNeeds W req adm a, t = "origin"
  else (routeEntry G adm vary).elim
    (StrippedEarly W req adm a vary → headerElements (a.headers.getAll vary) = []) fun v =>
      ∀ t ∈ headerElements (a.headers.getAll vary), t ∈ headerElements [v]

lemma lastValue_corsWrites_vary :
    HeaderMap.lastValue (corsWrites G adm.matched.route.rules (req.headers.get Header.origin))
      vary = if originSet G req adm then some (.fromStatic "origin") else none := by
  have hjoined : ∀ name values, name ≠ vary →
      HeaderMap.lastValue (joinedWrite G name values) vary = none := fun name values hname =>
    lastValue_eq_none.mpr fun hmem => hname (mem_joinedWrite hmem).symm
  rw [originSet, corsWrites.eq_def]
  cases req.headers.get Header.origin with
  | none =>
    dsimp only [Option.any_none]
    split
    · rfl
    · rfl
  | some origin =>
    dsimp only [Option.any_some]
    split
    · rw [lastValue_append, lastValue_append, lastValue_append,
        hjoined _ _ (by decide), hjoined _ _ (by decide), Option.none_or, Option.none_or]
      split <;> rfl
    · rfl

lemma lastValue_routeWrites_vary :
    HeaderMap.lastValue (routeWrites req adm) vary =
      (if originSet G req adm then some (.fromStatic "origin") else none).or
        (routeEntry G adm vary) := by
  have hcache : HeaderMap.lastValue (cacheWrites adm.path) vary = none := by
    rw [cacheWrites]
    split
    · rfl
    · split <;> rfl
  have hsecurity : HeaderMap.lastValue (securityWrites adm.matched.route.rules) vary = none := by
    rw [securityWrites]
    split <;> rfl
  rw [routeWrites, ruleWrites, lastValue_append, lastValue_append,
    lastValue_append, hcache, hsecurity, lastValue_corsWrites_vary, Option.none_or,
    Option.or_none, routeEntry]

lemma getAll_vary (h : AnswerOf W req s r adm upstream a) :
    r.headers.getAll vary =
      if Stripped W req adm a vary then []
      else if compresses W req adm a then [.fromStatic "accept-encoding"]
      else if originSet G req adm then [.fromStatic "origin"]
      else (routeEntry G adm vary).elim
        (if StrippedEarly W req adm a vary then [] else a.headers.getAll vary) fun v => [v] := by
  have hzip : HeaderMap.lastValue (if compresses W req adm a then gzipWrites else []) vary =
      if compresses W req adm a then some (.fromStatic "accept-encoding") else none := by
    split <;> rfl
  rw [getAll_of_answer h (by decide), hzip, lastValue_routeWrites_vary, getAll_receivedHeaders]
  refine if_congr Iff.rfl rfl ?_
  cases compresses W req adm a with
  | true => rfl
  | false => cases originSet G req adm <;> rfl

/-- **`Vary` names all that a response depends on** exactly if it is all named by the last stage
that writes the header: compression, the headers for other origins, the route or the
upstream. -/
theorem vary_complete_iff (h : AnswerOf W req s r adm upstream a) :
    VaryComplete W req r adm a ↔ VaryKept W req adm a := by
  have hencoding : headerElements [.fromStatic "accept-encoding"] =
      ["accept-encoding".toList] := by decide
  have horigin : headerElements [.fromStatic "origin"] = ["origin".toList] := by decide
  rw [varyComplete_iff, VaryKept, getAll_vary h]
  by_cases hstripped : Stripped W req adm a vary
  · rw [if_pos hstripped, if_pos hstripped, forall_mem_headerElements_nil]
  rw [if_neg hstripped, if_neg hstripped]
  by_cases hzip : compresses W req adm a = true
  · rw [if_pos hzip, if_pos hzip, hencoding]
    simp only [mem_singleton]
  rw [if_neg hzip, if_neg hzip]
  by_cases hset : originSet G req adm = true
  · rw [if_pos hset, if_pos hset, horigin]
    simp only [mem_singleton]
  rw [if_neg hset, if_neg hset, varyNeeds, if_neg hset, if_neg hzip, append_nil,
    append_nil]
  cases routeEntry G adm vary with
  | some v => rfl
  | none =>
    rw [Option.elim_none, Option.elim_none]
    by_cases hearly : StrippedEarly W req adm a vary
    · rw [if_pos hearly, forall_prop_of_true hearly, forall_mem_headerElements_nil]
    · rw [if_neg hearly]
      exact iff_of_true (fun t ht => ht) fun hyes => absurd hyes hearly

def languageWorld : World .http1 :=
  { sampleWorld with
    answer := fun _ _ => .ok (200, ⟨[(vary, .fromStatic "accept-language")]⟩, [.data [1, 2]]) }

/-- Without compression and other origins, this reaches the client. -/
theorem vary_complete_plain :
    ∃ r a, (handle languageWorld sampleConnection (rootRequest []) (sampleState {} [])).result =
        .ok r ∧ a.headers.getAll vary = [.fromStatic "accept-language"] ∧
      VaryComplete languageWorld (rootRequest []) r ⟨"a.io", "/", sampleMatch {} []⟩ a := by
  have hok : ((handle languageWorld sampleConnection (rootRequest [])
      (sampleState {} [])).result.toOption.any fun _ => true) = true := by
    decide +kernel
  obtain ⟨r, upstream, a, hr, -, h⟩ := exists_answerOf_sample hok
  have hheaders := headers_of_gives (fun _ _ => rfl) h.given
  have hconnection : a.headers.getAll Header.connection = [] := by
    rw [hheaders]
    rfl
  obtain ⟨hstripped, hearly⟩ :
      ¬ Stripped languageWorld (rootRequest []) ⟨"a.io", "/", sampleMatch {} []⟩ a vary ∧
        ¬ StrippedEarly languageWorld (rootRequest []) ⟨"a.io", "/", sampleMatch {} []⟩ a vary :=
    not_stripped_of_connection (by decide) (by rfl) hconnection
  have hplain : ¬ compresses languageWorld (rootRequest []) ⟨"a.io", "/", sampleMatch {} []⟩ a =
      true := by
    rw [compresses, show buffers (sampleMatch {} []) = false by decide]
    exact Bool.false_ne_true
  refine ⟨r, a, hr, by rw [hheaders]; rfl, (vary_complete_iff h).mpr ?_⟩
  rw [VaryKept, if_neg hstripped, if_neg hplain, if_neg (by decide)]
  exact fun hyes => absurd hyes hearly

def sharedRules : DomainRules where
  compression := { enabled := true, minBytes := 0 }
  corsAllowedOrigins := ["https://b.io"]

def sharedRequest : Request .http1 :=
  rootRequest [("origin", "https://b.io"), ("accept-encoding", "gzip")]

/-- Compression replaces what the upstream and the headers for other origins name. -/
theorem vary_lost_by_compression :
    ∃ r adm upstream a, AnswerOf languageWorld sharedRequest (sampleState sharedRules []) r adm
        upstream a ∧
      a.headers.getAll vary = [.fromStatic "accept-language"] ∧
      r.headers.getAll "access-control-allow-origin" = [.fromStatic "https://b.io"] ∧
      r.headers.getAll vary = [.fromStatic "accept-encoding"] := by
  have hrun : ((handle languageWorld sampleConnection sharedRequest
      (sampleState sharedRules [])).result.toOption.any fun r =>
        r.headers.getAll "access-control-allow-origin" == [.fromStatic "https://b.io"] &&
          r.headers.getAll vary == [.fromStatic "accept-encoding"]) = true := by
    decide +kernel
  obtain ⟨r, upstream, a, -, hvalues, h⟩ := exists_answerOf (routed_sample sharedRules [] _) hrun
  obtain ⟨horigin, hvary⟩ := Bool.and_eq_true_iff.mp hvalues
  refine ⟨r, _, upstream, a, h, ?_, eq_of_beq horigin, eq_of_beq hvary⟩
  rw [headers_of_gives (fun _ _ => rfl) h.given]
  rfl

end PxxlEdge
