import PxxlEdge.Common.CanonicalPath
import PxxlEdge.Proxy.DigestNonce
import PxxlEdge.Proxy.DigestReplay
import PxxlEdge.Proxy.ForwardedPath

/-!
The Authorization header of a client that knows a password, and whether the proxy accepts it.
The proxy cuts the header at its commas, also inside of quotes, takes quotes off the ends of a
value and undoes no escapes; it compares the URI of the header with the canonical path; and
it remembers a use by a text in which the parts of the combination are not told apart.
-/

namespace PxxlEdge

open RustStd Http List

/-! ### Fields -/

section Fields

def quotedString (value : Text) : Text :=
  '"' :: ((value.flatMap fun c => if c = '"' ∨ c = '\\' then ['\\', c] else [c]) ++ ['"'])

def PlainValue (value : Text) : Prop := ∀ c ∈ value, c ≠ '"' ∧ c ≠ '\\' ∧ c ≠ ','

lemma quotedString_of_plain {value : Text} (h : PlainValue value) :
    quotedString value = '"' :: (value ++ ['"']) := by
  have hsame : (value.flatMap fun c => if c = '"' ∨ c = '\\' then ['\\', c] else [c]) = value := by
    induction value with
    | nil => rfl
    | cons c value ih =>
      obtain ⟨hquote, hbackslash, -⟩ := h c mem_cons_self
      rw [flatMap_cons, ih fun x hx => h x (mem_cons_of_mem c hx),
        if_neg (by simp [hquote, hbackslash])]
      rfl
  rw [quotedString, hsame]

lemma trimMatches_quotedString {value : Text} (h : PlainValue value) :
    Text.trimMatches '"' (quotedString value) = value := by
  rw [quotedString_of_plain h]
  exact Text.trimMatches_quoted fun hmem => (h '"' hmem).1 rfl

def digestAuthorization (fields : List (Text × Text)) : Text :=
  "Digest " ++ List.intercalate ", " (fields.map fun f => f.1 ++ '=' :: f.2)

def isFieldName (name : Text) : Bool :=
  name ≠ [] && name.all fun c =>
    !Text.isWhitespace c && c != '=' && c != ',' && c.toLower == c

structure ReadableField (f : Text × Text) : Prop where
  name : isFieldName f.1 = true
  head : ∀ c ∈ f.2.head?, Text.isWhitespace c = false
  last : ∀ c ∈ f.2.getLast?, Text.isWhitespace c = false
  comma : ',' ∉ f.2

lemma readableField_quoted {name value : Text} (hname : isFieldName name = true)
    (hvalue : PlainValue value) : ReadableField (name, quotedString value) := by
  rw [quotedString_of_plain hvalue]
  refine ⟨hname, ?_, ?_, ?_⟩
  · rintro c ⟨⟩
    decide
  · intro c hc
    rw [← cons_append, getLast?_concat] at hc
    cases hc
    decide
  · intro hmem
    have hcomma : ',' ∉ value := fun h => (hvalue ',' h).2.2 rfl
    simp [hcomma] at hmem

lemma readableField_token {name value : Text} (hname : isFieldName name = true)
    (hvalue : (value.all fun c => !Text.isWhitespace c && c != ',') = true) :
    ReadableField (name, value) := by
  simp only [all_eq_true, Bool.and_eq_true, Bool.not_eq_true', bne_iff_ne] at hvalue
  exact
    { name := hname
      head := fun c hc => (hvalue c (mem_of_head? hc)).1
      last := fun c hc => (hvalue c (mem_of_getLast? hc)).1
      comma := fun hmem => (hvalue ',' hmem).2 rfl }

def readField (part : Text) : Option (Text × Text) := do
  let (key, value) ← Text.splitOnce '=' (Text.trim part)
  return (key.trim.toAsciiLowercase, value.trim.trimMatches '"')

lemma readField_blank (part : Text) : readField (' ' :: part) = readField part := by
  have htrim : Text.trim (' ' :: part) = Text.trim part := by
    rw [Text.trim, Text.trim, Text.trimStart, dropWhile_cons_of_pos (by decide),
      Text.trimStart]
  rw [readField, readField, htrim]

lemma name_of_readable {f : Text × Text} (h : ReadableField f) :
    f.1 ≠ [] ∧ ∀ c ∈ f.1, Text.isWhitespace c = false ∧ c ≠ '=' ∧ c ≠ ',' ∧ c.toLower = c := by
  have hname := h.name
  simp only [isFieldName, Bool.and_eq_true, decide_eq_true_eq, all_eq_true,
    Bool.not_eq_true', bne_iff_ne, beq_iff_eq, and_assoc] at hname
  exact hname

lemma readField_of_readable {f : Text × Text} (h : ReadableField f) :
    readField (f.1 ++ '=' :: f.2) = some (f.1, f.2.trimMatches '"') := by
  obtain ⟨hne, hname⟩ := name_of_readable h
  have hpart : Text.trim (f.1 ++ '=' :: f.2) = f.1 ++ '=' :: f.2 := by
    refine Text.trim_eq_self (fun c hc => ?_) fun c hc => ?_
    · rw [head?_append_of_ne_nil _ hne] at hc
      exact (hname c (mem_of_head? hc)).1
    · rw [getLast?_append_cons] at hc
      cases hvalue : f.2 with
      | nil =>
        rw [hvalue] at hc
        cases hc
        decide
      | cons x rest =>
        rw [hvalue, getLast?_cons_cons, ← hvalue] at hc
        exact h.last c hc
  have hkey : Text.trim f.1 = f.1 := Text.trim_eq_self
    (fun c hc => (hname c (mem_of_head? hc)).1)
    fun c hc => (hname c (mem_of_getLast? hc)).1
  have hlower : Text.toAsciiLowercase f.1 = f.1 := by
    rw [Text.toAsciiLowercase, map_congr_left fun c hc => (hname c hc).2.2.2, map_id']
  have hequals : '=' ∉ f.1 := fun hmem => (hname '=' hmem).2.1 rfl
  rw [readField, hpart, Text.splitOnce_append hequals, Option.bind_eq_bind, Option.bind_some]
  dsimp only
  rw [hkey, hlower, Text.trim_eq_self h.head h.last]
  rfl

lemma parseDigestAuthorization_fields {fields : List (Text × Text)} (hne : fields ≠ [])
    (h : ∀ f ∈ fields, ReadableField f) :
    parseDigestAuthorization
        (List.intercalate ", " (fields.map fun f => f.1 ++ '=' :: f.2)) =
      Map.ofList (fields.map fun f => (f.1, f.2.trimMatches '"')) := by
  have hcommas : ∀ p ∈ fields.map fun f => f.1 ++ '=' :: f.2, ',' ∉ p := by
    intro p hp hmem
    obtain ⟨f, hf, rfl⟩ := mem_map.mp hp
    rcases mem_append.mp hmem with hname | hvalue
    · exact ((name_of_readable (h f hf)).2 ',' hname).2.2.1 rfl
    · exact (h f hf).comma (by simpa using hvalue)
  show Map.ofList (((List.intercalate ", " _).splitOn ',').filterMap readField) = _
  rw [Text.filterMap_splitOn_intercalate readField_blank (by simpa using hne) hcommas,
    filterMap_map, ← filterMap_eq_map]
  congr 1
  exact filterMap_congr fun f hf => readField_of_readable (h f hf)

end Fields

/-! ### The answer of a client -/

def useKey (c : Text × Text × Text × Text × Text) : Text :=
  joinColon [c.1, c.2.1, c.2.2.1, c.2.2.2.1, c.2.2.2.2]

structure DigestAnswer where
  username : Text
  password : Text
  uri : Text
  nonce : Text
  nc : Text
  cnonce : Text

def IsHexText (text : Text) : Prop := text ≠ [] ∧ ∀ c ∈ text, (toDigit 16 c).isSome

namespace DigestAnswer

variable {G : Grammar} (W : World G) (config : DigestAuthConfig) (method : Text)
  (a : DigestAnswer)

def response : Text :=
  digestExpected W method config.realm a.username a.password a.uri a.nonce a.nc a.cnonce "auth"

def fields : List (Text × Text) :=
  [("username", quotedString a.username), ("realm", quotedString config.realm),
    ("uri", quotedString a.uri), ("algorithm", "SHA-256"), ("nonce", quotedString a.nonce),
    ("nc", a.nc), ("cnonce", quotedString a.cnonce), ("qop", "auth"),
    ("response", quotedString (a.response W config method))]

def combination : Text × Text × Text × Text × Text :=
  (a.username, a.nonce, a.nc, a.cnonce, a.uri)

def key : Text := useKey a.combination

structure Answers (issued : ℕ) : Prop where
  user : config.users.get a.username = some a.password
  nonce : a.nonce = digestNonce W config.realm issued
  issued_lt : issued < 2 ^ 64
  fresh : issued ≤ W.unixMs .digest + digestNonceClockSkewMs ∧
    W.unixMs .digest - issued ≤ digestNonceTtlMs
  nc : validDigestNc a.nc = true
  cnonce : a.cnonce ≠ []

structure IsPlain : Prop where
  username : PlainValue a.username
  realm : PlainValue config.realm
  uri : PlainValue a.uri
  cnonce : PlainValue a.cnonce

structure ReadAs (params : Map Text Text) : Prop where
  username : params.get "username" = some a.username
  realm : params.get "realm" = some config.realm
  uri : params.get "uri" = some a.uri
  algorithm : params.get "algorithm" = some "SHA-256"
  nonce : params.get "nonce" = some a.nonce
  nc : params.get "nc" = some a.nc
  cnonce : params.get "cnonce" = some a.cnonce
  qop : params.get "qop" = some "auth"
  response : params.get "response" = some (a.response W config method)

variable {W config method a} {issued : ℕ}

lemma plainValue_of_digits {text : Text} (h : ∀ c ∈ text, (toDigit 16 c).isSome ∨ c = '.') :
    PlainValue text := by
  intro c hc
  refine ⟨?_, ?_, ?_⟩ <;>
  · rintro rfl
    exact absurd (h _ hc) (by decide)

lemma digit_of_mem_nonce (hhash : ∀ text, IsHexText (W.sha256Hex text))
    (h : a.Answers W config issued) : ∀ c ∈ a.nonce, (toDigit 16 c).isSome ∨ c = '.' := by
  rw [h.nonce, digestNonce]
  intro c hc
  rcases mem_append.mp hc with hc | hc
  · rcases mem_append.mp hc with hc | hc
    · obtain ⟨d, hd, rfl⟩ := exists_digitChar_of_mem (by decide) hc
      rw [toDigit_digitChar le_rfl hd]
      exact .inl rfl
    · exact .inr (mem_singleton.mp hc)
  · exact .inl ((hhash _).2 c hc)

lemma digit_of_mem_nc (h : a.Answers W config issued) : ∀ c ∈ a.nc, (toDigit 16 c).isSome :=
  all_eq_true.mp (Bool.and_eq_true_iff.mp h.nc).2

lemma readableField_fields (hhash : ∀ text, IsHexText (W.sha256Hex text))
    (h : a.Answers W config issued) (hplain : a.IsPlain config) :
    ∀ f ∈ a.fields W config method, ReadableField f := by
  have hnonce := plainValue_of_digits (digit_of_mem_nonce hhash h)
  have hnc := digit_of_mem_nc h
  have hresponse : PlainValue (a.response W config method) :=
    plainValue_of_digits fun c hc => .inl ((hhash _).2 c hc)
  have hcount : ReadableField ("nc", a.nc) := by
    refine readableField_token (by decide) (all_eq_true.mpr fun c hc => ?_)
    have hcomma : c ≠ ',' := by
      rintro rfl
      exact absurd (hnc _ hc) (by decide)
    simp [isWhitespace_of_isSome_toDigit (hnc c hc), hcomma]
  simp only [fields, forall_mem_cons]
  exact ⟨readableField_quoted (by decide) hplain.username,
    readableField_quoted (by decide) hplain.realm, readableField_quoted (by decide) hplain.uri,
    readableField_token (by decide) (by decide), readableField_quoted (by decide) hnonce, hcount,
    readableField_quoted (by decide) hplain.cnonce, readableField_token (by decide) (by decide),
    readableField_quoted (by decide) hresponse, by simp⟩

lemma get_of_mem_fields {fields : List (Text × Text)}
    (hfields : fields.Perm (a.fields W config method))
    (hread : ∀ f ∈ a.fields W config method, ReadableField f) {name value : Text}
    (hmem : (name, value) ∈ a.fields W config method) :
    (parseDigestAuthorization
      (List.intercalate ", " (fields.map fun f => f.1 ++ '=' :: f.2))).get name =
        some (value.trimMatches '"') := by
  have hnames : (fields.map Prod.fst).Nodup := by
    rw [(hfields.map Prod.fst).nodup_iff]
    show (["username", "realm", "uri", "algorithm", "nonce", "nc", "cnonce", "qop",
      "response"].map String.toList).Nodup
    decide
  have hne : fields ≠ [] := by
    rintro rfl
    exact absurd hfields.symm.eq_nil (by simp [DigestAnswer.fields])
  rw [parseDigestAuthorization_fields hne fun f hf => hread f (hfields.mem_iff.mp hf)]
  refine Map.lookup_ofList_of_nodup ?_
    (mem_map.mpr ⟨(name, value), hfields.mem_iff.mpr hmem, rfl⟩)
  rw [map_map]
  exact hnames

lemma readAs_fields (hhash : ∀ text, IsHexText (W.sha256Hex text))
    (h : a.Answers W config issued) (hplain : a.IsPlain config) {fields : List (Text × Text)}
    (hfields : fields.Perm (a.fields W config method)) :
    a.ReadAs W config method (parseDigestAuthorization
      (List.intercalate ", " (fields.map fun f => f.1 ++ '=' :: f.2))) := by
  have hread : ∀ f ∈ a.fields W config method, ReadableField f :=
    readableField_fields hhash h hplain
  -- with or without quotes, a field is read as what is left of its text without them
  have hget : ∀ {name text value : Text}, (name, text) ∈ a.fields W config method →
      Text.trimMatches '"' text = value → (parseDigestAuthorization
        (List.intercalate ", " (fields.map fun f => f.1 ++ '=' :: f.2))).get name =
          some value := by
    rintro name text value hmem rfl
    exact get_of_mem_fields hfields hread hmem
  have hnonce := plainValue_of_digits (digit_of_mem_nonce hhash h)
  have hresponse : PlainValue (a.response W config method) :=
    plainValue_of_digits fun c hc => .inl ((hhash _).2 c hc)
  have hcount : '"' ∉ a.nc := fun hmem => absurd (digit_of_mem_nc h '"' hmem) (by decide)
  exact
    { username := hget (by simp [DigestAnswer.fields]) (trimMatches_quotedString hplain.username)
      realm := hget (by simp [DigestAnswer.fields]) (trimMatches_quotedString hplain.realm)
      uri := hget (by simp [DigestAnswer.fields]) (trimMatches_quotedString hplain.uri)
      algorithm := hget (by simp [DigestAnswer.fields]) (Text.trimMatches_of_not_mem (by decide))
      nonce := hget (by simp [DigestAnswer.fields]) (trimMatches_quotedString hnonce)
      nc := hget (by simp [DigestAnswer.fields]) (Text.trimMatches_of_not_mem hcount)
      cnonce := hget (by simp [DigestAnswer.fields]) (trimMatches_quotedString hplain.cnonce)
      qop := hget (by simp [DigestAnswer.fields]) (Text.trimMatches_of_not_mem (by decide))
      response := hget (by simp [DigestAnswer.fields]) (trimMatches_quotedString hresponse) }

lemma digestReplayKey_of_readAs (hhash : ∀ text, IsHexText (W.sha256Hex text))
    (h : a.Answers W config issued) {params : Map Text Text}
    (hparams : a.ReadAs W config method params) (actualUri : Text) :
    digestReplayKey W config method actualUri params =
      if a.uri = actualUri then some a.key else none := by
  have hvalid : digestNonceIsValid W config.realm a.nonce (W.unixMs .digest) = true := by
    rw [h.nonce, digestNonceIsValid_digestNonce W (fun text => (hhash text).1) config.realm
      h.issued_lt, decide_eq_true h.fresh.1, decide_eq_true h.fresh.2]
    rfl
  split
  next huri =>
    subst huri
    refine digestReplayKey_eq_some_iff.mpr ⟨a.username, a.password, a.nonce, a.nc, a.cnonce,
      "auth", a.response W config method, ?_, rfl⟩
    exact
      { hasUser := hparams.username
        hasPassword := h.user
        sameRealm := fun realm hrealm => Option.some.inj (hrealm.symm.trans hparams.realm)
        hasNonce := hparams.nonce
        nonceLive := hvalid
        sameUri := hparams.uri
        sameAlgorithm := fun algorithm halgorithm => by
          rw [Option.some.inj (halgorithm.symm.trans hparams.algorithm)]
          decide
        hasQop := ⟨hparams.qop, by decide⟩
        hasNc := ⟨hparams.nc, h.nc⟩
        hasCnonce := ⟨hparams.cnonce, h.cnonce⟩
        hasResponse := hparams.response
        proof := rfl }
  next huri =>
    rw [Option.eq_none_iff_forall_ne_some]
    intro key hkey
    obtain ⟨_, _, _, _, _, _, _, hchecked, -⟩ := digestReplayKey_eq_some_iff.mp hkey
    exact huri (Option.some.inj (hparams.uri.symm.trans hchecked.sameUri))

end DigestAnswer

/-! ### Commas -/

section Refused

variable {G : Grammar} {W : World G} {req : Request G} {policy : PolicyEnforcer}
  {config : DigestAuthConfig} {domain path : Text}

lemma evaluateDigestAuth_eq_none_iff (henabled : config.enabled = true) {params : Map Text Text}
    (hparams : digestParams req = some params) :
    (policy.evaluateDigestAuth W req config domain path).1 = none ↔
      (policy.digestAuthorized W config req.method (digestRequestUri req path) params).1 =
        true := by
  rw [PolicyEnforcer.evaluateDigestAuth, if_neg (not_not.mpr henabled)]
  simp only [hparams]
  split
  next hauth => exact iff_of_true rfl hauth
  next hauth => exact iff_of_false (by simp) hauth

lemma digestParams_of_header {fields : List (Text × Text)}
    (hheader : headerText G req.headers Header.authorization = some (digestAuthorization fields)) :
    digestParams req = some (parseDigestAuthorization
      (List.intercalate ", " (fields.map fun f => f.1 ++ '=' :: f.2))) := by
  simp only [digestParams, Option.bind_eq_bind, Option.bind_eq_some_iff]
  exact ⟨digestAuthorization fields, hheader, _, Text.stripPrefix_append _ _, rfl⟩

end Refused

/-! ### Keys -/

section Keys

variable {G : Grammar} {W : World G}

lemma eq_of_useKey_eq {c c' : Text × Text × Text × Text × Text}
    (hcolon : ∀ p ∈ [c.1, c.2.1, c.2.2.1, c.2.2.2.1, c.2.2.2.2], ':' ∉ p)
    (heq : useKey c = useKey c') : c = c' := by
  have hparts := Text.eq_of_intercalate_eq (by simp) hcolon heq
  simp only [List.cons.injEq, and_true] at hparts
  obtain ⟨h1, h2, h3, h4, h5⟩ := hparts
  exact Prod.ext h1 (Prod.ext h2 (Prod.ext h3 (Prod.ext h4 h5)))

def RemembersOnly (policy : PolicyEnforcer) (uses : List (Text × Text × Text × Text × Text)) :
    Prop :=
  ∀ key ∈ policy.digestReplays, ∃ c ∈ uses, useKey c = key

lemma mem_of_mem_liveReplays {policy : PolicyEnforcer} {now : ℕ} {key : Text}
    (h : key ∈ policy.liveReplays now) : key ∈ policy.digestReplays := by
  rw [PolicyEnforcer.liveReplays] at h
  split at h
  · exact h
  · exact (Map.drops_retain _ _).mem h

lemma remembersOnly_step {s : DigestRun}
    (h : RemembersOnly s.policy (s.accepted.filterMap DigestCall.combination))
    (call : DigestCall) :
    RemembersOnly (DigestCall.step W s call).policy
      ((DigestCall.step W s call).accepted.filterMap DigestCall.combination) := by
  cases hkey : call.replayKey W with
  | none =>
    rw [DigestCall.step_of_none hkey]
    exact h
  | some key =>
    obtain ⟨username, nonce, nc, cnonce, uri, hcombination, -, rfl, -⟩ :=
      DigestCall.exists_combination hkey
    rw [DigestCall.step_of_some hkey]
    intro key hmem
    rcases (AList.mem_insert _).mp hmem with rfl | hmem
    · -- the key of the call is new, and the call accepted, or it was remembered before
      dsimp only
      split
      next hnew =>
        refine ⟨(username, nonce, nc, cnonce, uri), ?_, rfl⟩
        exact mem_filterMap.mpr ⟨call, by simp, hcombination⟩
      next hold =>
        rw [Option.isNone_iff_eq_none] at hold
        have hlive : joinColon [username, nonce, nc, cnonce, uri] ∈
            s.policy.liveReplays (call.prunedAt * nanosPerMilli) :=
          AList.lookup_isSome.mp (Option.isSome_iff_ne_none.mpr hold)
        exact h _ (mem_of_mem_liveReplays hlive)
    · obtain ⟨c, hc, hkey⟩ := h key (mem_of_mem_liveReplays hmem)
      dsimp only
      split
      · exact ⟨c, by rw [filterMap_append]; exact mem_append_left _ hc, hkey⟩
      · exact ⟨c, hc, hkey⟩

/-- What is remembered as used was accepted. -/
theorem digest_memory_accepted (calls : List DigestCall) :
    RemembersOnly (Run.run (DigestCall.step W) {} calls).policy
      ((acceptedCalls W calls).filterMap DigestCall.combination) := by
  refine Run.run_invariant
    (fun s : DigestRun => RemembersOnly s.policy (s.accepted.filterMap DigestCall.combination))
    (fun s call h => remembersOnly_step h call) ?_ calls
  intro key hkey
  exact absurd hkey (AList.notMem_empty key)

lemma DigestAnswer.key_not_taken {a : DigestAnswer} {config : DigestAuthConfig} {issued : ℕ}
    (hhash : ∀ text, IsHexText (W.sha256Hex text)) (h : a.Answers W config issued)
    {policy : PolicyEnforcer} {uses : List (Text × Text × Text × Text × Text)}
    (huses : RemembersOnly policy uses) (hunused : a.combination ∉ uses)
    (husername : ':' ∉ a.username) (hcnonce : ':' ∉ a.cnonce) (huri : ':' ∉ a.uri) (now : ℕ) :
    (policy.liveReplays now).get a.key = none := by
  have hnonce : ':' ∉ a.nonce := fun hmem =>
    absurd (digit_of_mem_nonce hhash h _ hmem) (by decide)
  have hnc : ':' ∉ a.nc := fun hmem => absurd (digit_of_mem_nc h _ hmem) (by decide)
  by_contra htaken
  have hmem : a.key ∈ policy.liveReplays now :=
    AList.lookup_isSome.mp (Option.isSome_iff_ne_none.mpr htaken)
  obtain ⟨c, hc, hkey⟩ := huses a.key (mem_of_mem_liveReplays hmem)
  have heq : a.combination = c := by
    refine eq_of_useKey_eq ?_ hkey.symm
    simp [combination, husername, hnonce, hnc, hcnonce, huri]
  exact hunused (heq ▸ hc)

end Keys

/-! ### Acceptance -/

section Acceptance

variable {G : Grammar} {W : World G} {req : Request G} {policy : PolicyEnforcer}
  {config : DigestAuthConfig} {domain path : Text} {a : DigestAnswer} {issued : ℕ}

lemma pathAndQuery_eq_digestRequestUri_iff (hpath : canonicalizePath req.uri.path = .ok path) :
    req.uri.pathAndQuery = digestRequestUri req path ↔
      path = req.uri.path ∧ req.uri.query ≠ some [] := by
  rw [digestRequestUri, withQuery_eq, Uri.pathAndQuery_eq]
  by_cases hquery : req.uri.query = some []
  · -- the mark of an empty query is sent, and no canonical path ends in it
    refine iff_of_false (fun heq => ?_) fun h => h.2 hquery
    have happend : path = req.uri.path ++ '?' :: [] := by
      rw [hquery] at heq
      simpa [writtenQuery, Option.filter, Uri.queryText] using heq.symm
    exact canonicalizePath_ne_append (by decide) (happend ▸ hpath)
  · rw [writtenQuery_eq_self_iff.mpr hquery, append_cancel_right_eq, eq_comm]
    exact (and_iff_left hquery).symm

/-- **Completeness of Digest authentication.**  The header of a client that knows the password
of a user, formed from values that need no escapes and have no comma, is accepted exactly if
its path was sent in canonical form, with no empty query, and the key of its use is not taken.
The key of an unused combination is not, if the user name, the client nonce and the URI have
no colon. -/
theorem digest_header_accepted_iff (hhash : ∀ text, IsHexText (W.sha256Hex text))
    (henabled : config.enabled = true) (hanswer : a.Answers W config issued)
    (hplain : a.IsPlain config) {fields : List (Text × Text)}
    (hfields : fields.Perm (a.fields W config req.method))
    (hheader : headerText G req.headers Header.authorization = some (digestAuthorization fields))
    (huri : a.uri = req.uri.pathAndQuery) (hpath : canonicalizePath req.uri.path = .ok path)
    {uses : List (Text × Text × Text × Text × Text)} (huses : RemembersOnly policy uses)
    (hunused : a.combination ∉ uses) :
    ((policy.evaluateDigestAuth W req config domain path).1 = none ↔
      path = req.uri.path ∧ req.uri.query ≠ some [] ∧
        (policy.liveReplays (W.clock .digest 0)).get a.key = none) ∧
    (':' ∉ a.username → ':' ∉ a.cnonce → ':' ∉ a.uri →
      (policy.liveReplays (W.clock .digest 0)).get a.key = none) := by
  have hread := DigestAnswer.readAs_fields hhash hanswer hplain hfields
  have hcheck := DigestAnswer.digestReplayKey_of_readAs hhash hanswer hread
    (digestRequestUri req path)
  refine ⟨?_, fun husername hcnonce hcolon =>
    DigestAnswer.key_not_taken hhash hanswer huses hunused husername hcnonce hcolon _⟩
  rw [evaluateDigestAuth_eq_none_iff henabled (digestParams_of_header hheader),
    PolicyEnforcer.digestAuthorized, hcheck, ← and_assoc,
    ← pathAndQuery_eq_digestRequestUri_iff hpath, ← huri]
  by_cases hsame : a.uri = digestRequestUri req path
  · rw [if_pos hsame]
    exact Option.isNone_iff_eq_none.trans (and_iff_right hsame).symm
  · rw [if_neg hsame]
    exact iff_of_false Bool.false_ne_true fun h => hsame h.1

end Acceptance

section Sample

def sampleAnswer (cnonce uri : Text) : DigestAnswer where
  username := "u"
  password := "p"
  uri := uri
  nonce := digestNonce sampleWorld "r" 0
  nc := "00000001"
  cnonce := cnonce

lemma isHexText_sampleWorld (text : Text) : IsHexText (sampleWorld.sha256Hex text) := by
  refine ⟨Nat.toDigits_ne_nil, fun c hc => ?_⟩
  obtain ⟨d, hd, rfl⟩ := exists_digitChar_of_mem (by decide) hc
  rw [toDigit_digitChar le_rfl hd]
  rfl

lemma answers_sampleAnswer {cnonce : Text} (hcnonce : cnonce ≠ []) (uri : Text) :
    (sampleAnswer cnonce uri).Answers sampleWorld sampleDigestConfig 0 where
  user := rfl
  nonce := rfl
  issued_lt := by decide
  fresh := by decide
  nc :=
    have hcount : validDigestNc "00000001" = true := by decide
    hcount
  cnonce := hcnonce

def sampleAuthorization (cnonce uri : Text) : Text :=
  digestAuthorization ((sampleAnswer cnonce uri).fields sampleWorld sampleDigestConfig "GET")

/-- The header for the root path is accepted. -/
theorem digest_header_accepted_iff_root :
    (({} : PolicyEnforcer).evaluateDigestAuth sampleWorld
      (rootRequest [(Header.authorization, sampleAuthorization "c" "/")]) sampleDigestConfig
      "a.io" "/").1 = none := by
  have hplain : (sampleAnswer "c" "/").IsPlain sampleDigestConfig := by
    constructor <;> simp [PlainValue, sampleAnswer, sampleDigestConfig]
  have htext : Grammar.http1.toStr (.fromStatic (sampleAuthorization "c" "/")) =
      some (sampleAuthorization "c" "/") := by
    decide +kernel
  have hheader : headerText .http1
      (rootRequest [(Header.authorization, sampleAuthorization "c" "/")]).headers
      Header.authorization = some (sampleAuthorization "c" "/") := by
    have hget : (rootRequest [(Header.authorization, sampleAuthorization "c" "/")]).headers.get
        Header.authorization = some (.fromStatic (sampleAuthorization "c" "/")) := rfl
    rw [headerText, hget, Option.bind_some, htext]
  have hpath : canonicalizePath "/" = .ok "/".toList := by decide
  have hempty : RemembersOnly {} [] := fun key hkey => absurd hkey (AList.notMem_empty key)
  have hanswer := answers_sampleAnswer (show "c".toList ≠ [] by decide) "/".toList
  refine (digest_header_accepted_iff isHexText_sampleWorld rfl hanswer hplain (List.Perm.refl _)
    hheader rfl hpath hempty not_mem_nil).1.mpr ⟨rfl, ?_, ?_⟩
  · simp [rootRequest, sampleRequest]
  · exact DigestAnswer.key_not_taken isHexText_sampleWorld hanswer hempty not_mem_nil
      (by decide) (by decide) (by decide) _

def acceptsTargets (policy : PolicyEnforcer) : List (Text × Text) → Option (List Bool)
  | [] => some []
  | (cnonce, target) :: rest => do
      let uri ← Uri.parse .http1 target
      let path ← (canonicalizePath uri.path).toOption
      let req : Request .http1 :=
        { method := "GET"
          uri
          headers := ⟨[(Header.authorization, .fromStatic (sampleAuthorization cnonce target))]⟩ }
      let result := policy.evaluateDigestAuth sampleWorld req sampleDigestConfig "a.io" path
      return result.1.isNone :: (← acceptsTargets result.2 rest)

/-- **Headers that are refused.**  The answer of a user to a fresh challenge is refused for
`/a,b`, which falls apart at its comma, and for `/%61` and `/?`, which are not what the proxy
makes of them.  With the client nonce `c` it is accepted for `/a:/b`, but not after it was
accepted with `c:/a` for `/b`: these two are remembered under one key. -/
theorem digest_header_refused :
    (∀ cnonce uri, cnonce ≠ [] →
      (sampleAnswer cnonce uri).Answers sampleWorld sampleDigestConfig 0) ∧
      acceptsTargets {} [("c", "/a,b")] = some [false] ∧
      acceptsTargets {} [("c", "/%61")] = some [false] ∧
      acceptsTargets {} [("c", "/?")] = some [false] ∧
      acceptsTargets {} [("c", "/a:/b")] = some [true] ∧
      acceptsTargets {} [("c:/a", "/b"), ("c", "/a:/b")] = some [true, false] := by
  refine ⟨fun cnonce uri hcnonce => answers_sampleAnswer hcnonce uri, ?_, ?_, ?_, ?_, ?_⟩ <;>
    decide +kernel

end Sample

end PxxlEdge
