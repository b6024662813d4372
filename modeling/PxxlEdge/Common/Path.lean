import PxxlEdge.Common.Types
import PxxlEdge.Lib.Utf8

/-!
Host names and request paths: how a host is normalised, how a raw path is
turned into the canonical path that routing, the policy checks and the upstream
are meant to agree on, and which path routes a path matches.
-/

namespace PxxlEdge

open RustStd List

/-! ### Hosts -/

def hostWithoutPort (host : Text) : Option Text :=
  let trimmed := host.trim
  if trimmed = [] then none
  else if trimmed.startsWith "[" then
    (trimmed.splitOn ']').head?.map (Text.trimStartMatches '[')
  else (trimmed.splitOn ':').head?

def normalizeDomain (domain : Text) : Text :=
  (((hostWithoutPort domain).getD domain).trimEndMatches '.').toAsciiLowercase

lemma hostWithoutPort_eq {before body port after : Text} (hne : body ≠ [])
    (hbefore : ∀ c ∈ before, Text.isWhitespace c = true)
    (hafter : ∀ c ∈ after, Text.isWhitespace c = true)
    (hbody : ∀ c ∈ body, Text.isWhitespace c = false ∧ c ≠ '[' ∧ c ≠ ':')
    (hport : port = [] ∨ ∃ p, port = ':' :: p) :
    hostWithoutPort (before ++ (body ++ port ++ after)) = some body := by
  obtain ⟨first, rest, rfl⟩ := exists_cons_of_ne_nil hne
  have hfirst := hbody first mem_cons_self
  have hcolon : ':' ∉ first :: rest := fun hmem => (hbody _ hmem).2.2 rfl
  -- what is left of the port after trimming is empty or starts with the colon
  obtain ⟨port', htrim, hport'⟩ : ∃ port',
      Text.trim (before ++ (first :: rest ++ port ++ after)) = first :: rest ++ port' ∧
        (port' = [] ∨ ∃ p, port' = ':' :: p) := by
    have hstart :
        Text.trimStart (first :: rest ++ port ++ after) = first :: rest ++ port ++ after :=
      dropWhile_cons_of_neg (by simp [hfirst.1])
    rw [Text.trim_append_of_all_ws hbefore, Text.trim, hstart, Text.rdropWhile_append_of_all hafter]
    rcases hport with rfl | ⟨p, rfl⟩
    · refine ⟨[], ?_, .inl rfl⟩
      rw [append_nil, rdropWhile_eq_self_iff]
      intro hl
      simp [(hbody _ (getLast_mem hl)).1]
    · obtain ⟨p', hp'⟩ := Text.exists_rdropWhile_append_cons (p := Text.isWhitespace) (c := ':')
        (by decide) (first :: rest) p
      exact ⟨':' :: p', hp', .inr ⟨p', rfl⟩⟩
  have hbracket : Text.startsWith (first :: rest ++ port') ['['] = false := by
    simp [Text.startsWith, List.isPrefixOf, hfirst.2.1.symm]
  rw [hostWithoutPort, htrim, if_neg (by simp), if_neg (by simpa using hbracket)]
  rcases hport' with rfl | ⟨p, rfl⟩
  · rw [append_nil, splitOn_eq_singleton hcolon, head?_cons]
  · rw [splitOn_append_cons_self_of_not_mem hcolon, head?_cons]

lemma normalizeDomain_eq_self {domain : Text} (hne : domain ≠ [])
    (hplain : ∀ c ∈ domain, (Text.isWhitespace c = false ∧ c ≠ '[' ∧ c ≠ ':') ∧ c.toLower = c)
    (hlast : domain.getLast? ≠ some '.') : normalizeDomain domain = domain := by
  have hhost : hostWithoutPort domain = some domain := by
    have h : hostWithoutPort ([] ++ (domain ++ [] ++ [])) = some domain :=
      hostWithoutPort_eq hne (by simp) (by simp) (fun c hc => (hplain c hc).1) (.inl rfl)
    simpa using h
  have hdots : domain.trimEndMatches '.' = domain := by
    rw [Text.trimEndMatches, rdropWhile_eq_self_iff]
    intro hl hdot
    rw [getLast?_eq_some_getLast hl] at hlast
    exact hlast (congrArg some (beq_iff_eq.mp hdot))
  rw [normalizeDomain, hhost, Option.getD_some, hdots, Text.toAsciiLowercase]
  exact (map_congr_left fun c hc => (hplain c hc).2).trans (map_id _)

/-! ### Percent-decoding -/

def hexValue (byte : UInt8) : Option UInt8 :=
  if 48 ≤ byte ∧ byte ≤ 57 then some (byte - 48)
  else if 97 ≤ byte ∧ byte ≤ 102 then some (byte - 97 + 10)
  else if 65 ≤ byte ∧ byte ≤ 70 then some (byte - 65 + 10)
  else none

def percentDecodeBytes : List UInt8 → Option (List UInt8)
  | [] => some []
  | b :: rest =>
    if b = 37 then
      match rest with
      | h :: l :: rest => do
          let high ← hexValue h
          let low ← hexValue l
          let output ← percentDecodeBytes rest
          return ((high <<< 4) ||| low) :: output
      | _ => none
    else (percentDecodeBytes rest).map (b :: ·)

def percentDecodeUtf8 (input : Text) : Except Text Text :=
  match percentDecodeBytes input.asBytes with
  | none => .error "invalid percent encoding"
  | some output =>
    match Text.fromUtf8 output with
    | none => .error "path percent-decoding produced invalid UTF-8"
    | some text => .ok text

def percentDecodeRounds : ℕ → Text → Except Text Text
  | 0, decoded => .ok decoded
  | rounds + 1, decoded => do
      let next ← percentDecodeUtf8 decoded
      if next = decoded then .ok next else percentDecodeRounds rounds next

/-! ### Canonical paths -/

def pushSegment (segments : List Text) (segment : Text) : List Text :=
  if segment = [] ∨ segment = "." then segments
  else if segment = ".." then segments.dropLast
  else segments ++ [segment]

def joinSegments (segments : List Text) (trailingSlash : Bool) : Text :=
  if segments = [] then "/"
  else '/' :: List.intercalate "/".toList segments ++ if trailingSlash then "/".toList else []

def canonicalizePath (path : Text) : Except Text Text :=
  if path = [] then .ok "/"
  else if ¬ path.startsWith "/" then .error "path must start with '/'"
  else do
    let decoded ← percentDecodeRounds 4 path
    if decoded.asBytes.any fun byte => byte < 0x20 || byte == 0x7f then
      .error "path contains control characters"
    else
      let decoded : Text := decoded.map fun c => if c = '\\' then '/' else c
      .ok (joinSegments ((decoded.splitOn '/').foldl pushSegment []) (decoded.endsWith "/"))

lemma joinSegments_slash (segments : List Text) (b : Bool) :
    (joinSegments segments b).head? = some '/' := by
  rw [joinSegments]
  split <;> simp

lemma canonicalizePath_slash {path c : Text} (h : canonicalizePath path = .ok c) :
    c.head? = some '/' := by
  rw [canonicalizePath] at h
  split at h
  · cases h
    rfl
  · split at h
    · cases h
    · cases hdec : percentDecodeRounds 4 path with
      | error e => simp [hdec, bind, Except.bind] at h
      | ok decoded =>
        simp only [hdec, bind, Except.bind] at h
        split at h
        · cases h
        · cases h
          exact joinSegments_slash _ _

/-! ### Path routes -/

def normalizePathPrefix (raw : Text) : Text :=
  if raw.trim = [] ∨ raw = "/" then "/"
  else (if raw.startsWith "/" then raw else '/' :: raw).trimEndMatches '/'

lemma trim_ne_nil_of_startsWith {p : Text} (h : p.startsWith "/" = true) : p.trim ≠ [] := by
  obtain ⟨rest, rfl⟩ := isPrefixOf_iff_prefix.mp h
  intro hblank
  have hmem : '/' ∈ Text.trimStart ("/" ++ rest) := by
    simp [Text.trimStart, Text.isWhitespace]
  have hall := rdropWhile_eq_nil_iff.mp hblank '/' hmem
  exact absurd hall (by decide)

def NormalPrefix (p : Text) : Prop :=
  p = "/" ∨ p.startsWith "/" = true ∧ p.endsWith "/" = false

lemma normalizePathPrefix_of_normal {p : Text} (h : NormalPrefix p) :
    normalizePathPrefix p = p := by
  rw [normalizePathPrefix]
  rcases h with rfl | ⟨hstart, hend⟩
  · exact if_pos (.inr rfl)
  · have hroot : p ≠ "/" := by
      rintro rfl
      exact absurd hend (by decide)
    rw [if_neg (not_or.mpr ⟨trim_ne_nil_of_startsWith hstart, hroot⟩), if_pos hstart]
    exact Text.trimEndMatches_eq_self_iff.mpr hend

lemma normalPrefix_of_mem {raw : Text} {c : Char} (hmem : c ∈ raw) (hc : c ≠ '/') :
    NormalPrefix (normalizePathPrefix raw) := by
  rw [normalizePathPrefix]
  split
  · exact .inl rfl
  refine .inr ⟨?_, Text.endsWith_trimEndMatches _ _⟩
  -- the slash in front stands before a character that is not trimmed
  obtain ⟨s, t, hst⟩ : ∃ s t, (if raw.startsWith "/" then raw else '/' :: raw) =
      '/' :: s ++ c :: t := by
    split
    · next hstart =>
      obtain ⟨rest, rfl⟩ := isPrefixOf_iff_prefix.mp hstart
      have hrest : c ∈ rest := by simpa [hc] using hmem
      obtain ⟨s, t, rfl⟩ := append_of_mem hrest
      exact ⟨s, t, rfl⟩
    · obtain ⟨s, t, rfl⟩ := append_of_mem hmem
      exact ⟨s, t, rfl⟩
  obtain ⟨t', ht'⟩ := Text.exists_rdropWhile_append_cons (p := (· == '/'))
    (beq_eq_false_iff_ne.mpr hc) ('/' :: s) t
  rw [hst, Text.trimEndMatches, ht']
  exact isPrefixOf_iff_prefix.mpr ⟨s ++ c :: t', rfl⟩

/-- **Normal prefixes.**  A prefix is brought to its normal form, which is kept from then on,
exactly unless it consists of two or more slashes. -/
theorem path_prefix_normal_iff (raw : Text) :
    NormalPrefix (normalizePathPrefix raw) ∧
        normalizePathPrefix (normalizePathPrefix raw) = normalizePathPrefix raw ↔
      ¬ (2 ≤ raw.length ∧ ∀ c ∈ raw, c = '/') := by
  constructor
  · rintro ⟨hnormal, -⟩ ⟨htwo, hall⟩
    obtain ⟨n, rfl⟩ : ∃ n, raw = '/' :: '/' :: replicate n '/' := by
      rw [eq_replicate_of_mem hall, ← Nat.sub_add_cancel htwo]
      exact ⟨_, rfl⟩
    have hstart : Text.startsWith ('/' :: '/' :: replicate n '/') "/" = true := rfl
    have hempty : normalizePathPrefix ('/' :: '/' :: replicate n '/') = [] := by
      rw [normalizePathPrefix, if_neg (not_or.mpr ⟨trim_ne_nil_of_startsWith hstart, by simp⟩),
        if_pos hstart, Text.trimEndMatches, rdropWhile_eq_nil_iff]
      exact fun c hc => beq_iff_eq.mpr (hall c hc)
    rw [hempty] at hnormal
    exact absurd hnormal (by simp [NormalPrefix, Text.startsWith])
  · intro h
    have hnormal : NormalPrefix (normalizePathPrefix raw) := by
      by_cases hall : ∀ c ∈ raw, c = '/'
      · have hshort : raw.length < 2 := not_le.mp fun htwo => h ⟨htwo, hall⟩
        rw [eq_replicate_of_mem hall]
        interval_cases raw.length <;> exact .inl rfl
      · obtain ⟨c, hmem, hc⟩ := not_forall₂.mp hall
        exact normalPrefix_of_mem hmem hc
    exact ⟨hnormal, normalizePathPrefix_of_normal hnormal⟩

/-- Two slashes become nothing, and nothing becomes the root. -/
theorem path_prefix_two_slashes :
    normalizePathPrefix "//" = [] ∧ normalizePathPrefix (normalizePathPrefix "//") = "/" := by
  decide

def PathRoute.matches (p : PathRoute) (path : Text) : Bool :=
  p.pathPrefix == "/" || path == p.pathPrefix ||
    path.startsWith (p.pathPrefix.trimEndMatches '/' ++ "/")

lemma trimEndMatches_of_normal {raw : Text} (h : normalizePathPrefix raw = raw)
    (hne : raw ≠ "/") : raw.trimEndMatches '/' = raw := by
  rw [normalizePathPrefix] at h
  split at h
  · exact absurd h.symm hne
  · next hcond =>
    split at h
    · exact h
    · next hslash =>
      -- a slash in front of `raw` cannot be trimmed off at the end
      have hpre : raw <+: '/' :: raw := by
        conv_lhs => rw [← h]
        exact rdropWhile_prefix _ _
      cases raw with
      | nil => exact absurd (.inl rfl) hcond
      | cons c raw =>
        obtain rfl : c = '/' := (cons_prefix_cons.mp hpre).1
        exact absurd (by simp [Text.startsWith]) hslash

lemma isPrefix_of_matches {p : PathRoute} {path : Text}
    (hnormal : normalizePathPrefix p.pathPrefix = p.pathPrefix) (hpath : path.head? = some '/')
    (h : p.matches path = true) : p.pathPrefix <+: path := by
  simp only [PathRoute.matches, Bool.or_eq_true, beq_iff_eq, or_assoc] at h
  by_cases hroot : p.pathPrefix = "/"
  · rw [hroot]
    cases path with
    | nil => simp at hpath
    | cons c path =>
      obtain rfl : c = '/' := by simpa using hpath
      exact ⟨path, rfl⟩
  · rcases h with h | rfl | h
    · exact absurd h hroot
    · exact prefix_rfl
    · rw [trimEndMatches_of_normal hnormal hroot, Text.startsWith, isPrefixOf_iff_prefix] at h
      exact (prefix_append _ _).trans h

end PxxlEdge
