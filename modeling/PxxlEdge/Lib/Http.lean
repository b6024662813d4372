import PxxlEdge.Lib.Utf8

/-!
HTTP messages, as the `http` crate has them: header names and values, header
maps, and request URIs.

The crate's own tables of legal characters are not part of any program that
uses it, so they are a parameter, `Grammar`, and every result holds for all of
them; `Grammar.http1` is the instance that runs.
-/

namespace Http

open RustStd List

/-! ### The character classes -/

structure Grammar where
  /-- legal in the path of a URI -/
  pathChar : Char → Bool
  /-- legal in the query of a URI -/
  queryChar : Char → Bool
  /-- legal in a header name -/
  tokenChar : Char → Bool
  /-- accepted by `HeaderValue::from_str` -/
  valueByte : UInt8 → Bool
  /-- accepted by `HeaderValue::to_str` -/
  visibleByte : UInt8 → Bool
  /-- the scheme and authority in front of a path, of an absolute URI -/
  splitOrigin : Text → Option (Text × Text × Text)
  /-- visible ASCII is legal in a header value -/
  valueByte_visible : ∀ b, 32 ≤ b → b ≤ 126 → valueByte b = true

def splitScheme : Text → Option (Text × Text)
  | ':' :: '/' :: '/' :: rest => some ([], rest)
  | c :: rest => (splitScheme rest).map fun p => (c :: p.1, p.2)
  | [] => none

def Grammar.http1 : Grammar where
  pathChar c :=
    let n := c.toNat
    n == 0x21 || n == 0x22 || (0x24 ≤ n && n ≤ 0x3B) || n == 0x3D || (0x40 ≤ n && n ≤ 0x5F) ||
      (0x61 ≤ n && n ≤ 0x7E) || 0x7F ≤ n
  queryChar c :=
    let n := c.toNat
    n == 0x21 || (0x24 ≤ n && n ≤ 0x3B) || n == 0x3D || 0x3F ≤ n
  tokenChar c :=
    let n := c.toNat
    n == 0x21 || (0x23 ≤ n && n ≤ 0x27) || n == 0x2A || n == 0x2B || n == 0x2D || n == 0x2E ||
      (0x30 ≤ n && n ≤ 0x39) || (0x41 ≤ n && n ≤ 0x5A) || (0x5E ≤ n && n ≤ 0x7A) ||
      n == 0x7C || n == 0x7E
  valueByte b := (32 ≤ b && b != 127) || b == 9
  visibleByte b := (32 ≤ b && b < 127) || b == 9
  splitOrigin s :=
    (splitScheme s).map fun p =>
      (p.1, p.2.takeWhile (fun c => c != '/' && c != '?' && c != '#'),
        p.2.dropWhile (fun c => c != '/' && c != '?' && c != '#'))
  valueByte_visible b h₁ h₂ := by
    have hne : b ≠ 127 := by
      rintro rfl
      exact absurd h₂ (by decide)
    simp [h₁, hne]

structure Grammar.Standard (G : Grammar) : Prop where
  tokenChar_toLower : ∀ c : Char, G.tokenChar c.toLower = G.tokenChar c
  tokenChar_whitespace : ∀ c, Text.isWhitespace c = true → G.tokenChar c = false
  visibleByte_iff : ∀ b, G.visibleByte b = true ↔ b = 9 ∨ 32 ≤ b ∧ b ≤ 126

lemma Grammar.http1_standard : Grammar.http1.Standard where
  tokenChar_toLower c := by
    have hletters : ∀ n ∈ Finset.Icc 65 90, Grammar.http1.tokenChar (Char.ofNat n).toLower =
        Grammar.http1.tokenChar (Char.ofNat n) := by decide
    rcases Text.toLower_eq_self_or c with h | ⟨n, hn, rfl⟩
    · rw [h]
    · exact hletters n hn
  tokenChar_whitespace c h := by
    simp only [Text.isWhitespace, Bool.or_eq_true, Bool.and_eq_true, beq_iff_eq,
      decide_eq_true_eq] at h
    simp only [Grammar.http1, Bool.or_eq_false_iff, Bool.and_eq_false_iff, beq_eq_false_iff_ne,
      decide_eq_false_iff_not]
    omega
  visibleByte_iff b := by
    have hlt : b < 127 ↔ b ≤ 126 := by
      rw [UInt8.lt_iff_toNat_lt, UInt8.le_iff_toNat_le]
      exact Nat.lt_succ_iff
    simp [Grammar.http1, hlt, or_comm]

/-! ### Header names and values -/

def Grammar.parseName (G : Grammar) (t : Text) : Option Text :=
  if t ≠ [] ∧ t.all G.tokenChar then some t.toAsciiLowercase else none

structure HeaderName (G : Grammar) where
  text : Text
  legal : G.parseName text = some text

lemma Grammar.parseName_eq_some_iff (G : Grammar) {t n : Text} :
    G.parseName t = some n ↔ (t ≠ [] ∧ ∀ c ∈ t, G.tokenChar c = true) ∧ t.toAsciiLowercase = n := by
  rw [parseName]
  split
  · next h => simp_all
  · next h => simp_all

abbrev HeaderValue := List UInt8

def HeaderValue.fromStatic (t : Text) : HeaderValue := t.asBytes

def Grammar.parseValue (G : Grammar) (t : Text) : Option HeaderValue :=
  if t.asBytes.all G.valueByte then some t.asBytes else none

def isVisible (t : Text) : Bool := t.all fun c => ' ' ≤ c && c ≤ '~'

lemma Grammar.parseValue_visible (G : Grammar) {t : Text} (h : isVisible t = true) :
    G.parseValue t = some t.asBytes := by
  refine if_pos (all_eq_true.mpr fun b hb => ?_)
  obtain ⟨c, hc, hbc⟩ := mem_flatMap.mp hb
  have hvisible := all_eq_true.mp h c hc
  rw [Bool.and_eq_true, decide_eq_true_eq, decide_eq_true_eq] at hvisible
  have hlow : 32 ≤ c.val.toNat := hvisible.1
  have hhigh : c.val.toNat ≤ 126 := hvisible.2
  -- the character is encoded as one byte, its code point
  have hsize : c.utf8Size = 1 :=
    Char.utf8Size_eq_one_iff.mpr (UInt32.le_iff_toNat_le.mpr (hhigh.trans (by decide)))
  rw [String.utf8EncodeChar_eq_singleton hsize, mem_singleton] at hbc
  have hb : b.toNat = c.val.toNat := by
    rw [hbc, UInt32.toNat_toUInt8]
    omega
  exact G.valueByte_visible b (UInt8.le_iff_toNat_le.mpr (by simpa [hb] using hlow))
    (UInt8.le_iff_toNat_le.mpr (by simpa [hb] using hhigh))

lemma isVisible_toDigits (n : ℕ) : isVisible (Nat.toDigits 10 n) = true := by
  refine all_eq_true.mpr fun c hc => ?_
  have hdigit := Nat.isDigit_of_mem_toDigits (by decide) (by decide) hc
  rw [Char.isDigit, Bool.and_eq_true, decide_eq_true_eq, decide_eq_true_eq] at hdigit
  have hlow : 48 ≤ c.val.toNat := hdigit.1
  have hhigh : c.val.toNat ≤ 57 := hdigit.2
  rw [Bool.and_eq_true, decide_eq_true_eq, decide_eq_true_eq]
  exact ⟨show 32 ≤ c.val.toNat by omega, show c.val.toNat ≤ 126 by omega⟩

def Grammar.toStr (G : Grammar) (v : HeaderValue) : Option Text :=
  if v.all G.visibleByte then some (v.map fun b => Char.ofNat b.toNat) else none

lemma Grammar.toStr_append (G : Grammar) (v w : HeaderValue) :
    G.toStr (v ++ w) = (G.toStr v).bind fun s => (G.toStr w).map (s ++ ·) := by
  by_cases hv : v.all G.visibleByte <;> by_cases hw : w.all G.visibleByte <;>
    simp [Grammar.toStr, hv, hw]

/-! ### Header maps -/

structure HeaderMap where
  entries : List (Text × HeaderValue)
deriving DecidableEq, Repr

namespace HeaderMap

variable (h : HeaderMap) (n m : Text) (v : HeaderValue)

def getAll : List HeaderValue := (h.entries.filter fun e => e.1 == n).map Prod.snd

def get : Option HeaderValue := (h.getAll n).head?

def containsKey : Bool := h.entries.any fun e => e.1 == n

def keys : List Text := h.entries.map Prod.fst

def remove : HeaderMap := ⟨h.entries.filter fun e => e.1 != n⟩

def insert : HeaderMap := ⟨(h.remove n).entries ++ [(n, v)]⟩

def removeAll (h : HeaderMap) (ns : List Text) : HeaderMap := ns.foldl remove h

def insertAll (h : HeaderMap) (es : List (Text × HeaderValue)) : HeaderMap :=
  es.foldl (fun h e => h.insert e.1 e.2) h

def lastValue (es : List (Text × HeaderValue)) (n : Text) : Option HeaderValue :=
  es.foldl (fun v e => if n = e.1 then some e.2 else v) none

lemma getAll_remove : (h.remove n).getAll m = if m = n then [] else h.getAll m := by
  rw [getAll, remove, filter_filter]
  split
  · next hmn =>
    subst hmn
    simp
  · next hmn =>
    rw [getAll]
    congr 1
    refine filter_congr fun e _ => ?_
    by_cases he : e.1 = m
    · simp [he, hmn]
    · simp [he]

lemma getAll_insert :
    (h.insert n v).getAll m = if m = n then [v] else h.getAll m := by
  have hrem := getAll_remove h n m
  rw [getAll] at hrem ⊢
  rw [insert, filter_append, map_append, hrem]
  split
  · next hmn => simp [hmn]
  · next hmn => simp [Ne.symm hmn]

lemma getAll_removeAll (ns : List Text) :
    (h.removeAll ns).getAll m = if m ∈ ns then [] else h.getAll m := by
  induction ns generalizing h with
  | nil => simp [removeAll]
  | cons n ns ih =>
    rw [removeAll, foldl_cons, ← removeAll, ih, getAll_remove]
    by_cases hm : m ∈ ns
    · simp [hm]
    · by_cases hmn : m = n <;> simp [hm, hmn]

lemma foldl_lastValue (es : List (Text × HeaderValue)) (v : Option HeaderValue) :
    es.foldl (fun v e => if n = e.1 then some e.2 else v) v = (lastValue es n).or v := by
  induction es generalizing v with
  | nil => simp [lastValue]
  | cons e es ih =>
    rw [lastValue, foldl_cons, foldl_cons, ih, ih]
    split <;> simp

lemma lastValue_append (es fs : List (Text × HeaderValue)) :
    lastValue (es ++ fs) n = (lastValue fs n).or (lastValue es n) := by
  rw [lastValue, foldl_append, foldl_lastValue]
  rfl

lemma getAll_insertAll (es : List (Text × HeaderValue)) :
    (h.insertAll es).getAll m = (lastValue es m).elim (h.getAll m) fun v => [v] := by
  induction es generalizing h with
  | nil => rfl
  | cons e es ih =>
    have hlast : lastValue (e :: es) m =
        (lastValue es m).or (if m = e.1 then some e.2 else none) := foldl_lastValue m es _
    rw [insertAll, foldl_cons, ← insertAll, ih, hlast, getAll_insert]
    cases lastValue es m with
    | some v => rfl
    | none => by_cases hm : m = e.1 <;> simp [hm]

lemma insertAll_append (es fs : List (Text × HeaderValue)) :
    h.insertAll (es ++ fs) = (h.insertAll es).insertAll fs := foldl_append

lemma lastValue_eq_none {es : List (Text × HeaderValue)} {n : Text} :
    lastValue es n = none ↔ n ∉ es.map Prod.fst := by
  induction es using List.reverseRecOn with
  | nil => simp [lastValue]
  | append_singleton es e ih =>
    rw [lastValue_append, Option.or_eq_none_iff, ih, map_append, mem_append, not_or,
      and_comm]
    simp [lastValue]

lemma lastValue_of_nodup {es : List (Text × HeaderValue)} {n : Text} {v : HeaderValue}
    (hnodup : (es.map Prod.fst).Nodup) (hmem : (n, v) ∈ es) : lastValue es n = some v := by
  induction es using List.reverseRecOn with
  | nil => cases hmem
  | append_singleton es e ih =>
    rw [map_append, nodup_append] at hnodup
    rw [lastValue_append]
    rcases mem_append.mp hmem with hes | he
    · have hne : n ≠ e.1 :=
        hnodup.2.2 n (mem_map_of_mem hes) e.1 (by simp)
      have hlast : lastValue [e] n = none := by simp [lastValue, hne]
      rw [hlast, Option.none_or, ih hnodup.1 hes]
    · obtain rfl := mem_singleton.mp he
      simp [lastValue]

lemma containsKey_iff : h.containsKey n = true ↔ h.getAll n ≠ [] := by
  simp [containsKey, getAll]

end HeaderMap

/-! ### URIs -/

structure Uri (G : Grammar) where
  scheme : Option Text := none
  authority : Option Text := none
  path : Text
  query : Option Text := none
  path_legal : ∀ c ∈ path, c ≠ '?' ∧ c ≠ '#' ∧ G.pathChar c = true
  query_legal : ∀ q ∈ query, ∀ c ∈ q, c ≠ '#' ∧ G.queryChar c = true

namespace Uri

variable {G : Grammar}

def inPath (c : Char) : Bool := c != '?' && c != '#'

lemma inPath_iff {c : Char} : inPath c = true ↔ c ≠ '?' ∧ c ≠ '#' := by
  simp [inPath]

def pathPart (s : Text) : Text := s.takeWhile inPath

def queryPart (s : Text) : Option Text :=
  match s.dropWhile inPath with
  | '?' :: rest => some (rest.takeWhile (· != '#'))
  | _ => none

def parsePathAndQuery (G : Grammar) (scheme authority : Option Text) (s : Text) :
    Option (Uri G) :=
  if h : (pathPart s).all G.pathChar ∧ ∀ q ∈ queryPart s, q.all G.queryChar then
    some
      { scheme, authority, path := pathPart s, query := queryPart s
        path_legal := fun c hc => by
          have hd := inPath_iff.mp (mem_takeWhile_imp hc)
          have hl := all_eq_true.mp h.1 c hc
          exact ⟨hd.1, hd.2, hl⟩
        query_legal := fun q hq c hc => by
          have hl := all_eq_true.mp (h.2 q hq) c hc
          refine ⟨?_, hl⟩
          rw [queryPart] at hq
          split at hq
          · obtain rfl : _ = q := by simpa using hq
            simpa using mem_takeWhile_imp hc
          · simp at hq }
  else none

lemma parsePathAndQuery_eq_some (scheme authority : Option Text) {s : Text}
    (hp : ∀ c ∈ pathPart s, G.pathChar c = true)
    (hq : ∀ q ∈ queryPart s, ∀ c ∈ q, G.queryChar c = true) :
    ∃ u : Uri G, parsePathAndQuery G scheme authority s = some u ∧ u.scheme = scheme ∧
      u.authority = authority ∧ u.path = pathPart s ∧ u.query = queryPart s := by
  have hlegal : (pathPart s).all G.pathChar ∧ ∀ q ∈ queryPart s, q.all G.queryChar :=
    ⟨all_eq_true.mpr hp, fun q hmem => all_eq_true.mpr (hq q hmem)⟩
  rw [parsePathAndQuery, dif_pos hlegal]
  exact ⟨_, rfl, rfl, rfl, rfl, rfl⟩

lemma parts_of_parsePathAndQuery {scheme authority : Option Text} {s : Text} {u : Uri G}
    (h : parsePathAndQuery G scheme authority s = some u) :
    u.scheme = scheme ∧ u.authority = authority ∧ u.path = pathPart s ∧ u.query = queryPart s := by
  rw [parsePathAndQuery] at h
  split at h
  · cases h
    exact ⟨rfl, rfl, rfl, rfl⟩
  · cases h

lemma pathPart_append {c : Text} (hc : ∀ x ∈ c, x ≠ '?' ∧ x ≠ '#') (q : Text) :
    pathPart c = c ∧ pathPart (c ++ '?' :: q) = c := by
  have hin : ∀ x ∈ c, inPath x = true := fun x hx => inPath_iff.mpr (hc x hx)
  have hstop : ¬ inPath '?' = true := by decide
  refine ⟨takeWhile_eq_self_iff.mpr hin, ?_⟩
  rw [pathPart, takeWhile_append_of_pos hin, takeWhile_cons_of_neg hstop,
    append_nil]

lemma queryPart_append {c : Text} (hc : ∀ x ∈ c, x ≠ '?' ∧ x ≠ '#') {q : Text}
    (hq : ∀ x ∈ q, x ≠ '#') : queryPart c = none ∧ queryPart (c ++ '?' :: q) = some q := by
  have hin : ∀ x ∈ c, inPath x = true := fun x hx => inPath_iff.mpr (hc x hx)
  have hstop : ¬ inPath '?' = true := by decide
  constructor
  · rw [queryPart, dropWhile_eq_nil_iff.mpr hin]
  · rw [queryPart, dropWhile_append_of_pos hin, dropWhile_cons_of_neg hstop]
    have hall : q.takeWhile (· != '#') = q :=
      takeWhile_eq_self_iff.mpr fun x hx => by simpa using hq x hx
    simp only [hall]

def queryText : Option Text → Text
  | some q => '?' :: q
  | none => []

lemma parsePathAndQuery_append (scheme authority : Option Text) {c : Text}
    (hc : ∀ x ∈ c, x ≠ '?' ∧ x ≠ '#' ∧ G.pathChar x = true) {query : Option Text}
    (hq : ∀ q ∈ query, ∀ x ∈ q, x ≠ '#' ∧ G.queryChar x = true) :
    ∃ u : Uri G, parsePathAndQuery G scheme authority (c ++ queryText query) = some u ∧
      u.scheme = scheme ∧ u.authority = authority ∧ u.path = c ∧ u.query = query := by
  have hdelim : ∀ x ∈ c, x ≠ '?' ∧ x ≠ '#' := fun x hx => ⟨(hc x hx).1, (hc x hx).2.1⟩
  obtain ⟨hpath, hquery⟩ : pathPart (c ++ queryText query) = c ∧
      queryPart (c ++ queryText query) = query := by
    cases query with
    | none =>
      rw [queryText, append_nil]
      exact ⟨(pathPart_append hdelim []).1, (queryPart_append hdelim (q := []) (by simp)).1⟩
    | some q =>
      exact ⟨(pathPart_append hdelim q).2,
        (queryPart_append hdelim fun x hx => (hq q rfl x hx).1).2⟩
  have hparse := parsePathAndQuery_eq_some (G := G) scheme authority (s := c ++ queryText query)
  rw [hpath, hquery] at hparse
  exact hparse (fun x hx => (hc x hx).2.2) fun q hmem x hx => (hq q hmem x hx).2

def parse (G : Grammar) (s : Text) : Option (Uri G) :=
  if s.head? = some '/' then parsePathAndQuery G none none s
  else do
    let (scheme, authority, rest) ← G.splitOrigin s
    parsePathAndQuery G (some scheme) (some authority)
      (if rest.head? = some '/' then rest else '/' :: rest)

def pathAndQuery (u : Uri G) : Text :=
  u.path ++ match u.query with
    | some q => '?' :: q
    | none => []

lemma pathAndQuery_eq (u : Uri G) : u.pathAndQuery = u.path ++ queryText u.query := by
  rw [pathAndQuery]
  cases u.query <;> rfl

def originForm (u : Uri G) : Text :=
  if u.scheme = none ∧ u.authority ≠ none then "/" else u.pathAndQuery

def display (u : Uri G) : Text :=
  (match u.scheme with
    | some s => s ++ "://"
    | none => []) ++ u.authority.getD [] ++ u.pathAndQuery

lemma forall_inPath_of_queryPart_eq_none {s : Text} (hquery : queryPart s = none)
    (hfragment : '#' ∉ s) : ∀ x ∈ s, x ≠ '?' ∧ x ≠ '#' := by
  have hnil : s.dropWhile inPath = [] := by
    cases hdrop : s.dropWhile inPath with
    | nil => rfl
    | cons c rest =>
      -- the path ends at a question mark, as there is no number sign
      have hc : inPath c = false := by
        have hhead := head?_dropWhile_not inPath s
        rw [hdrop] at hhead
        simpa using hhead
      have hmem : c ∈ s := (dropWhile_sublist inPath).subset (hdrop ▸ mem_cons_self)
      have hquestion : c = '?' := by
        by_contra hne
        have hin : inPath c = true := inPath_iff.mpr ⟨hne, fun h => hfragment (h ▸ hmem)⟩
        rw [hc] at hin
        cases hin
      rw [queryPart, hdrop, hquestion] at hquery
      cases hquery
  intro x hx
  exact inPath_iff.mp (dropWhile_eq_nil_iff.mp hnil x hx)

end Uri

/-! ### Origins -/

def StartsPath (t : Text) : Prop := ∃ c ∈ t.head?, c = '/' ∨ c = '?' ∨ c = '#'

def Grammar.CutsOrigin (G : Grammar) : Prop :=
  ∀ s scheme authority rest, G.splitOrigin s = some (scheme, authority, rest) → authority ≠ [] →
    (rest = [] ∨ StartsPath rest) ∧
      ∃ origin : Text, s = origin ++ rest ∧ origin ≠ [] ∧ origin.getLast? ≠ some '/' ∧
        ∀ path, StartsPath path → G.splitOrigin (origin ++ path) = some (scheme, authority, path)

lemma splitScheme_eq_some {s scheme rest : Text} (h : splitScheme s = some (scheme, rest)) :
    s = scheme ++ "://" ++ rest ∧
      ∀ t, splitScheme (scheme ++ "://" ++ t) = some (scheme, t) := by
  fun_induction splitScheme s generalizing scheme with
  | case1 after =>
    cases h
    exact ⟨rfl, fun t => rfl⟩
  | case2 c after hno ih =>
    obtain ⟨⟨scheme', after'⟩, hafter, heq⟩ := Option.map_eq_some_iff.mp h
    cases heq
    obtain ⟨rfl, hagain⟩ := ih hafter
    refine ⟨rfl, fun t => ?_⟩
    -- the two characters after `c` are of the scheme, or its colon is one of them
    have hskip : splitScheme (c :: (scheme' ++ "://" ++ t)) =
        (splitScheme (scheme' ++ "://" ++ t)).map fun p => (c :: p.1, p.2) := by
      refine splitScheme.eq_2 _ _ fun tail hc htail => ?_
      subst hc
      match scheme', htail with
      | [], htail => cases htail
      | [x], htail => cases htail
      | x :: y :: scheme', htail =>
        cases htail
        exact hno _ rfl rfl
    rw [cons_append, cons_append, hskip, hagain]
    rfl
  | case3 => cases h

lemma cutsOrigin_http1 : Grammar.http1.CutsOrigin := by
  intro s scheme authority rest h hne
  obtain ⟨⟨scheme', after⟩, hscheme, heq⟩ := Option.map_eq_some_iff.mp h
  obtain ⟨rfl, hagain⟩ := splitScheme_eq_some hscheme
  set within : Char → Bool := fun c => c != '/' && c != '?' && c != '#' with hwithin
  obtain ⟨rfl, rfl, rfl⟩ : scheme' = scheme ∧ after.takeWhile within = authority ∧
      after.dropWhile within = rest := by
    simpa using heq
  have hdelim : ∀ c, within c = false ↔ c = '/' ∨ c = '?' ∨ c = '#' := by
    intro c
    simp only [hwithin, Bool.and_eq_false_iff, bne_eq_false_iff_eq, or_assoc]
  refine ⟨?_, scheme' ++ "://" ++ after.takeWhile within, ?_, by simp, ?_, ?_⟩
  · cases hrest : after.dropWhile within with
    | nil => exact .inl rfl
    | cons c rest =>
      have hhead := head?_dropWhile_not within after
      rw [hrest] at hhead
      exact .inr ⟨c, rfl, (hdelim c).mp (by simpa using hhead)⟩
  · rw [append_assoc _ (after.takeWhile within), takeWhile_append_dropWhile]
  · rw [getLast?_append_of_ne_nil _ hne]
    intro hlast
    have hin := mem_takeWhile_imp (mem_of_getLast? hlast)
    rw [(hdelim '/').mpr (.inl rfl)] at hin
    cases hin
  · rintro path ⟨c, hc, hstop⟩
    obtain ⟨tail, rfl⟩ := head?_eq_some_iff.mp hc
    have hcut : ¬ within c = true := by rw [(hdelim c).mpr hstop]; decide
    have hauthority : ∀ x ∈ after.takeWhile within, within x = true := fun x hx =>
      mem_takeWhile_imp hx
    have htake : (after.takeWhile within ++ c :: tail).takeWhile within =
        after.takeWhile within := by
      rw [takeWhile_append_of_pos hauthority, takeWhile_cons_of_neg hcut, append_nil]
    have hdrop : (after.takeWhile within ++ c :: tail).dropWhile within = c :: tail := by
      rw [dropWhile_append_of_pos hauthority, dropWhile_cons_of_neg hcut]
    change (splitScheme _).map (fun p => (p.1, p.2.takeWhile within, p.2.dropWhile within)) = _
    rw [append_assoc _ (after.takeWhile within), hagain, Option.map_some, htake, hdrop]

end Http
