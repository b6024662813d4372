import PxxlEdge.Lib.SortedTexts

/-!
Text of queries: string literals and the filter for domains (`crates/storage/src/lib.rs`), and the
lexer they are written for.
-/

namespace PxxlEdge

open RustStd List

def replaceChar (c : Char) (pat s : Text) : Text := s.flatMap fun x => if x = c then pat else [x]

def clickhouseStringLiteral (value : Text) : Text :=
  '\'' :: replaceChar '\'' "\\'" (replaceChar '\\' "\\\\" value) ++ ['\'']

def cleanedDomains (domains : List Text) : List Text :=
  sortDedup ((domains.map fun domain =>
    (domain.trim.trimEndMatches '.').toAsciiLowercase).filter fun domain => domain ≠ [])

def clickhouseDomainFilter (domains : List Text) : Option Text :=
  if cleanedDomains domains = [] then none
  else some ("domain IN (" ++
    intercalate "," ((cleanedDomains domains).map clickhouseStringLiteral) ++ ")")

/-! ### The lexer -/

inductive Token where
  | char (c : Char)
  | literal (value : Text)

inductive LexState where
  | plain
  | quoted (value : Text)
  | escaped (value : Text)

def lex : LexState → Text → Option (List Token)
  | .plain, [] => some []
  | .plain, c :: s =>
    if c = '\'' then lex (.quoted []) s else (lex .plain s).map (.char c :: ·)
  | .quoted value, c :: s =>
    if c = '\\' then lex (.escaped value) s
    else if c = '\'' then (lex .plain s).map (.literal value :: ·)
    else lex (.quoted (value ++ [c])) s
  | .escaped value, c :: s => lex (.quoted (value ++ [c])) s
  | _, [] => none

def LexedAs (text : Text) (tokens : List Token) : Prop :=
  ∀ rest, lex .plain (text ++ rest) = (lex .plain rest).map (tokens ++ ·)

lemma LexedAs.append {text text' : Text} {tokens tokens' : List Token} (h : LexedAs text tokens)
    (h' : LexedAs text' tokens') : LexedAs (text ++ text') (tokens ++ tokens') := by
  intro rest
  rw [append_assoc, h, h', Option.map_map]
  congr 1
  funext more
  exact (append_assoc ..).symm

lemma lexedAs_plain {text : Text} (h : '\'' ∉ text) : LexedAs text (text.map .char) := by
  intro rest
  induction text with
  | nil => simp
  | cons c text ih =>
    rw [mem_cons, not_or] at h
    rw [cons_append, lex, if_neg (Ne.symm h.1), ih h.2, Option.map_map]
    rfl

lemma lex_quoted (value s rest : Text) :
    lex (.quoted value) (replaceChar '\'' "\\'" (replaceChar '\\' "\\\\" s) ++ '\'' :: rest) =
      (lex .plain rest).map (.literal (value ++ s) :: ·) := by
  induction s generalizing value with
  | nil => simp [replaceChar, lex]
  | cons c s ih =>
    have hnext := ih (value ++ [c])
    rw [append_assoc, singleton_append] at hnext
    rw [← hnext]
    by_cases hbackslash : c = '\\'
    · simp [replaceChar, hbackslash, lex]
    · by_cases hquote : c = '\''
      · simp [replaceChar, hquote, lex]
      · simp [replaceChar, hbackslash, hquote, lex]

lemma lexedAs_literal (value : Text) :
    LexedAs (clickhouseStringLiteral value) [.literal value] := by
  intro rest
  rw [clickhouseStringLiteral, cons_append, cons_append, append_assoc, lex, if_pos rfl,
    singleton_append, lex_quoted]
  rfl

lemma lexedAs_list (values : List Text) :
    LexedAs (intercalate "," (values.map clickhouseStringLiteral))
      (intercalate [.char ','] (values.map fun value => [.literal value])) := by
  induction values with
  | nil => exact lexedAs_plain not_mem_nil
  | cons value values ih =>
    cases values with
    | nil => simpa [intercalate] using lexedAs_literal value
    | cons next values =>
      have hcomma : LexedAs "," [.char ','] := lexedAs_plain (by decide)
      simpa [intercalate] using (lexedAs_literal value).append (hcomma.append ih)

/-- **Literals and filters.**  A literal is read as one literal of its value, which ends where it
ends.  A filter is `domain IN (`, the literals of the cleaned domains with commas between them, and
`)`; there is one exactly if there are such domains. -/
theorem clickhouse_text_lexed :
    (∀ value rest, lex .plain (clickhouseStringLiteral value ++ rest) =
        (lex .plain rest).map (.literal value :: ·)) ∧
      ∀ domains, (clickhouseDomainFilter domains = none ↔ cleanedDomains domains = []) ∧
        ∀ text ∈ clickhouseDomainFilter domains, lex .plain text = some
          ("domain IN (".toList.map .char ++
            intercalate [.char ','] ((cleanedDomains domains).map fun domain =>
              [.literal domain]) ++
            [.char ')']) := by
  refine ⟨lexedAs_literal, fun domains => ⟨⟨fun h => ?_, fun h => if_pos h⟩, ?_⟩⟩
  · by_contra hne
    rw [clickhouseDomainFilter, if_neg hne] at h
    cases h
  intro text htext
  rw [clickhouseDomainFilter, Option.mem_def, Option.ite_none_left_eq_some] at htext
  obtain rfl := Option.some.inj htext.2
  have hopen : LexedAs "domain IN (" ("domain IN (".toList.map .char) := lexedAs_plain (by decide)
  have hclose : LexedAs ")" [.char ')'] := lexedAs_plain (by decide)
  have hall := ((hopen.append (lexedAs_list (cleanedDomains domains))).append hclose) []
  rw [append_nil] at hall
  simpa [lex] using hall

end PxxlEdge
