import PxxlEdge.Lib.Placeholders
import PxxlEdge.Proxy.Message

/-!
The text of an error page (`render_error_template` of `http-proxy`): the placeholders of a template
are replaced by the request's values, escaped, one placeholder after the other.
-/

namespace PxxlEdge

open RustStd

def escapeChar (c : Char) : Text :=
  match c with
  | '&' => "&amp;"
  | '<' => "&lt;"
  | '>' => "&gt;"
  | '"' => "&quot;"
  | '\'' => "&#39;"
  | c => [c]

def escapeHtml (input : Text) : Text := input.flatMap escapeChar

def entities : List Text := ["&amp;", "&lt;", "&gt;", "&quot;", "&#39;"]

def IsMarkup (c : Char) : Prop := c ∈ ['<', '>', '"', '\'']

instance : DecidablePred IsMarkup := fun c => inferInstanceAs (Decidable (c ∈ _))

def ErrorPage.values (p : ErrorPage) (canonicalReason : ℕ → Option Text) : List (Text × Text) :=
  [("status_code", Nat.toDigits 10 p.status),
    ("status_text", (canonicalReason p.status).getD "Proxy Error"),
    ("message", p.message),
    ("reason_code", p.reasonCode),
    ("domain", if p.domain = [] then "unknown" else p.domain),
    ("path", if p.path = [] then "/" else p.path),
    ("request_id", p.requestId),
    ("processing_time_ms", Nat.toDigits 10 p.processingTimeMs)]

def ErrorPage.replacements (p : ErrorPage) (canonicalReason : ℕ → Option Text) :
    List (Text × Text) :=
  (p.values canonicalReason).map fun v => (placeholder v.1, escapeHtml v.2)

def renderErrorTemplate (canonicalReason : ℕ → Option Text) (template : Text) (p : ErrorPage) :
    Text :=
  (p.replacements canonicalReason).foldl (fun text e => replaceText e text) template

/-! ### Escaped text -/

lemma escapeChar_cases (c : Char) :
    (escapeChar c ∈ entities ∧ (c = '&' ∨ IsMarkup c)) ∨
      escapeChar c = [c] ∧ c ≠ '&' ∧ ¬ IsMarkup c := by
  unfold escapeChar
  split
  case h_6 hamp hlt hgt hquot hapos =>
    exact .inr ⟨rfl, hamp, by simpa [IsMarkup] using ⟨hlt, hgt, hquot, hapos⟩⟩
  all_goals exact .inl (by decide)

lemma not_isMarkup_of_mem_escapeHtml {s : Text} {c : Char} (hc : c ∈ escapeHtml s) :
    ¬ IsMarkup c := by
  obtain ⟨d, -, hd⟩ := List.mem_flatMap.mp hc
  have hentities : ∀ e ∈ entities, e.filter IsMarkup = [] := by decide
  rcases escapeChar_cases d with ⟨hentity, -⟩ | ⟨hself, -, hplain⟩
  · simpa using List.filter_eq_nil_iff.mp (hentities _ hentity) c hd
  · rw [hself, List.mem_singleton] at hd
    exact hd ▸ hplain

lemma exists_entity_of_ampersand (s : Text) {t : Text} (ht : '&' :: t <:+ escapeHtml s) :
    ∃ entity ∈ entities, entity <+: '&' :: t := by
  have hwhole : ∀ e ∈ entities, ∀ u ∈ e.tails, u.head? = some '&' → u = e := by decide
  induction s with
  | nil => simp [escapeHtml] at ht
  | cons c s ih =>
    obtain ⟨front, hfront⟩ := ht
    rw [escapeHtml, List.flatMap_cons] at hfront
    rcases List.append_eq_append_iff.mp hfront with ⟨u, hu, hrest⟩ | ⟨u, -, hrest⟩
    · cases u with
      | nil => exact ih ⟨[], hrest⟩
      | cons d u =>
        obtain ⟨rfl, rfl⟩ := List.cons.inj hrest
        rcases escapeChar_cases c with ⟨hentity, -⟩ | ⟨hself, hamp, -⟩
        · have := hwhole _ hentity _ ((List.mem_tails _ _).mpr ⟨front, hu.symm⟩) rfl
          exact ⟨_, hentity, this ▸ List.prefix_append _ _⟩
        · have : '&' ∈ escapeChar c := hu ▸ List.mem_append_right _ List.mem_cons_self
          rw [hself, List.mem_singleton] at this
          exact absurd this.symm hamp
    · exact ih ⟨u, hrest.symm⟩

lemma bracesAlone_escapeHtml {s : Text} (h : BracesAlone s) : BracesAlone (escapeHtml s) := by
  have hentities : ∀ e ∈ entities, '{' ∉ e ∧ e.head? = some '&' := by decide
  induction s with
  | nil => trivial
  | cons c s ih =>
    rcases escapeChar_cases c with ⟨hentity, -⟩ | ⟨hself, -⟩
    · exact .append (hentities _ hentity).1 (ih h.2)
    · rw [escapeHtml, List.flatMap_cons, hself, List.singleton_append]
      refine ⟨fun hc => ?_, ih h.2⟩
      obtain ⟨d, hd, hne⟩ := h.1 hc
      obtain ⟨s, rfl⟩ := List.head?_eq_some_iff.mp hd
      rw [List.flatMap_cons, List.head?_append]
      rcases escapeChar_cases d with ⟨hentity, -⟩ | ⟨hself, -⟩
      · exact ⟨'&', by simp [(hentities _ hentity).2], by decide⟩
      · exact ⟨d, by simp [hself], hne⟩

/-! ### The page -/

def placeholderNames : List Text :=
  ["status_code", "status_text", "message", "reason_code", "domain", "path", "request_id",
    "processing_time_ms"]

section Page

variable (canonicalReason : ℕ → Option Text) (p : ErrorPage)

lemma mem_placeholderNames {v : Text × Text} (hv : v ∈ p.values canonicalReason) :
    v.1 ∈ placeholderNames :=
  List.mem_map_of_mem (f := Prod.fst) hv

lemma placeholderTable_replacements : PlaceholderTable (p.replacements canonicalReason) := by
  have hnames : ∀ name ∈ placeholderNames, '{' ∉ name := by decide
  have hapart : placeholderNames.Pairwise fun name name' =>
      ¬ placeholder name <+: placeholder name' ∧ ¬ placeholder name' <+: placeholder name := by
    decide
  constructor
  · rintro e he
    obtain ⟨v, hv, rfl⟩ := List.mem_map.mp he
    exact ⟨v.1, hnames _ (mem_placeholderNames canonicalReason p hv), rfl⟩
  · have hvalues : ((p.values canonicalReason).map Prod.fst).Pairwise _ := hapart
    exact List.pairwise_map.mpr (List.pairwise_map.mp hvalues)

lemma filter_isMarkup_renderErrorTemplate (template : Text) :
    (renderErrorTemplate canonicalReason template p).filter IsMarkup =
      template.filter IsMarkup := by
  have hnames : ∀ name ∈ placeholderNames, (placeholder name).filter IsMarkup = [] := by decide
  apply filter_foldl_replaceText
  all_goals
    intro e he
    obtain ⟨v, hv, rfl⟩ := List.mem_map.mp he
  · exact List.cons_ne_nil _ _
  · exact hnames _ (mem_placeholderNames canonicalReason p hv)
  · exact List.filter_eq_nil_iff.mpr fun c hc => by simpa using not_isMarkup_of_mem_escapeHtml hc

end Page

end PxxlEdge
