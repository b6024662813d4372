import PxxlEdge.Proxy.Headers
import PxxlEdge.Lib.Fields

/-!
Which headers are removed from a request that is forwarded, and from the answer to
it: those of a fixed list, and those that a `Connection` header nominates.
-/

namespace PxxlEdge

open RustStd Http List

/-! ### Nomination -/

def VisibleValue (value : HeaderValue) : Prop := ∀ b ∈ value, b = 9 ∨ 32 ≤ b ∧ b ≤ 126

instance (value : HeaderValue) : Decidable (VisibleValue value) :=
  inferInstanceAs (Decidable (∀ b ∈ value, b = 9 ∨ 32 ≤ b ∧ b ≤ 126))

def valueChars (value : HeaderValue) : Text := value.map fun b => Char.ofNat b.toNat

def isBlank (c : Char) : Bool := c == ' ' || c == '\t'

def Nominates (value : HeaderValue) (n : Text) : Prop :=
  ∃ before name after : Text, before ++ name ++ after ∈ (valueChars value).splitOn ',' ∧
    (∀ c ∈ before, isBlank c = true) ∧ (∀ c ∈ after, isBlank c = true) ∧
    name.eqIgnoreAsciiCase n = true

lemma isWhitespace_of_isBlank {c : Char} (h : isBlank c = true) : Text.isWhitespace c = true := by
  rw [isBlank, Bool.or_eq_true, beq_iff_eq, beq_iff_eq] at h
  rcases h with rfl | rfl <;> decide

lemma isBlank_of_mem {value : HeaderValue} (hvisible : VisibleValue value) {c : Char}
    (hc : c ∈ valueChars value) (hspace : Text.isWhitespace c = true) : isBlank c = true := by
  obtain ⟨b, hb, rfl⟩ := mem_map.mp hc
  have hbytes : ∀ n : ℕ, n < 127 → n = 9 ∨ 32 ≤ n → Text.isWhitespace (Char.ofNat n) = true →
      isBlank (Char.ofNat n) = true := by decide
  rcases hvisible b hb with rfl | ⟨hlow, hhigh⟩
  · rfl
  · rw [UInt8.le_iff_toNat_le] at hlow hhigh
    exact hbytes b.toNat (Nat.lt_succ_of_le hhigh) (.inr hlow) hspace

section Nomination

variable {G : Grammar}

lemma toStr_of_visible (hG : G.Standard) {value : HeaderValue} (h : VisibleValue value) :
    G.toStr value = some (valueChars value) :=
  if_pos (all_eq_true.mpr fun b hb => (hG.visibleByte_iff b).mpr (h b hb))

lemma mem_nominated {values : List HeaderValue} (hG : G.Standard)
    (hvisible : ∀ v ∈ values, VisibleValue v) {n : Text} :
    n ∈ nominated G values ↔
      ∃ v ∈ values, ∃ element ∈ (valueChars v).splitOn ',',
        G.parseName (Text.trim element) = some n := by
  have htext : ∀ text, text ∈ values.filterMap G.toStr ↔ ∃ v ∈ values, valueChars v = text := by
    intro text
    rw [mem_filterMap]
    refine exists_congr fun v => and_congr_right fun hv => ?_
    rw [toStr_of_visible hG (hvisible v hv), Option.some_inj]
  rw [nominated, mem_filterMap]
  constructor
  · rintro ⟨token, htoken, hname⟩
    obtain ⟨htoken, -⟩ := mem_filter.mp htoken
    obtain ⟨text, hmem, htrimmed⟩ := mem_flatMap.mp htoken
    obtain ⟨v, hv, rfl⟩ := (htext text).mp hmem
    obtain ⟨element, helement, rfl⟩ := mem_map.mp htrimmed
    exact ⟨v, hv, element, helement, hname⟩
  · rintro ⟨v, hv, element, helement, hname⟩
    have hne : Text.trim element ≠ [] := (G.parseName_eq_some_iff.mp hname).1.1
    exact ⟨Text.trim element, mem_filter.mpr ⟨mem_flatMap.mpr ⟨valueChars v,
      (htext _).mpr ⟨v, hv, rfl⟩, mem_map_of_mem helement⟩, by simp [hne]⟩, hname⟩

lemma parseName_iff (hG : G.Standard) (n : HeaderName G) {name : Text} :
    G.parseName name = some n.text ↔ name.eqIgnoreAsciiCase n.text = true := by
  obtain ⟨⟨hne, htoken⟩, hlower⟩ := G.parseName_eq_some_iff.mp n.legal
  rw [G.parseName_eq_some_iff, Text.eqIgnoreAsciiCase, beq_iff_eq, hlower]
  refine ⟨fun h => h.2, fun h => ⟨⟨?_, fun c hc => ?_⟩, h⟩⟩
  · rintro rfl
    exact hne h.symm
  · -- the letter is legal because it is in lower case
    rw [← hG.tokenChar_toLower]
    exact htoken _ (h ▸ mem_map_of_mem hc)

lemma mem_nominated_iff (hG : G.Standard) {values : List HeaderValue}
    (hvisible : ∀ v ∈ values, VisibleValue v) (n : HeaderName G) :
    n.text ∈ nominated G values ↔ ∃ v ∈ values, Nominates v n.text := by
  rw [mem_nominated hG hvisible]
  refine exists_congr fun v => and_congr_right fun hv => ?_
  constructor
  · rintro ⟨element, helement, hname⟩
    obtain ⟨before, after, heq, hbefore, hafter⟩ := Text.exists_eq_append_trim element
    have hmem : ∀ c ∈ element, c ∈ valueChars v := fun c hc =>
      (Text.mem_of_mem_splitOn helement hc).1
    refine ⟨before, Text.trim element, after, heq ▸ helement, fun c hc => ?_, fun c hc => ?_,
      (parseName_iff hG n).mp hname⟩
    · exact isBlank_of_mem (hvisible v hv) (hmem c (heq ▸ by simp [hc])) (hbefore c hc)
    · exact isBlank_of_mem (hvisible v hv) (hmem c (heq ▸ by simp [hc])) (hafter c hc)
  · rintro ⟨before, name, after, helement, hbefore, hafter, hname⟩
    have hlegal := (parseName_iff hG n).mpr hname
    have hspace : ∀ c ∈ name, Text.isWhitespace c = false := by
      intro c hc
      rw [Bool.eq_false_iff]
      intro hspace
      have htoken := (G.parseName_eq_some_iff.mp hlegal).1.2 c hc
      rw [hG.tokenChar_whitespace c hspace] at htoken
      cases htoken
    refine ⟨_, helement, ?_⟩
    rwa [Text.trim_append_append (fun c hc => isWhitespace_of_isBlank (hbefore c hc)) hspace
      fun c hc => isWhitespace_of_isBlank (hafter c hc)]

end Nomination

/-! ### Stripping -/

def StripsExactly (G : Grammar) (strip : HeaderMap → HeaderMap) (names : List Text) : Prop :=
  ∀ h : HeaderMap, (∀ v ∈ h.getAll Header.connection, VisibleValue v) → ∀ n : HeaderName G,
    (n.text ∈ names ∨ (∃ v ∈ h.getAll Header.connection, Nominates v n.text) →
      (strip h).getAll n.text = []) ∧
    (n.text ∉ names → (∀ v ∈ h.getAll Header.connection, ¬ Nominates v n.text) →
      (strip h).getAll n.text = h.getAll n.text)

lemma stripsExactly {G : Grammar} (hG : G.Standard) (names : List Text) :
    StripsExactly G (stripHopByHop G names) names := by
  intro h hvisible n
  have hnominated := mem_nominated_iff hG hvisible n
  rw [getAll_stripHopByHop]
  constructor
  · exact fun hn => if_pos (hn.imp_right hnominated.mpr)
  · intro hnames hnone
    refine if_neg ?_
    rintro (hn | hn)
    · exact hnames hn
    · obtain ⟨v, hv, hnominates⟩ := hnominated.mp hn
      exact hnone v hv hnominates

/-- **Hop-by-hop headers.**  Both ways of stripping remove the headers of their list and the
nominated ones, and leave every other header as it is. -/
theorem strip_headers_exact (G : Grammar) (hG : G.Standard) :
    StripsExactly G (stripForwardedRequestHeaders G) strippedRequestHeaders ∧
      StripsExactly G (stripHopByHopResponseHeaders G) strippedResponseHeaders :=
  ⟨stripsExactly hG strippedRequestHeaders, stripsExactly hG strippedResponseHeaders⟩

def nominatingHeaders : HeaderMap :=
  ⟨[(Header.connection, Text.asBytes "close,\tX-Token "), ("x-token", [49]),
    ("x-other", [50]), ("x-other", [51])]⟩

lemma visible_nominatingHeaders :
    ∀ v ∈ nominatingHeaders.getAll Header.connection, VisibleValue v := by
  decide +kernel

theorem strip_headers_exact_token :
    (stripForwardedRequestHeaders .http1 nominatingHeaders).getAll "x-token" = [] ∧
      (stripHopByHopResponseHeaders .http1 nominatingHeaders).getAll "x-other" = [[50], [51]] := by
  obtain ⟨hrequest, hresponse⟩ := strip_headers_exact .http1 Grammar.http1_standard
  refine ⟨(hrequest nominatingHeaders visible_nominatingHeaders ⟨"x-token", by decide⟩).1
      (.inr ⟨_, mem_cons_self, "\t", "X-Token", " ", by decide, by simp [isBlank],
        by simp [isBlank], by decide⟩), ?_⟩
  refine ((hresponse nominatingHeaders visible_nominatingHeaders ⟨"x-other", by decide⟩).2
    (by decide) fun v hv hnominates => ?_).trans (by decide)
  exact absurd ((mem_nominated_iff Grammar.http1_standard visible_nominatingHeaders
    ⟨"x-other", by decide⟩).mpr ⟨v, hv, hnominates⟩) (by decide)

end PxxlEdge
