import PxxlEdge.Common.Path
import PxxlEdge.Lib.Iter

/-!
Canonical paths: what `canonicalize_path` returns, and what it makes of encoded
paths.
-/

namespace PxxlEdge

open RustStd List

/-! ### One round of decoding -/

inductive PercentDecodes : List UInt8 → List UInt8 → Prop
  | nil : PercentDecodes [] []
  | literal {b : UInt8} {bs out : List UInt8} (hb : b ≠ 37) (h : PercentDecodes bs out) :
      PercentDecodes (b :: bs) (b :: out)
  | encoded {h l high low : UInt8} {bs out : List UInt8} (hh : hexValue h = some high)
      (hl : hexValue l = some low) (hbs : PercentDecodes bs out) :
      PercentDecodes (37 :: h :: l :: bs) (((high <<< 4) ||| low) :: out)

lemma percentDecodeBytes_eq_some {bs out : List UInt8} :
    percentDecodeBytes bs = some out ↔ PercentDecodes bs out := by
  constructor
  · intro heq
    fun_induction percentDecodeBytes bs generalizing out with
    | case1 =>
      cases heq
      exact .nil
    | case2 h l rest ih =>
      simp only [Option.bind_eq_bind, Option.bind_eq_some_iff, Option.pure_def,
        Option.some.injEq] at heq
      obtain ⟨high, hh, low, hl, out', hout, rfl⟩ := heq
      exact .encoded hh hl (ih hout)
    | case3 => cases heq
    | case4 b rest hb ih =>
      obtain ⟨out', hout, rfl⟩ := Option.map_eq_some_iff.mp heq
      exact .literal hb (ih hout)
  · intro h
    induction h with
    | nil => rfl
    | @literal b bs out hb _ ih =>
      rw [percentDecodeBytes.eq_def]
      dsimp only
      rw [if_neg hb, ih, Option.map_some]
    | encoded hh hl _ ih => simp [percentDecodeBytes, hh, hl, ih]

lemma percentDecodeUtf8_eq_ok {input text : Text} :
    percentDecodeUtf8 input = .ok text ↔ PercentDecodes input.asBytes text.asBytes := by
  constructor
  · intro h
    rw [percentDecodeUtf8] at h
    split at h
    · cases h
    · next output houtput =>
      split at h
      · cases h
      · next decoded hdecoded =>
        cases h
        rw [Text.asBytes_of_fromUtf8 hdecoded]
        exact percentDecodeBytes_eq_some.mp houtput
  · intro h
    rw [percentDecodeUtf8, percentDecodeBytes_eq_some.mpr h]
    dsimp only
    rw [Text.fromUtf8_asBytes]

lemma PercentDecodes.append {bs out bs' out' : List UInt8} (h : PercentDecodes bs out)
    (h' : PercentDecodes bs' out') : PercentDecodes (bs ++ bs') (out ++ out') := by
  induction h with
  | nil => exact h'
  | literal hb _ ih => exact .literal hb ih
  | encoded hh hl _ ih => exact .encoded hh hl ih

lemma percentDecodes_self {bs : List UInt8} (h : 37 ∉ bs) : PercentDecodes bs bs := by
  induction bs with
  | nil => exact .nil
  | cons b bs ih =>
    rw [mem_cons, not_or] at h
    exact .literal (Ne.symm h.1) (ih h.2)

variable {s : Text}

lemma percentSign_mem_asBytes : 37 ∈ s.asBytes ↔ '%' ∈ s :=
  Text.mem_asBytes_iff (k := '%') (by decide)

lemma percentDecodeUtf8_of_not_mem (h : '%' ∉ s) : percentDecodeUtf8 s = .ok s :=
  percentDecodeUtf8_eq_ok.mpr (percentDecodes_self (mt percentSign_mem_asBytes.mp h))

/-! ### Repeated decoding -/

lemma percentDecodeRounds_of_stable (h : percentDecodeUtf8 s = .ok s) (rounds : ℕ) :
    percentDecodeRounds rounds s = .ok s := by
  cases rounds with
  | zero => rfl
  | succ rounds => rw [percentDecodeRounds, h, ok_bind, if_pos rfl]

lemma percentDecodeRounds_succ {rounds : ℕ} {s decoded : Text} :
    percentDecodeRounds (rounds + 1) s = .ok decoded ↔
      ∃ next, percentDecodeUtf8 s = .ok next ∧ percentDecodeRounds rounds next = .ok decoded := by
  rw [percentDecodeRounds]
  cases hnext : percentDecodeUtf8 s with
  | error e => simp [bind, Except.bind]
  | ok next =>
    rw [ok_bind]
    split
    · -- the loop ends early, as further rounds change nothing
      next heq =>
        subst heq
        simp [percentDecodeRounds_of_stable hnext]
    · simp

lemma percentDecodeRounds_invariant (Inv : Text → Prop)
    (hround : ∀ s t, percentDecodeUtf8 s = .ok t → Inv s → Inv t) {rounds : ℕ} {s decoded : Text}
    (h : percentDecodeRounds rounds s = .ok decoded) (hs : Inv s) : Inv decoded := by
  induction rounds generalizing s with
  | zero =>
    cases h
    exact hs
  | succ rounds ih =>
    obtain ⟨next, hnext, hrest⟩ := percentDecodeRounds_succ.mp h
    exact ih hrest (hround s next hnext hs)

/-! ### Texts without their slashes -/

def solid (s : Text) : Text := s.filter fun c => c != '/'

lemma asBytes_solid (s : Text) : (solid s).asBytes = s.asBytes.filter fun b => b != 47 := by
  induction s with
  | nil => rfl
  | cons c s ih =>
    rw [solid] at ih ⊢
    rw [Text.asBytes_cons, filter_append]
    by_cases hc : c = '/'
    · subst hc
      rw [filter_cons_of_neg (by simp), ih]
      rfl
    · have hall : ∀ b ∈ String.utf8EncodeChar c, (b != 47) = true := by
        intro b hb
        rw [bne_iff_ne]
        rintro rfl
        exact hc (Text.eq_of_mem_utf8EncodeChar (k := '/') (by decide) hb)
      rw [filter_cons_of_pos (by simpa using hc), Text.asBytes_cons, ih,
        filter_eq_self.mpr hall]

lemma PercentDecodes.length_filter {bs out : List UInt8} (h : PercentDecodes bs out) :
    (out.filter fun b => b != 47).length ≤ (bs.filter fun b => b != 47).length ∧
      (37 ∈ bs → (out.filter fun b => b != 47).length < (bs.filter fun b => b != 47).length) := by
  induction h with
  | nil => simp
  | @literal b bs out hb _ ih =>
    by_cases hslash : b = 47
    · simpa [hslash] using ih
    · simpa [hslash, Ne.symm hb] using ih
  | @encoded h l high low bs out hh hl _ ih =>
    have hh' : h ≠ 47 := by
      rintro rfl
      cases hh
    have hl' : l ≠ 47 := by
      rintro rfl
      cases hl
    have hout := length_filter_le (fun b : UInt8 => b != 47) [(high <<< 4) ||| low]
    have hsplit : (((high <<< 4) ||| low) :: out).filter (fun b => b != 47) =
        [(high <<< 4) ||| low].filter (fun b => b != 47) ++ out.filter fun b => b != 47 := by
      rw [← filter_append, singleton_append]
    have hbs : ((37 :: h :: l :: bs).filter fun b => b != 47).length =
        (bs.filter fun b => b != 47).length + 3 := by
      simp [hh', hl']
    rw [hsplit, length_append, hbs]
    simp only [length_singleton] at hout
    omega

lemma len_solid_of_percentDecodeUtf8 {s t : Text} (h : percentDecodeUtf8 s = .ok t) :
    (solid t).len ≤ (solid s).len ∧ ('%' ∈ s → (solid t).len < (solid s).len) := by
  have hlength := (percentDecodeUtf8_eq_ok.mp h).length_filter
  rwa [← asBytes_solid, ← asBytes_solid, Text.length_asBytes, Text.length_asBytes,
    percentSign_mem_asBytes] at hlength

lemma len_solid_of_percentDecodeRounds {rounds : ℕ} {s decoded : Text}
    (h : percentDecodeRounds (rounds + 1) s = .ok decoded) :
    (solid decoded).len ≤ (solid s).len ∧ ('%' ∈ s → (solid decoded).len < (solid s).len) := by
  obtain ⟨next, hnext, hrest⟩ := percentDecodeRounds_succ.mp h
  have hfirst := len_solid_of_percentDecodeUtf8 hnext
  have hle : (solid decoded).len ≤ (solid next).len :=
    percentDecodeRounds_invariant (fun t => (solid t).len ≤ (solid next).len)
      (fun s t ht hs => (len_solid_of_percentDecodeUtf8 ht).1.trans hs) hrest le_rfl
  exact ⟨hle.trans hfirst.1, fun hmem => hle.trans_lt (hfirst.2 hmem)⟩

/-! ### Segments -/

def IsControl (c : Char) : Prop := c.toNat < 0x20 ∨ c.toNat = 0x7f

instance (c : Char) : Decidable (IsControl c) := inferInstanceAs (Decidable (_ ∨ _))

lemma any_control_iff (s : Text) :
    (s.asBytes.any fun byte => byte < 0x20 || byte == 0x7f) = true ↔ ∃ c ∈ s, IsControl c := by
  have hbyte : ∀ b : UInt8, (decide (b < 0x20) || b == 0x7f) = true ↔
      b.toNat < 0x20 ∨ b.toNat = 0x7f := by
    intro b
    rw [Bool.or_eq_true, decide_eq_true_eq, beq_iff_eq, UInt8.lt_iff_toNat_lt, ← UInt8.toNat_inj]
    rfl
  simp only [any_eq_true, hbyte]
  constructor
  · rintro ⟨b, hb, hcontrol⟩
    obtain ⟨c, hc, hbc⟩ := mem_flatMap.mp hb
    have heq := Text.toNat_eq_of_mem_utf8EncodeChar hbc (by omega)
    exact ⟨c, hc, by rwa [IsControl, heq]⟩
  · rintro ⟨c, hc, hcontrol⟩
    have hlt : c.toNat < 0x80 := by
      rw [IsControl] at hcontrol
      omega
    refine ⟨UInt8.ofNat c.toNat, (Text.mem_asBytes_iff hlt).mpr hc, ?_⟩
    rwa [Text.toNat_byte (by omega)]

structure IsSegment (s : Text) : Prop where
  ne_nil : s ≠ []
  ne_dot : s ≠ "."
  ne_dots : s ≠ ".."
  no_slash : '/' ∉ s
  no_backslash : '\\' ∉ s
  no_control : ∀ c ∈ s, ¬ IsControl c

instance (s : Text) : Decidable (IsSegment s) :=
  -- the characters of the segment are asked, not all characters
  have : Decidable (∀ c ∈ s, ¬ IsControl c) := List.decidableBAll _ s
  decidable_of_iff
    (s ≠ [] ∧ s ≠ "." ∧ s ≠ ".." ∧ '/' ∉ s ∧ '\\' ∉ s ∧ ∀ c ∈ s, ¬ IsControl c)
    ⟨fun ⟨h₁, h₂, h₃, h₄, h₅, h₆⟩ => ⟨h₁, h₂, h₃, h₄, h₅, h₆⟩,
      fun ⟨h₁, h₂, h₃, h₄, h₅, h₆⟩ => ⟨h₁, h₂, h₃, h₄, h₅, h₆⟩⟩

def IsCanonical (path : Text) : Prop :=
  ∃ segments trailingSlash, (∀ s ∈ segments, IsSegment s) ∧
    path = joinSegments segments trailingSlash

lemma foldl_pushSegment_of_forall {l : List Text}
    (h : ∀ s ∈ l, s ≠ [] ∧ s ≠ "." ∧ s ≠ "..") (segments : List Text) :
    l.foldl pushSegment segments = segments ++ l := by
  induction l generalizing segments with
  | nil => simp
  | cons s l ih =>
    obtain ⟨hnil, hdot, hdots⟩ := h s mem_cons_self
    rw [foldl_cons, pushSegment, if_neg (not_or.mpr ⟨hnil, hdot⟩), if_neg hdots,
      ih fun t ht => h t (by simp [ht])]
    simp

lemma foldl_pushSegment_sublist (l segments : List Text) :
    (l.foldl pushSegment segments).Sublist (segments ++ l) := by
  induction l generalizing segments with
  | nil => simp
  | cons s l ih =>
    have hpush : (pushSegment segments s).Sublist (segments ++ [s]) := by
      rw [pushSegment]
      split
      · exact sublist_append_left _ _
      · split
        · exact (dropLast_sublist _).trans (sublist_append_left _ _)
        · exact List.Sublist.refl _
    have hrest := (ih (pushSegment segments s)).trans (hpush.append_right l)
    rwa [append_assoc, singleton_append] at hrest

lemma of_mem_foldl_pushSegment {l segments : List Text} (hs : s ∈ l.foldl pushSegment segments)
    (hsegments : ∀ t ∈ segments, t ≠ [] ∧ t ≠ "." ∧ t ≠ "..") :
    s ≠ [] ∧ s ≠ "." ∧ s ≠ ".." := by
  induction l generalizing segments with
  | nil => exact hsegments s hs
  | cons t l ih =>
    refine ih hs fun u hu => ?_
    rw [pushSegment] at hu
    split at hu
    · exact hsegments u hu
    · next hkept =>
      split at hu
      · exact hsegments u (mem_of_mem_dropLast hu)
      · next hdots =>
        rcases mem_append.mp hu with hu | hu
        · exact hsegments u hu
        · rw [mem_singleton.mp hu]
          rw [not_or] at hkept
          exact ⟨hkept.1, hkept.2, hdots⟩

/-! ### The stages of `canonicalize_path` -/

def slashed (decoded : Text) : Text := decoded.map fun c => if c = '\\' then '/' else c

lemma slashed_of_not_mem (h : '\\' ∉ s) : slashed s = s := by
  conv_rhs => rw [← map_id s]
  refine map_congr_left fun c hc => if_neg ?_
  rintro rfl
  exact h hc

def keptSegments (path : Text) : List Text := (path.splitOn '/').foldl pushSegment []

def cleanPath (path : Text) : Text := joinSegments (keptSegments path) (path.endsWith "/")

variable {path q : Text}

lemma canonicalizePath_eq_ok :
    canonicalizePath path = .ok q ↔
      path = [] ∧ q = "/" ∨
        path.startsWith "/" = true ∧ ∃ decoded, percentDecodeRounds 4 path = .ok decoded ∧
          (∀ c ∈ decoded, ¬ IsControl c) ∧ q = cleanPath (slashed decoded) := by
  rw [canonicalizePath]
  split
  · next hnil =>
    subst hnil
    simp [Text.startsWith, eq_comm]
  · next hnil =>
    rw [or_iff_right fun h => hnil h.1]
    split
    · next hslash => exact iff_of_false (by simp) fun h => hslash h.1
    · next hslash =>
      rw [not_not] at hslash
      rw [and_iff_right hslash]
      cases percentDecodeRounds 4 path with
      | error e => simp [bind, Except.bind]
      | ok decoded =>
        rw [ok_bind]
        split
        · next hcontrol =>
          obtain ⟨c, hc, hcontrol⟩ := (any_control_iff decoded).mp hcontrol
          refine iff_of_false (by simp) ?_
          rintro ⟨_, ⟨⟩, hnone, -⟩
          exact hnone c hc hcontrol
        · next hcontrol =>
          rw [any_control_iff] at hcontrol
          push Not at hcontrol
          constructor
          · rintro ⟨⟩
            exact ⟨decoded, rfl, hcontrol, rfl⟩
          · rintro ⟨_, ⟨⟩, -, rfl⟩
            rfl

lemma isSegment_of_mem_keptSegments {decoded : Text} (h : ∀ c ∈ decoded, ¬ IsControl c) :
    ∀ s ∈ keptSegments (slashed decoded), IsSegment s := by
  intro s hs
  obtain ⟨hnil, hdot, hdots⟩ := of_mem_foldl_pushSegment hs (by simp)
  have hpiece : s ∈ (slashed decoded).splitOn '/' := by
    have hmem := (foldl_pushSegment_sublist _ []).subset hs
    rwa [nil_append] at hmem
  -- the characters of a piece are those of the decoded path, but for the separators
  have hchars : ∀ c ∈ s, c ∈ decoded ∧ c ≠ '/' ∧ c ≠ '\\' := by
    intro c hc
    obtain ⟨hc, hslash⟩ := Text.mem_of_mem_splitOn hpiece hc
    obtain ⟨d, hd, rfl⟩ := mem_map.mp hc
    split at hslash
    · exact absurd rfl hslash
    · next hback =>
      rw [if_neg hback]
      exact ⟨hd, hslash, hback⟩
  exact
    { ne_nil := hnil
      ne_dot := hdot
      ne_dots := hdots
      no_slash := fun hc => (hchars _ hc).2.1 rfl
      no_backslash := fun hc => (hchars _ hc).2.2 rfl
      no_control := fun c hc => h c (hchars c hc).1 }

lemma isCanonical_of_canonicalizePath (h : canonicalizePath path = .ok q) :
    IsCanonical q := by
  rcases canonicalizePath_eq_ok.mp h with ⟨-, rfl⟩ | ⟨-, decoded, -, hcontrol, rfl⟩
  · exact ⟨[], false, by simp, rfl⟩
  · exact ⟨_, _, isSegment_of_mem_keptSegments hcontrol, rfl⟩

/-! ### The pieces of a canonical path -/

lemma cons_intercalate {l : List Text} (hne : l ≠ []) :
    '/' :: List.intercalate "/" l = l.flatMap ('/' :: ·) := by
  induction l with
  | nil => exact absurd rfl hne
  | cons s l ih =>
    cases l with
    | nil => simp
    | cons t l =>
      have hrest := ih (by simp)
      rw [intercalate_cons_cons, flatMap_cons, ← hrest]
      simp

variable {segments : List Text}

lemma splitOn_joinSegments (h : ∀ s ∈ segments, '/' ∉ s) (b : Bool) :
    (joinSegments segments b).splitOn '/' =
      [] :: segments ++ if segments = [] ∨ b = true then [[]] else [] := by
  by_cases hnil : segments = []
  · subst hnil
    rfl
  · have hsplit : (List.intercalate ['/'] segments).splitOn '/' = segments :=
      splitOn_intercalate '/' h hnil
    rw [joinSegments, if_neg hnil, cons_append, ← nil_append ('/' :: _),
      splitOn_append_cons_self]
    cases b with
    | false => simp [hnil, hsplit]
    | true => simp [splitOn_append_cons_self, hsplit]

lemma keptSegments_joinSegments (h : ∀ s ∈ segments, IsSegment s)
    (b : Bool) : keptSegments (joinSegments segments b) = segments := by
  have hempty : ∀ (p : Prop) [Decidable p] l,
      (if p then [([] : Text)] else []).foldl pushSegment l = l := by
    intro p _ l
    split
    · simp [pushSegment]
    · rfl
  rw [keptSegments, splitOn_joinSegments (fun s hs => (h s hs).no_slash), foldl_append,
    hempty, foldl_cons, pushSegment, if_pos (.inl rfl),
    foldl_pushSegment_of_forall fun s hs => ⟨(h s hs).ne_nil, (h s hs).ne_dot, (h s hs).ne_dots⟩,
    nil_append]

lemma endsWith_joinSegments (h : ∀ s ∈ segments, IsSegment s) (b : Bool) :
    (joinSegments segments b).endsWith "/" = true ↔ segments = [] ∨ b = true := by
  rw [Text.endsWith, isSuffixOf_iff_suffix, joinSegments]
  by_cases hnil : segments = []
  · simp [hnil]
  · rw [if_neg hnil, cons_intercalate hnil, or_iff_right hnil]
    cases b with
    | true => simp
    | false =>
      -- the last character is the last one of the last segment
      obtain ⟨init, last, rfl⟩ := eq_nil_or_concat segments |>.resolve_left hnil
      have hlast := h last (by simp)
      obtain ⟨front, c, rfl⟩ := eq_nil_or_concat last |>.resolve_left hlast.ne_nil
      refine iff_of_false ?_ (by simp)
      rintro ⟨t, ht⟩
      have hc : '/' = c := by
        have hends : t ++ ['/'] = (init.flatMap ('/' :: ·) ++ '/' :: front) ++ [c] := by
          simpa using ht
        exact singleton_injective (append_inj' hends rfl).2
      exact hlast.no_slash (by simp [← hc])

lemma mem_joinSegments {b : Bool} {c : Char}
    (hc : c ∈ joinSegments segments b) : c = '/' ∨ ∃ s ∈ segments, c ∈ s := by
  rw [joinSegments] at hc
  split at hc
  · exact .inl (by simpa using hc)
  · next hnil =>
    rw [cons_intercalate hnil] at hc
    rcases mem_append.mp hc with hc | hc
    · obtain ⟨s, hs, hc⟩ := mem_flatMap.mp hc
      rcases mem_cons.mp hc with rfl | hc
      · exact .inl rfl
      · exact .inr ⟨s, hs, hc⟩
    · split at hc
      · exact .inl (by simpa using hc)
      · cases hc

lemma slashed_of_isCanonical {q : Text} (h : IsCanonical q) : slashed q = q := by
  obtain ⟨segments, b, hsegments, rfl⟩ := h
  refine slashed_of_not_mem fun hc => ?_
  rcases mem_joinSegments hc with heq | ⟨s, hs, hc⟩
  · cases heq
  · exact (hsegments s hs).no_backslash hc

lemma cleanPath_of_isCanonical {q : Text} (h : IsCanonical q) : cleanPath (slashed q) = q := by
  rw [slashed_of_isCanonical h]
  obtain ⟨segments, b, hsegments, rfl⟩ := h
  rw [cleanPath, keptSegments_joinSegments hsegments]
  by_cases hnil : segments = []
  · simp [joinSegments, hnil]
  · have hends : (joinSegments segments b).endsWith "/" = b := by
      rw [Bool.eq_iff_iff, endsWith_joinSegments hsegments, or_iff_right hnil]
    rw [hends]

lemma not_isControl_of_isCanonical {q : Text} (h : IsCanonical q) : ∀ c ∈ q, ¬ IsControl c := by
  obtain ⟨segments, b, hsegments, rfl⟩ := h
  intro c hc
  rcases mem_joinSegments hc with rfl | ⟨s, hs, hc⟩
  · decide
  · exact (hsegments s hs).no_control c hc

lemma startsWith_of_isCanonical {q : Text} (h : IsCanonical q) : q.startsWith "/" = true := by
  obtain ⟨segments, b, -, rfl⟩ := h
  rw [joinSegments]
  split
  · rfl
  · simp [Text.startsWith]

/-! ### A second pass -/

lemma canonicalizePath_of_decoded (hslash : path.startsWith "/" = true)
    (hdecoded : percentDecodeRounds 4 path = .ok q) (hq : IsCanonical q) :
    canonicalizePath path = .ok q :=
  canonicalizePath_eq_ok.mpr (.inr ⟨hslash, q, hdecoded, not_isControl_of_isCanonical hq,
    (cleanPath_of_isCanonical hq).symm⟩)

lemma solid_joinSegments (h : ∀ s ∈ segments, '/' ∉ s) (b : Bool) :
    solid (joinSegments segments b) = segments.flatten := by
  rw [solid, ← Text.flatten_splitOn, splitOn_joinSegments h]
  split <;> simp

lemma flatten_keptSegments_sublist (path : Text) :
    (keptSegments path).flatten.Sublist (solid path) := by
  have hsublist := (foldl_pushSegment_sublist (path.splitOn '/') []).flatten
  rwa [nil_append, Text.flatten_splitOn] at hsublist

lemma solid_slashed_sublist (decoded : Text) :
    (solid (slashed decoded)).Sublist (solid decoded) := by
  induction decoded with
  | nil => exact List.Sublist.refl _
  | cons c decoded ih =>
    by_cases hc : c = '\\'
    · subst hc
      exact ih.cons _
    · by_cases hslash : c = '/'
      · subst hslash
        exact ih
      · simp only [solid, slashed] at ih ⊢
        simpa [hc, hslash] using ih

lemma solid_cleanPath_sublist {decoded : Text} (hcontrol : ∀ c ∈ decoded, ¬ IsControl c) :
    (solid (cleanPath (slashed decoded))).Sublist (solid decoded) := by
  rw [cleanPath,
    solid_joinSegments fun s hs => (isSegment_of_mem_keptSegments hcontrol s hs).no_slash]
  exact (flatten_keptSegments_sublist _).trans (solid_slashed_sublist decoded)

lemma len_solid_le (h : canonicalizePath path = .ok q) :
    (solid q).len ≤ (solid path).len := by
  rcases canonicalizePath_eq_ok.mp h with ⟨rfl, rfl⟩ | ⟨-, decoded, hdecoded, hcontrol, rfl⟩
  · exact le_rfl
  · exact (Text.len_le_of_sublist (solid_cleanPath_sublist hcontrol)).trans
      (len_solid_of_percentDecodeRounds hdecoded).1

lemma len_solid_lt (h : canonicalizePath path = .ok q) (hmem : '%' ∈ path) :
    (solid q).len < (solid path).len := by
  rcases canonicalizePath_eq_ok.mp h with ⟨rfl, -⟩ | ⟨-, decoded, hdecoded, hcontrol, rfl⟩
  · cases hmem
  · exact (Text.len_le_of_sublist (solid_cleanPath_sublist hcontrol)).trans_lt
      ((len_solid_of_percentDecodeRounds hdecoded).2 hmem)

lemma canonicalizePath_ne_append {path rest : Text} {x : Char} (hx : x ≠ '/') :
    canonicalizePath path ≠ .ok (path ++ x :: rest) := by
  intro h
  have hle := len_solid_le h
  have hsolid : solid (path ++ x :: rest) = solid path ++ x :: solid rest := by
    simp [solid, hx]
  have hpos : 0 < Text.len (x :: solid rest) := by
    have hsize := Char.utf8Size_pos x
    simp only [Text.len, map_cons, sum_cons]
    omega
  rw [hsolid, Text.len_append] at hle
  omega

lemma canonicalizePath_of_isCanonical {q : Text} (hq : IsCanonical q) (hmem : '%' ∉ q) :
    canonicalizePath q = .ok q :=
  canonicalizePath_of_decoded (startsWith_of_isCanonical hq)
    (percentDecodeRounds_of_stable (percentDecodeUtf8_of_not_mem hmem) 4) hq

/-! ### Encoded segments -/

def hexDigit (upper : Bool) (n : ℕ) : Char :=
  if upper then (Nat.digitChar n).toUpper else Nat.digitChar n

def percentByte (upperHigh upperLow : Bool) (b : UInt8) : Text :=
  ['%', hexDigit upperHigh (b.toNat / 16), hexDigit upperLow (b.toNat % 16)]

def SpellsBytes : List UInt8 → Text → Prop
  | [], text => text = []
  | b :: bs, text => ∃ upperHigh upperLow rest,
      text = percentByte upperHigh upperLow b ++ rest ∧ SpellsBytes bs rest

inductive PercentEncodes : Text → Text → Prop
  | nil : PercentEncodes [] []
  | keep (c : Char) {s e : Text} (h : PercentEncodes s e) : PercentEncodes (c :: s) (c :: e)
  | encode (c : Char) {spelled s e : Text} (hc : SpellsBytes (String.utf8EncodeChar c) spelled)
      (h : PercentEncodes s e) : PercentEncodes (c :: s) (spelled ++ e)

lemma hexDigit_toNat_lt : ∀ upper, ∀ n < 16, (hexDigit upper n).toNat < 0x80 := by decide

lemma hexValue_hexDigit : ∀ upper, ∀ n < 16,
    hexValue (UInt8.ofNat (hexDigit upper n).toNat) = some (UInt8.ofNat n) := by decide

lemma shiftLeft_or_nibbles : ∀ n < 256,
    ((UInt8.ofNat (n / 16) <<< 4) ||| UInt8.ofNat (n % 16)) = UInt8.ofNat n := by decide +kernel

lemma percentDecodes_percentByte (upperHigh upperLow : Bool) (b : UInt8) :
    PercentDecodes (percentByte upperHigh upperLow b).asBytes [b] := by
  have hb : b.toNat < 256 := b.toNat_lt
  have hhigh : b.toNat / 16 < 16 := by omega
  have hlow : b.toNat % 16 < 16 := by omega
  have hbytes : (percentByte upperHigh upperLow b).asBytes =
      [37, UInt8.ofNat (hexDigit upperHigh (b.toNat / 16)).toNat,
        UInt8.ofNat (hexDigit upperLow (b.toNat % 16)).toNat] := by
    rw [percentByte, Text.asBytes_cons, Text.asBytes_cons, Text.asBytes_cons,
      Text.utf8EncodeChar_of_lt (hexDigit_toNat_lt _ _ hhigh),
      Text.utf8EncodeChar_of_lt (hexDigit_toNat_lt _ _ hlow)]
    rfl
  have hdecode : PercentDecodes [37, _, _] [_] :=
    .encoded (hexValue_hexDigit upperHigh _ hhigh) (hexValue_hexDigit upperLow _ hlow) .nil
  rw [shiftLeft_or_nibbles _ hb, UInt8.ofNat_toNat] at hdecode
  rwa [hbytes]

lemma percentDecodes_of_spellsBytes {bs : List UInt8} {spelled : Text}
    (h : SpellsBytes bs spelled) : PercentDecodes spelled.asBytes bs := by
  induction bs generalizing spelled with
  | nil =>
    obtain rfl : spelled = [] := h
    exact .nil
  | cons b bs ih =>
    obtain ⟨upperHigh, upperLow, rest, rfl, hrest⟩ := h
    rw [Text.asBytes_append]
    exact (percentDecodes_percentByte upperHigh upperLow b).append (ih hrest)

lemma PercentEncodes.decodes {s e : Text} (h : PercentEncodes s e) (hs : '%' ∉ s) :
    PercentDecodes e.asBytes s.asBytes := by
  induction h with
  | nil => exact .nil
  | @keep c s e _ ih =>
    rw [mem_cons, not_or] at hs
    rw [Text.asBytes_cons, Text.asBytes_cons]
    refine (percentDecodes_self fun hmem => hs.1 ?_).append (ih hs.2)
    exact (Text.eq_of_mem_utf8EncodeChar (k := '%') (by decide) hmem).symm
  | encode c hc _ ih =>
    rw [mem_cons, not_or] at hs
    rw [Text.asBytes_append, Text.asBytes_cons]
    exact (percentDecodes_of_spellsBytes hc).append (ih hs.2)

lemma percentDecodes_flatMap {segments encoded : List Text}
    (h : List.Forall₂ PercentEncodes segments encoded) (hsegments : ∀ s ∈ segments, '%' ∉ s) :
    PercentDecodes (Text.asBytes (encoded.flatMap ('/' :: ·)))
      (Text.asBytes (segments.flatMap ('/' :: ·))) := by
  induction h with
  | nil => exact .nil
  | @cons s e segments encoded hse _ ih =>
    rw [flatMap_cons, flatMap_cons, Text.asBytes_append, Text.asBytes_append,
      Text.asBytes_cons, Text.asBytes_cons]
    have hs := hse.decodes (hsegments s mem_cons_self)
    have hslash : PercentDecodes (String.utf8EncodeChar '/') (String.utf8EncodeChar '/') :=
      percentDecodes_self (by decide)
    exact (hslash.append hs).append (ih fun t ht => hsegments t (by simp [ht]))

/-- **Encoded segments.**  Whichever characters of the segments are percent-encoded, and with
whichever case of the digits, the path of the encoded segments has that of the plain ones as
its result. -/
theorem canonicalizePath_of_percentEncodes {segments encoded : List Text} (hne : segments ≠ [])
    (hsegments : ∀ s ∈ segments, IsSegment s ∧ '%' ∉ s)
    (hencoded : List.Forall₂ PercentEncodes segments encoded) :
    canonicalizePath ('/' :: List.intercalate "/".toList encoded) =
      .ok ('/' :: List.intercalate "/".toList segments) := by
  have hne' : encoded ≠ [] := by
    rintro rfl
    exact hne (forall₂_nil_right_iff.mp hencoded)
  have hjoin : joinSegments segments false = '/' :: List.intercalate "/".toList segments := by
    simp [joinSegments, hne]
  have hcanonical : IsCanonical ('/' :: List.intercalate "/".toList segments) :=
    ⟨segments, false, fun s hs => (hsegments s hs).1, hjoin.symm⟩
  have hplain : '%' ∉ '/' :: List.intercalate "/".toList segments := by
    intro hmem
    rw [← hjoin] at hmem
    rcases mem_joinSegments hmem with heq | ⟨s, hs, hmem⟩
    · cases heq
    · exact (hsegments s hs).2 hmem
  have hdecodes : percentDecodeUtf8 ('/' :: List.intercalate "/".toList encoded) =
      .ok ('/' :: List.intercalate "/".toList segments) := by
    rw [cons_intercalate hne, cons_intercalate hne']
    exact percentDecodeUtf8_eq_ok.mpr
      (percentDecodes_flatMap hencoded fun s hs => (hsegments s hs).2)
  refine canonicalizePath_of_decoded (by simp [Text.startsWith]) ?_ hcanonical
  exact percentDecodeRounds_succ.mpr ⟨_, hdecodes,
    percentDecodeRounds_of_stable (percentDecodeUtf8_of_not_mem hplain) 3⟩

/-- Two segments with an encoded character each, one of them of two bytes. -/
theorem canonicalizePath_of_percentEncodes_cafe :
    canonicalizePath "/a%2Eb/caf%C3%a9" = .ok "/a.b/café".toList := by
  have hdot : SpellsBytes (String.utf8EncodeChar '.') ['%', '2', 'E'] :=
    ⟨false, true, [], by decide, rfl⟩
  have haccent : SpellsBytes (String.utf8EncodeChar 'é') ['%', 'C', '3', '%', 'a', '9'] :=
    ⟨true, false, ['%', 'a', '9'], by decide, false, false, [], by decide, rfl⟩
  have hfirst : PercentEncodes ['a', '.', 'b'] ['a', '%', '2', 'E', 'b'] :=
    .keep 'a' (.encode '.' hdot (.keep 'b' .nil))
  have hsecond : PercentEncodes ['c', 'a', 'f', 'é']
      ['c', 'a', 'f', '%', 'C', '3', '%', 'a', '9'] :=
    .keep 'c' (.keep 'a' (.keep 'f' (.encode 'é' haccent .nil)))
  have hpath := canonicalizePath_of_percentEncodes (by decide) (by decide)
    (.cons hfirst (.cons hsecond .nil))
  simpa using hpath

end PxxlEdge
