import PxxlEdge.Lib.Text

/-!
Texts put together from parts with separators between them, and taken apart again.
-/

namespace RustStd.Text

open List

variable {sep : Char} {s : Text}

lemma splitOnce_append (hs : sep ∉ s) (t : Text) :
    splitOnce sep (s ++ sep :: t) = some (s, t) := by
  induction s with
  | nil => simp [splitOnce]
  | cons x s ih =>
    have hx : x ≠ sep := (ne_of_not_mem_cons hs).symm
    simp [splitOnce, ih (not_mem_of_not_mem_cons hs), hx]

lemma splitOnce_eq_some_iff {text s t : Text} :
    splitOnce sep text = some (s, t) ↔ text = s ++ sep :: t ∧ sep ∉ s := by
  constructor
  · intro h
    induction text generalizing s with
    | nil => cases h
    | cons x text ih =>
      rw [splitOnce] at h
      split at h
      next hx =>
        obtain rfl : x = sep := beq_iff_eq.mp hx
        cases h
        exact ⟨rfl, not_mem_nil⟩
      next hx =>
        obtain ⟨⟨s', t'⟩, hrest, heq⟩ := Option.map_eq_some_iff.mp h
        cases heq
        obtain ⟨rfl, hs'⟩ := ih hrest
        have hne : sep ≠ x := fun hsep => hx (beq_iff_eq.mpr hsep.symm)
        exact ⟨rfl, not_mem_cons_of_ne_of_not_mem hne hs'⟩
  · rintro ⟨rfl, hs⟩
    exact splitOnce_append hs t

lemma splitOnce_eq_none_iff {text : Text} :
    splitOnce sep text = none ↔ sep ∉ text := by
  constructor
  · intro h hmem
    obtain ⟨s, t, rfl, hs⟩ := eq_append_cons_of_mem hmem
    rw [splitOnce_append hs] at h
    cases h
  · intro h
    rw [Option.eq_none_iff_forall_ne_some]
    rintro ⟨s, t⟩ hsplit
    rw [(splitOnce_eq_some_iff.mp hsplit).1] at h
    exact h (mem_append_right s mem_cons_self)

lemma rdropWhile_append {p : Char → Bool} (hs : ∀ c ∈ s.getLast?, p c = false)
    (t : Text) : (s ++ t).rdropWhile p = s ++ t.rdropWhile p := by
  induction t using List.reverseRecOn with
  | nil =>
    rw [append_nil, rdropWhile_nil, append_nil, rdropWhile_eq_self_iff]
    intro hl
    rw [hs _ (getLast?_eq_getLast_of_ne_nil hl)]
    decide
  | append_singleton t x ih =>
    rw [← append_assoc]
    by_cases hx : p x = true
    · rw [rdropWhile_concat_pos _ _ _ hx, rdropWhile_concat_pos _ _ _ hx, ih]
    · rw [rdropWhile_concat_neg _ _ _ hx, rdropWhile_concat_neg _ _ _ hx,
        append_assoc]

lemma trimEndMatches_append {c : Char} (hs : s.getLast? ≠ some c) (t : Text) :
    trimEndMatches c (s ++ t) = s ++ trimEndMatches c t := by
  refine rdropWhile_append (fun x hx => ?_) t
  rw [beq_eq_false_iff_ne]
  rintro rfl
  exact hs hx

lemma trim_eq_self (hhead : ∀ c ∈ s.head?, isWhitespace c = false)
    (hlast : ∀ c ∈ s.getLast?, isWhitespace c = false) : trim s = s := by
  have hstart : trimStart s = s := by
    cases s with
    | nil => rfl
    | cons c s => exact dropWhile_cons_of_neg (by rw [hhead c rfl]; decide)
  have hend := rdropWhile_append hlast []
  rw [append_nil, rdropWhile_nil, append_nil] at hend
  rw [trim, hstart, hend]

lemma trimMatches_quoted {c : Char} (h : c ∉ s) :
    trimMatches c (c :: (s ++ [c])) = s := by
  have hend : ∀ t : Text, c ∉ t → trimEndMatches c (t ++ [c]) = t := by
    intro t ht
    rw [trimEndMatches_append fun hlast => ht (mem_of_getLast? hlast)]
    simp [trimEndMatches]
  rw [trimMatches, trimStartMatches, dropWhile_cons_of_pos (by simp)]
  cases s with
  | nil => simp [trimEndMatches]
  | cons x s =>
    have hx : x ≠ c := (ne_of_not_mem_cons h).symm
    rw [cons_append, dropWhile_cons_of_neg (by simpa using hx), ← cons_append,
      hend _ h]

lemma exists_eq_append_trim (s : Text) :
    ∃ before after, s = before ++ trim s ++ after ∧ (∀ c ∈ before, isWhitespace c = true) ∧
      ∀ c ∈ after, isWhitespace c = true := by
  refine ⟨s.takeWhile isWhitespace, (trimStart s).rtakeWhile isWhitespace, ?_,
    fun c hc => mem_takeWhile_imp hc, fun c hc => mem_rtakeWhile_imp hc⟩
  have hback : trim s ++ (trimStart s).rtakeWhile isWhitespace = trimStart s :=
    rdropWhile_append_rtakeWhile
  rw [append_assoc, hback, trimStart, takeWhile_append_dropWhile]

lemma trim_append_append {before s after : Text} (hbefore : ∀ c ∈ before, isWhitespace c = true)
    (hs : ∀ c ∈ s, isWhitespace c = false) (hafter : ∀ c ∈ after, isWhitespace c = true) :
    trim (before ++ s ++ after) = s := by
  rw [append_assoc, trim_append_of_all_ws hbefore, trim]
  cases s with
  | nil =>
    have hstart : trimStart after = [] := dropWhile_eq_nil_iff.mpr hafter
    rw [nil_append, hstart, rdropWhile_nil]
  | cons c s =>
    have hstart : trimStart (c :: s ++ after) = c :: s ++ after :=
      dropWhile_cons_of_neg (by simp [hs c mem_cons_self])
    rw [hstart, rdropWhile_append_of_all hafter, rdropWhile_eq_self_iff]
    intro hl
    simp [hs _ (getLast_mem hl)]

/-! ### Lists in a text -/

lemma count_intercalate (sep : Char) (part : Text) (parts : List Text) :
    (List.intercalate [sep] (part :: parts)).count sep =
      parts.length + ((part :: parts).map (List.count sep)).sum := by
  induction parts generalizing part with
  | nil => simp
  | cons next parts ih =>
    rw [intercalate_cons_cons, count_append, count_append, ih,
      count_singleton_self, map_cons (l := next :: parts), sum_cons,
      length_cons]
    omega

lemma eq_of_intercalate_eq {parts parts' : List Text}
    (hlen : parts.length = parts'.length) (h : ∀ p ∈ parts, sep ∉ p)
    (heq : List.intercalate [sep] parts = List.intercalate [sep] parts') : parts = parts' := by
  cases parts with
  | nil => exact (length_eq_zero_iff.mp hlen.symm).symm
  | cons p parts =>
    obtain ⟨p', parts', rfl⟩ : ∃ q qs, parts' = q :: qs :=
      exists_cons_of_length_eq_add_one hlen.symm
    -- there are no separators left for the parts of the other text
    have hzero : ((p :: parts).map (List.count sep)).sum = 0 := by
      rw [List.sum_eq_zero_iff_forall_eq_nat]
      intro n hn
      obtain ⟨q, hq, rfl⟩ := mem_map.mp hn
      exact count_eq_zero.mpr (h q hq)
    have hcount := congrArg (List.count sep) heq
    rw [count_intercalate, count_intercalate, hzero] at hcount
    have hzero' : ((p' :: parts').map (List.count sep)).sum = 0 := by
      rw [length_cons, length_cons] at hlen
      omega
    have h' : ∀ q ∈ p' :: parts', sep ∉ q := fun q hq =>
      count_eq_zero.mp
        (List.sum_eq_zero_iff_forall_eq_nat.mp hzero' _ (mem_map_of_mem hq))
    rw [← splitOn_intercalate sep h (cons_ne_nil p parts), heq,
      splitOn_intercalate sep h' (cons_ne_nil p' parts')]

lemma eq_of_append_cons_eq {s t x y : Text} (hx : sep ∉ x) (hy : sep ∉ y)
    (h : s ++ sep :: x = t ++ sep :: y) : x = y := by
  rcases append_eq_append_iff.mp h with ⟨mid, -, hcons⟩ | ⟨mid, -, hcons⟩
  · cases mid with
    | nil => exact (List.cons.inj hcons).2
    | cons c mid => exact absurd (by simp [(List.cons.inj hcons).2]) hx
  · cases mid with
    | nil => exact (List.cons.inj hcons).2.symm
    | cons c mid => exact absurd (by simp [(List.cons.inj hcons).2]) hy

lemma endsWith_cons_append_cons {s x y : Text} (hx : sep ∉ x) (hy : sep ∉ y) :
    endsWith (s ++ sep :: y) (sep :: x) = true ↔ y = x := by
  rw [endsWith, isSuffixOf_iff_suffix]
  constructor
  · rintro ⟨t, ht⟩
    exact (eq_of_append_cons_eq hx hy ht).symm
  · rintro rfl
    exact suffix_append s _

lemma endsWith_append_of_not_suffix {s t pat : Text} (h : ¬ pat <:+ t) (h' : ¬ t <:+ pat) :
    endsWith (s ++ t) pat = false := by
  rw [Bool.eq_false_iff, endsWith, ne_eq, isSuffixOf_iff_suffix]
  intro hpat
  rcases suffix_or_suffix_of_suffix hpat (suffix_append s t) with hsuffix | hsuffix
  · exact h hsuffix
  · exact h' hsuffix

lemma intercalate_comma_blank (p : Text) (parts : List Text) :
    List.intercalate ", ".toList (p :: parts) =
      List.intercalate [','] (p :: parts.map (' ' :: ·)) := by
  induction parts generalizing p with
  | nil => rfl
  | cons q parts ih =>
    rw [intercalate_cons_cons, map_cons, intercalate_cons_cons,
      intercalate_cons_cons_left, ih]
    simp

lemma filterMap_splitOn_intercalate {β : Type*} {f : Text → Option β}
    (hf : ∀ p, f (' ' :: p) = f p) {parts : List Text} (hne : parts ≠ [])
    (h : ∀ p ∈ parts, ',' ∉ p) :
    ((List.intercalate ", ".toList parts).splitOn ',').filterMap f = parts.filterMap f := by
  obtain ⟨p, parts, rfl⟩ := exists_cons_of_ne_nil hne
  have hcommas : ∀ q ∈ p :: parts.map (' ' :: ·), ',' ∉ q := by
    intro q hq
    rcases mem_cons.mp hq with rfl | hq
    · exact h q mem_cons_self
    · obtain ⟨r, hr, rfl⟩ := mem_map.mp hq
      simpa using h r (mem_cons_of_mem p hr)
  have hcomp : (f ∘ fun q => ' ' :: q) = f := funext hf
  rw [intercalate_comma_blank, splitOn_intercalate ',' hcommas (by simp), filterMap_cons,
    filterMap_cons, filterMap_map, hcomp]

end RustStd.Text
