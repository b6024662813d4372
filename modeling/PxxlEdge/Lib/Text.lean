import Mathlib.Tactic
import Mathlib.Data.List.DropRight

/-!
Strings of the Rust standard library, as far as a proxy needs them.

A `&str` is the list of its characters, and the operations are those of `str`
under their Rust names: `len` counts UTF-8 bytes, `trim` removes Unicode white
space, the `trim_*_matches` family removes one character from the ends, the
ASCII case operations touch `A`–`Z` only.  `split(c)` is `List.splitOn`, which
always returns at least one piece, as Rust's does.
-/

namespace RustStd

open List

abbrev Text := List Char

instance : Coe String Text := ⟨String.toList⟩

namespace Text

def len (s : Text) : ℕ := (s.map Char.utf8Size).sum

def isWhitespace (c : Char) : Bool :=
  let n := c.toNat
  (0x09 ≤ n && n ≤ 0x0D) || n == 0x20 || n == 0x85 || n == 0xA0 || n == 0x1680 ||
    (0x2000 ≤ n && n ≤ 0x200A) || n == 0x2028 || n == 0x2029 || n == 0x202F ||
    n == 0x205F || n == 0x3000

def trimStart (s : Text) : Text := s.dropWhile isWhitespace

def trim (s : Text) : Text := (trimStart s).rdropWhile isWhitespace

def trimStartMatches (c : Char) (s : Text) : Text := s.dropWhile (· == c)

def trimEndMatches (c : Char) (s : Text) : Text := s.rdropWhile (· == c)

def trimMatches (c : Char) (s : Text) : Text := trimEndMatches c (trimStartMatches c s)

def toAsciiLowercase (s : Text) : Text := s.map Char.toLower

def toAsciiUppercase (s : Text) : Text := s.map Char.toUpper

def eqIgnoreAsciiCase (s t : Text) : Bool := toAsciiLowercase s == toAsciiLowercase t

def startsWith (s pat : Text) : Bool := pat.isPrefixOf s

def endsWith (s pat : Text) : Bool := pat.isSuffixOf s

def contains (s pat : Text) : Bool := decide (pat <:+: s)

def stripPrefix (s pat : Text) : Option Text :=
  if startsWith s pat then some (s.drop pat.length) else none

def trimStartTimes (pat : Text) : ℕ → Text → Text
  | 0, s => s
  | n + 1, s =>
    match stripPrefix s pat with
    | some rest => trimStartTimes pat n rest
    | none => s

def trimStartText (pat s : Text) : Text := trimStartTimes pat s.length s

def isLe : Text → Text → Bool
  | [], _ => true
  | _ :: _, [] => false
  | a :: s, b :: t => if a = b then isLe s t else decide (a.toNat < b.toNat)

lemma isLe_total (s t : Text) : isLe s t = true ∨ isLe t s = true := by
  fun_induction isLe s t <;> grind [isLe, Char.toNat_inj]

lemma isLe_antisymm {s t : Text} (h : isLe s t = true) (h' : isLe t s = true) : s = t := by
  induction s generalizing t with
  | nil => cases t <;> grind [isLe]
  | cons a s ih => cases t <;> grind [isLe]

lemma isLe_trans {s t u : Text} (h : isLe s t = true) (h' : isLe t u = true) :
    isLe s u = true := by
  fun_induction isLe s t generalizing u <;> cases u <;> grind [isLe]

def splitOnce (c : Char) : Text → Option (Text × Text)
  | [] => none
  | x :: xs =>
    if x == c then some ([], xs) else (splitOnce c xs).map fun p => (x :: p.1, p.2)

def rsplitOnce (c : Char) (s : Text) : Option (Text × Text) :=
  (splitOnce c s.reverse).map fun p => (p.2.reverse, p.1.reverse)

@[simp] lemma len_append (s t : Text) : len (s ++ t) = len s + len t := by
  simp [len]

lemma len_le_of_sublist {s t : Text} (h : s.Sublist t) : len s ≤ len t :=
  (h.map Char.utf8Size).sum_le_sum fun _ _ => Nat.zero_le _

lemma eq_nil_of_len_eq_zero {s : Text} (h : len s = 0) : s = [] := by
  cases s with
  | nil => rfl
  | cons c s =>
    have hc := c.utf8Size_pos
    simp only [len, map_cons, sum_cons] at h
    omega

lemma eq_of_isPrefix_of_len_eq {s t u : Text} (hs : s <+: u) (ht : t <+: u)
    (hlen : len s = len t) : s = t := by
  rcases prefix_or_prefix_of_prefix hs ht with ⟨r, rfl⟩ | ⟨r, rfl⟩
  · have hr : r = [] := eq_nil_of_len_eq_zero (by rw [len_append] at hlen; omega)
    rw [hr, append_nil]
  · have hr : r = [] := eq_nil_of_len_eq_zero (by rw [len_append] at hlen; omega)
    rw [hr, append_nil]

lemma trim_append_of_all_ws {ws : Text} (h : ∀ c ∈ ws, isWhitespace c = true) (s : Text) :
    trim (ws ++ s) = trim s := by
  rw [trim, trim, trimStart, trimStart, dropWhile_append_of_pos h]

lemma toLower_eq_self_or (c : Char) : c.toLower = c ∨ ∃ n ∈ Finset.Icc 65 90, c = Char.ofNat n := by
  by_cases h : c.val ≥ 'A'.val ∧ c.val ≤ 'Z'.val
  · refine .inr ⟨c.toNat, Finset.mem_Icc.mpr ⟨?_, ?_⟩, (Char.ofNat_toNat c).symm⟩
    · exact UInt32.le_iff_toNat_le.mp h.1
    · exact UInt32.le_iff_toNat_le.mp h.2
  · exact .inl (dif_neg h)

lemma toLower_toLower (c : Char) : c.toLower.toLower = c.toLower := by
  have hletters : ∀ n ∈ Finset.Icc 65 90,
      (Char.ofNat n).toLower.toLower = (Char.ofNat n).toLower := by decide
  rcases toLower_eq_self_or c with h | ⟨n, hn, rfl⟩
  · rw [h, h]
  · exact hletters n hn

lemma eq_of_toLower_eq {c k : Char} (hk : k.toNat < 97 ∨ 122 < k.toNat) (h : c.toLower = k) :
    c = k := by
  have hletters : ∀ n ∈ Finset.Icc 65 90,
      97 ≤ (Char.ofNat n).toLower.toNat ∧ (Char.ofNat n).toLower.toNat ≤ 122 := by decide
  rcases toLower_eq_self_or c with hself | ⟨n, hn, rfl⟩
  · rw [← hself, h]
  · have hn := hletters n hn
    rw [h] at hn
    omega

lemma isWhitespace_toLower (c : Char) : isWhitespace c.toLower = isWhitespace c := by
  have hletters : ∀ n ∈ Finset.Icc 65 90,
      isWhitespace (Char.ofNat n).toLower = isWhitespace (Char.ofNat n) := by decide
  rcases toLower_eq_self_or c with h | ⟨n, hn, rfl⟩
  · rw [h]
  · exact hletters n hn

@[simp] lemma toAsciiLowercase_toAsciiLowercase (s : Text) :
    toAsciiLowercase (toAsciiLowercase s) = toAsciiLowercase s := by
  rw [toAsciiLowercase, toAsciiLowercase, map_map]
  exact map_congr_left fun c _ => toLower_toLower c

@[simp] lemma trim_trim (s : Text) : trim (trim s) = trim s := by
  have hstart : trimStart ((trimStart s).rdropWhile isWhitespace) =
      (trimStart s).rdropWhile isWhitespace := by
    have hhead := dropWhile_eq_self_iff.mp (dropWhile_idempotent isWhitespace s)
    refine dropWhile_eq_self_iff.mpr fun hl => ?_
    have hpre := rdropWhile_prefix isWhitespace (trimStart s)
    rw [hpre.getElem hl]
    exact hhead (hl.trans_le hpre.length_le)
  rw [trim, trim, hstart, rdropWhile_idempotent]

lemma trim_toAsciiLowercase (s : Text) : trim (toAsciiLowercase s) = toAsciiLowercase (trim s) := by
  have hp : isWhitespace ∘ Char.toLower = isWhitespace := funext isWhitespace_toLower
  simp only [trim, trimStart, toAsciiLowercase, List.rdropWhile, dropWhile_map,
    ← map_reverse, hp]

lemma stripPrefix_append (pat s : Text) : stripPrefix (pat ++ s) pat = some s := by
  rw [stripPrefix, if_pos (by simp [startsWith]), drop_left]

lemma trimStartText_append {pat s : Text} (hpat : pat ≠ []) (h : startsWith s pat = false) :
    trimStartText pat (pat ++ s) = s := by
  have hstop : ∀ n, trimStartTimes pat n s = s := by
    intro n
    cases n with
    | zero => rfl
    | succ n => rw [trimStartTimes, stripPrefix, h, if_neg (by decide)]
  obtain ⟨n, hn⟩ : ∃ n, (pat ++ s).length = n + 1 :=
    ⟨(pat ++ s).length - 1, by have := length_pos_iff.mpr hpat; simp; omega⟩
  rw [trimStartText, hn, trimStartTimes, stripPrefix_append]
  exact hstop n

lemma rdropWhile_append_of_all {p : Char → Bool} {s t : Text} (h : ∀ c ∈ t, p c = true) :
    (s ++ t).rdropWhile p = s.rdropWhile p := by
  rw [List.rdropWhile, List.rdropWhile, reverse_append,
    dropWhile_append_of_pos fun c hc => h c (mem_reverse.mp hc)]

lemma exists_rdropWhile_append_cons {p : Char → Bool} {c : Char} (hc : p c = false) (s t : Text) :
    ∃ t', (s ++ c :: t).rdropWhile p = s ++ c :: t' := by
  induction t using List.reverseRecOn with
  | nil => exact ⟨[], rdropWhile_concat_neg _ _ _ (by simp [hc])⟩
  | append_singleton t d ih =>
    rw [← cons_append, ← append_assoc]
    by_cases hd : p d = true
    · rw [rdropWhile_concat_pos _ _ _ hd]
      exact ih
    · rw [rdropWhile_concat_neg _ _ _ hd]
      exact ⟨t ++ [d], by simp⟩

lemma trimEndMatches_eq_self_iff {c : Char} {s : Text} :
    trimEndMatches c s = s ↔ endsWith s [c] = false := by
  rw [← Bool.not_eq_true, endsWith, isSuffixOf_iff_suffix, trimEndMatches,
    rdropWhile_eq_self_iff]
  constructor
  · rintro h ⟨t, rfl⟩
    exact h (by simp) (by simp)
  · intro h hl hc
    refine h ⟨s.dropLast, ?_⟩
    rw [← eq_of_beq hc, dropLast_append_getLast]

lemma endsWith_trimEndMatches (c : Char) (s : Text) :
    endsWith (trimEndMatches c s) [c] = false :=
  trimEndMatches_eq_self_iff.mp (rdropWhile_idempotent _ _)

lemma trimEndMatches_toAsciiLowercase {k : Char} (hk : k.toNat < 97 ∨ 122 < k.toNat)
    (hk' : k.toLower = k) (s : Text) :
    trimEndMatches k (toAsciiLowercase s) = toAsciiLowercase (trimEndMatches k s) := by
  have hp : (· == k) ∘ Char.toLower = (· == k) := by
    funext c
    rw [Function.comp_apply, Bool.eq_iff_iff, beq_iff_eq, beq_iff_eq]
    refine ⟨eq_of_toLower_eq hk, ?_⟩
    rintro rfl
    exact hk'
  simp only [trimEndMatches, toAsciiLowercase, List.rdropWhile, dropWhile_map,
    ← map_reverse, hp]

lemma trimMatches_of_not_mem {c : Char} {s : Text} (h : c ∉ s) : trimMatches c s = s := by
  have hstart : trimStartMatches c s = s :=
    dropWhile_eq_self_iff.mpr fun hl hc =>
      h (eq_of_beq hc ▸ getElem_mem hl)
  rw [trimMatches, hstart]
  exact rdropWhile_eq_self_iff.mpr fun hl hc => h (eq_of_beq hc ▸ getLast_mem hl)

lemma exists_mem_splitOn {c sep : Char} {s : Text} (hc : c ∈ s) (hne : c ≠ sep) :
    ∃ piece ∈ s.splitOn sep, c ∈ piece := by
  induction s with
  | nil => cases hc
  | cons x s ih =>
    rw [splitOn_cons_eq_if_modifyHead]
    obtain ⟨first, rest, hs⟩ := exists_cons_of_ne_nil (splitOn_ne_nil sep s)
    rw [hs] at ih ⊢
    rcases mem_cons.mp hc with rfl | hc
    · rw [if_neg (by simpa using hne)]
      exact ⟨c :: first, by simp, by simp⟩
    · obtain ⟨piece, hpiece, hmem⟩ := ih hc
      split
      · exact ⟨piece, by simp [hpiece], hmem⟩
      · rw [modifyHead_cons]
        rcases mem_cons.mp hpiece with rfl | hpiece
        · exact ⟨x :: piece, by simp, by simp [hmem]⟩
        · exact ⟨piece, by simp [hpiece], hmem⟩

lemma flatten_splitOn (sep : Char) (s : Text) :
    (s.splitOn sep).flatten = s.filter fun c => c != sep := by
  induction s with
  | nil => rfl
  | cons x s ih =>
    rw [splitOn_cons_eq_if_modifyHead]
    by_cases hx : x = sep
    · subst hx
      rw [if_pos (by simp), flatten_cons, nil_append, ih,
        filter_cons_of_neg (by simp)]
    · obtain ⟨first, rest, hs⟩ := exists_cons_of_ne_nil (splitOn_ne_nil sep s)
      rw [if_neg (by simpa using hx), filter_cons_of_pos (by simpa using hx), ← ih, hs]
      rfl

lemma mem_of_mem_splitOn {c sep : Char} {s piece : Text} (hpiece : piece ∈ s.splitOn sep)
    (hc : c ∈ piece) : c ∈ s ∧ c ≠ sep := by
  have hmem : c ∈ (s.splitOn sep).flatten := mem_flatten_of_mem hpiece hc
  rw [flatten_splitOn, mem_filter] at hmem
  simpa using hmem

lemma isInfix_intercalate {sep piece : Text} {pieces : List Text} (h : piece ∈ pieces) :
    piece <:+: sep.intercalate pieces := by
  induction pieces with
  | nil => cases h
  | cons first pieces ih =>
    cases pieces with
    | nil =>
      rw [mem_singleton.mp h, intercalate_singleton]
    | cons second pieces =>
      rw [intercalate_cons_cons]
      rcases mem_cons.mp h with rfl | h
      · rw [append_assoc]
        exact (prefix_append _ _).isInfix
      · exact (ih h).trans (suffix_append _ _).isInfix

lemma isInfix_of_mem_splitOn {sep : Char} {s piece : Text} (h : piece ∈ s.splitOn sep) :
    piece <:+: s := by
  have hinfix : piece <:+: List.intercalate [sep] (s.splitOn sep) := isInfix_intercalate h
  rwa [intercalate_splitOn] at hinfix

end Text

/-! ### Numbers -/

def toDigit (radix : ℕ) (c : Char) : Option ℕ :=
  let n := c.toNat
  let v? := if 48 ≤ n ∧ n ≤ 57 then some (n - 48)
    else if 97 ≤ n ∧ n ≤ 122 then some (n - 87)
    else if 65 ≤ n ∧ n ≤ 90 then some (n - 55)
    else none
  v?.filter (· < radix)

def parseUnsigned (radix bits : ℕ) (s : Text) : Option ℕ :=
  let digits := if s.head? = some '+' then s.tail else s
  if digits = [] then none
  else do
    let n ← digits.foldlM (fun n c => (toDigit radix c).map (n * radix + ·)) 0
    if n < 2 ^ bits then some n else none

end RustStd
