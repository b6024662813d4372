import PxxlEdge.Lib.Text

/-!
Numbers written out in the digits of a base and read back.
-/

namespace RustStd

section Digits

variable {b : ℕ}

lemma toDigit_digitChar (hb : b ≤ 16) {d : ℕ} (hd : d < b) :
    toDigit b (Nat.digitChar d) = some d := by
  have hvalue : ∀ d < 16, toDigit 16 (Nat.digitChar d) = some d := by decide
  have h16 := hvalue d (lt_of_lt_of_le hd hb)
  rw [toDigit, Option.filter_eq_some_iff] at h16 ⊢
  exact ⟨h16.1, by simpa using hd⟩

lemma exists_digitChar_of_mem (hb : 1 < b) {n : ℕ} {c : Char} (hc : c ∈ Nat.toDigits b n) :
    ∃ d < b, c = Nat.digitChar d := by
  induction n using Nat.strong_induction_on with
  | _ n ih =>
    rw [Nat.toDigits_eq_if hb] at hc
    split at hc
    next hlt => exact ⟨n, hlt, List.mem_singleton.mp hc⟩
    next hge =>
      rcases List.mem_append.mp hc with hc | hc
      · exact ih (n / b) (Nat.div_lt_self (by omega) hb) hc
      · exact ⟨n % b, Nat.mod_lt _ (by omega), List.mem_singleton.mp hc⟩

lemma isWhitespace_of_isSome_toDigit {c : Char} (hc : (toDigit 16 c).isSome) :
    Text.isWhitespace c = false := by
  obtain ⟨d, hd⟩ := Option.isSome_iff_exists.mp hc
  have hrange : (48 ≤ c.toNat ∧ c.toNat ≤ 57) ∨ (65 ≤ c.toNat ∧ c.toNat ≤ 122) := by
    have hvalue := (Option.filter_eq_some_iff.mp hd).1
    split_ifs at hvalue <;> omega
  simp only [Text.isWhitespace, Bool.or_eq_false_iff, Bool.and_eq_false_iff,
    decide_eq_false_iff_not, beq_eq_false_iff_ne]
  omega

lemma not_mem_toDigits (hb : 1 < b) (hb' : b ≤ 16) {c : Char} (hc : toDigit 16 c = none) (n : ℕ) :
    c ∉ Nat.toDigits b n := by
  intro hmem
  obtain ⟨d, hd, rfl⟩ := exists_digitChar_of_mem hb hmem
  rw [toDigit_digitChar le_rfl (lt_of_lt_of_le hd hb')] at hc
  cases hc

lemma foldlM_toDigits (hb : 1 < b) (hb' : b ≤ 16) (n : ℕ) :
    (Nat.toDigits b n).foldlM (fun n c => (toDigit b c).map (n * b + ·)) 0 = some n := by
  induction n using Nat.strong_induction_on with
  | _ n ih =>
    rw [Nat.toDigits_eq_if hb]
    split
    next hlt => simp [toDigit_digitChar hb' hlt]
    next hge =>
      have hlast : toDigit b (Nat.digitChar (n % b)) = some (n % b) :=
        toDigit_digitChar hb' (Nat.mod_lt _ (by omega))
      rw [List.foldlM_append, ih (n / b) (Nat.div_lt_self (by omega) hb)]
      simp [hlast, Nat.div_add_mod']

lemma parseUnsigned_toDigits (hb : 1 < b) (hb' : b ≤ 16) {bits n : ℕ} (hn : n < 2 ^ bits) :
    parseUnsigned b bits (Nat.toDigits b n) = some n := by
  have hplus : (Nat.toDigits b n).head? ≠ some '+' := fun h =>
    not_mem_toDigits hb hb' (by decide) n (List.mem_of_head? h)
  have hne : Nat.toDigits b n ≠ [] := Nat.toDigits_ne_nil
  simp [parseUnsigned, hplus, hne, foldlM_toDigits hb hb', hn]

lemma parseUnsigned_lt {bits n : ℕ} {s : Text} (h : parseUnsigned b bits s = some n) :
    n < 2 ^ bits := by
  by_cases hempty : (if s.head? = some '+' then s.tail else s) = []
  · rw [parseUnsigned, if_pos hempty] at h
    cases h
  · rw [parseUnsigned, if_neg hempty] at h
    obtain ⟨m, -, hm⟩ := Option.bind_eq_some_iff.mp h
    split at hm
    · next hlt => exact Option.some.inj hm ▸ hlt
    · cases hm

lemma toDigit_toLower (c : Char) : toDigit 16 c.toLower = toDigit 16 c := by
  have hletters : ∀ n ∈ Finset.Icc 65 90,
      toDigit 16 (Char.ofNat n).toLower = toDigit 16 (Char.ofNat n) := by decide
  rcases Text.toLower_eq_self_or c with h | ⟨n, hn, rfl⟩
  · rw [h]
  · exact hletters n hn

lemma parseUnsigned_of_lowercase {s : Text} {bits n : ℕ} (hn : n < 2 ^ bits)
    (h : s.toAsciiLowercase = Nat.toDigits 16 n) : parseUnsigned 16 bits s = some n := by
  have hplus : s.head? ≠ some '+' := by
    intro hhead
    refine not_mem_toDigits (by omega) le_rfl (c := '+') (by decide) n ?_
    rw [← h]
    exact List.mem_map_of_mem (f := Char.toLower) (List.mem_of_head? hhead)
  have hne : s ≠ [] := by
    rintro rfl
    exact Nat.toDigits_ne_nil h.symm
  have hvalue : s.foldlM (fun n c => (toDigit 16 c).map (n * 16 + ·)) 0 = some n := by
    rw [← foldlM_toDigits (by omega) le_rfl n, ← h, Text.toAsciiLowercase, List.foldlM_map]
    simp only [toDigit_toLower]
  simp [parseUnsigned, hplus, hne, hvalue, hn]

end Digits

end RustStd
