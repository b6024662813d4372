import PxxlEdge.Lib.Text

/-!
UTF-8, as `str::as_bytes` and `String::from_utf8` use it: a string is encoded
character by character, and a byte string is decoded only if it is well formed
(no stray continuation byte, no overlong form, no surrogate, nothing above
`U+10FFFF`).
-/

namespace RustStd

open List

namespace Text

def asBytes (s : Text) : List UInt8 := s.flatMap String.utf8EncodeChar

lemma length_asBytes (s : Text) : s.asBytes.length = s.len := by
  rw [asBytes, length_flatMap, len]
  simp only [String.length_utf8EncodeChar]

def continuation (b : UInt8) : Option ℕ :=
  if 0x80 ≤ b && b < 0xC0 then some (b.toNat - 0x80) else none

def scalarFrom (least n : ℕ) : Option Char :=
  if least ≤ n ∧ n.isValidChar then some (Char.ofNat n) else none

def fromUtf8 : List UInt8 → Option Text
  | [] => some []
  | b₀ :: bs =>
    if b₀ < 0x80 then (fromUtf8 bs).map (Char.ofNat b₀.toNat :: ·)
    else if b₀ < 0xC0 then none
    else match bs with
      | [] => none
      | b₁ :: bs₁ =>
        if b₀ < 0xE0 then do
          let n₁ ← continuation b₁
          let c ← scalarFrom 0x80 ((b₀.toNat - 0xC0) * 0x40 + n₁)
          (fromUtf8 bs₁).map (c :: ·)
        else match bs₁ with
          | [] => none
          | b₂ :: bs₂ =>
            if b₀ < 0xF0 then do
              let n₁ ← continuation b₁
              let n₂ ← continuation b₂
              let c ← scalarFrom 0x800 (((b₀.toNat - 0xE0) * 0x40 + n₁) * 0x40 + n₂)
              (fromUtf8 bs₂).map (c :: ·)
            else match bs₂ with
              | [] => none
              | b₃ :: bs₃ =>
                if b₀ < 0xF8 then do
                  let n₁ ← continuation b₁
                  let n₂ ← continuation b₂
                  let n₃ ← continuation b₃
                  let c ← scalarFrom 0x10000
                    ((((b₀.toNat - 0xF0) * 0x40 + n₁) * 0x40 + n₂) * 0x40 + n₃)
                  (fromUtf8 bs₃).map (c :: ·)
                else none

-- an overlong slash is not UTF-8
example : fromUtf8 [0xC0, 0xAF] = none := by decide

@[simp] lemma asBytes_nil : asBytes [] = [] := rfl

@[simp] lemma asBytes_cons (c : Char) (s : Text) :
    asBytes (c :: s) = String.utf8EncodeChar c ++ asBytes s := flatMap_cons

@[simp] lemma asBytes_append (s t : Text) : asBytes (s ++ t) = asBytes s ++ asBytes t :=
  flatMap_append

/-! ### The forms of a character -/

lemma toNat_byte {n : ℕ} (hn : n < 256) : (UInt8.ofNat n).toNat = n := UInt8.toNat_ofNat_of_lt' hn

lemma forall_byte {P : UInt8 → Prop} (h : ∀ n < 256, P (UInt8.ofNat n)) (b : UInt8) : P b := by
  have hb := h b.toNat b.toNat_lt
  rwa [UInt8.ofNat_toNat] at hb

lemma continuation_eq_some {b : UInt8} {n : ℕ} :
    continuation b = some n ↔ b.toNat = 0x80 + n ∧ n < 0x40 := by
  simp only [continuation, Bool.and_eq_true, decide_eq_true_eq, UInt8.le_iff_toNat_le,
    UInt8.lt_iff_toNat_lt, Option.ite_none_right_eq_some, Option.some.injEq]
  change (0x80 ≤ b.toNat ∧ b.toNat < 0xC0) ∧ _ ↔ _
  omega

lemma toNat_ofNat {n : ℕ} (hn : n.isValidChar) : (Char.ofNat n).toNat = n := by
  rw [show Char.ofNat n = Char.ofNatAux n hn from dif_pos hn]
  rfl

lemma scalarFrom_eq_some {least n : ℕ} {c : Char} :
    scalarFrom least n = some c ↔ c.toNat = n ∧ least ≤ n := by
  rw [scalarFrom, Option.ite_none_right_eq_some, Option.some.injEq]
  constructor
  · rintro ⟨⟨hleast, hvalid⟩, rfl⟩
    exact ⟨toNat_ofNat hvalid, hleast⟩
  · rintro ⟨rfl, hleast⟩
    exact ⟨⟨hleast, c.valid⟩, Char.ofNat_toNat c⟩

lemma toNat_lt (c : Char) : c.toNat < 0x110000 := by
  rcases c.valid with h | h
  · exact h.trans (by decide)
  · exact h.2

section Forms

variable {b b₁ b₂ b₃ : UInt8} {c : Char} (bs : List UInt8)

lemma not_lt_mark {mark n : ℕ} (hb : b.toNat = mark + n) (k : UInt8) (hk : k.toNat ≤ mark) :
    ¬ b < k := by
  rw [UInt8.lt_iff_toNat_lt]
  omega

lemma fromUtf8_one (hb : b.toNat = c.toNat) (hc : c.toNat < 0x80) :
    fromUtf8 (b :: bs) = (fromUtf8 bs).map (c :: ·) := by
  have hlt : b < 0x80 := UInt8.lt_iff_toNat_lt.mpr (hb ▸ hc)
  rw [fromUtf8.eq_def]
  dsimp only
  rw [if_pos hlt, hb, Char.ofNat_toNat]

lemma fromUtf8_two (n n₁ : ℕ) (hb : b.toNat = 0xC0 + n) (hn : n < 0x20)
    (h₁ : b₁.toNat = 0x80 + n₁) (hn₁ : n₁ < 0x40) (hc : c.toNat = n * 0x40 + n₁)
    (hleast : 0x80 ≤ c.toNat) :
    fromUtf8 (b :: b₁ :: bs) = (fromUtf8 bs).map (c :: ·) := by
  have hge := not_lt_mark hb
  have hlt : b < 0xE0 := UInt8.lt_iff_toNat_lt.mpr (by rw [hb]; exact (by omega : 0xC0 + n < 0xE0))
  rw [fromUtf8.eq_def]
  dsimp only
  rw [if_neg (hge 0x80 (by decide)), if_neg (hge 0xC0 (by decide)), if_pos hlt,
    continuation_eq_some.mpr ⟨h₁, hn₁⟩, hb, Nat.add_sub_cancel_left]
  simp only [Option.bind_eq_bind, Option.bind_some]
  rw [scalarFrom_eq_some.mpr ⟨hc, hc ▸ hleast⟩, Option.bind_some]

lemma fromUtf8_three (n n₁ n₂ : ℕ) (hb : b.toNat = 0xE0 + n) (hn : n < 0x10)
    (h₁ : b₁.toNat = 0x80 + n₁) (hn₁ : n₁ < 0x40) (h₂ : b₂.toNat = 0x80 + n₂) (hn₂ : n₂ < 0x40)
    (hc : c.toNat = (n * 0x40 + n₁) * 0x40 + n₂) (hleast : 0x800 ≤ c.toNat) :
    fromUtf8 (b :: b₁ :: b₂ :: bs) = (fromUtf8 bs).map (c :: ·) := by
  have hge := not_lt_mark hb
  have hlt : b < 0xF0 := UInt8.lt_iff_toNat_lt.mpr (by rw [hb]; exact (by omega : 0xE0 + n < 0xF0))
  rw [fromUtf8.eq_def]
  dsimp only
  rw [if_neg (hge 0x80 (by decide)), if_neg (hge 0xC0 (by decide)), if_neg (hge 0xE0 (by decide)),
    if_pos hlt, continuation_eq_some.mpr ⟨h₁, hn₁⟩, continuation_eq_some.mpr ⟨h₂, hn₂⟩, hb,
    Nat.add_sub_cancel_left]
  simp only [Option.bind_eq_bind, Option.bind_some]
  rw [scalarFrom_eq_some.mpr ⟨hc, hc ▸ hleast⟩, Option.bind_some]

lemma fromUtf8_four (n n₁ n₂ n₃ : ℕ) (hb : b.toNat = 0xF0 + n) (hn : n < 0x08)
    (h₁ : b₁.toNat = 0x80 + n₁) (hn₁ : n₁ < 0x40) (h₂ : b₂.toNat = 0x80 + n₂) (hn₂ : n₂ < 0x40)
    (h₃ : b₃.toNat = 0x80 + n₃) (hn₃ : n₃ < 0x40)
    (hc : c.toNat = ((n * 0x40 + n₁) * 0x40 + n₂) * 0x40 + n₃) (hleast : 0x10000 ≤ c.toNat) :
    fromUtf8 (b :: b₁ :: b₂ :: b₃ :: bs) = (fromUtf8 bs).map (c :: ·) := by
  have hge := not_lt_mark hb
  have hlt : b < 0xF8 := UInt8.lt_iff_toNat_lt.mpr (by rw [hb]; exact (by omega : 0xF0 + n < 0xF8))
  rw [fromUtf8.eq_def]
  dsimp only
  rw [if_neg (hge 0x80 (by decide)), if_neg (hge 0xC0 (by decide)), if_neg (hge 0xE0 (by decide)),
    if_neg (hge 0xF0 (by decide)), if_pos hlt, continuation_eq_some.mpr ⟨h₁, hn₁⟩,
    continuation_eq_some.mpr ⟨h₂, hn₂⟩, continuation_eq_some.mpr ⟨h₃, hn₃⟩, hb,
    Nat.add_sub_cancel_left]
  simp only [Option.bind_eq_bind, Option.bind_some]
  rw [scalarFrom_eq_some.mpr ⟨hc, hc ▸ hleast⟩, Option.bind_some]

end Forms

/-! ### Encoding and decoding -/

lemma fromUtf8_utf8EncodeChar_append (c : Char) (bs : List UInt8) :
    fromUtf8 (String.utf8EncodeChar c ++ bs) = (fromUtf8 bs).map (c :: ·) := by
  have hmax := toNat_lt c
  have hval : c.val.toNat = c.toNat := rfl
  simp only [String.utf8EncodeChar, hval]
  -- the payloads are the digits of the code point to the base `0x40`
  split
  · exact fromUtf8_one bs (toNat_byte (by omega)) (by omega)
  · split
    · exact fromUtf8_two bs (c.toNat / 64) (c.toNat % 64)
        (by rw [toNat_byte (by omega)]; omega) (by omega)
        (by rw [toNat_byte (by omega)]; omega) (by omega) (by omega) (by omega)
    · split
      · exact fromUtf8_three bs (c.toNat / 4096) (c.toNat / 64 % 64) (c.toNat % 64)
          (by rw [toNat_byte (by omega)]; omega) (by omega)
          (by rw [toNat_byte (by omega)]; omega) (by omega)
          (by rw [toNat_byte (by omega)]; omega) (by omega) (by omega) (by omega)
      · exact fromUtf8_four bs (c.toNat / 262144) (c.toNat / 4096 % 64) (c.toNat / 64 % 64)
          (c.toNat % 64)
          (by rw [toNat_byte (by omega)]; omega) (by omega)
          (by rw [toNat_byte (by omega)]; omega) (by omega)
          (by rw [toNat_byte (by omega)]; omega) (by omega)
          (by rw [toNat_byte (by omega)]; omega) (by omega) (by omega) (by omega)

theorem fromUtf8_asBytes (s : Text) : fromUtf8 s.asBytes = some s := by
  induction s with
  | nil => rfl
  | cons c s ih => rw [asBytes_cons, fromUtf8_utf8EncodeChar_append, ih, Option.map_some]

theorem asBytes_of_fromUtf8 {bs : List UInt8} {s : Text} (h : fromUtf8 bs = some s) :
    s.asBytes = bs := by
  have hbyte : ∀ (b : UInt8) n, b.toNat = n → UInt8.ofNat n = b := by
    rintro b _ rfl
    exact UInt8.ofNat_toNat
  have hval : ∀ c : Char, c.val.toNat = c.toNat := fun _ => rfl
  fun_induction fromUtf8 bs generalizing s with
  | case1 =>
    cases h
    rfl
  | case2 b bs hb ih =>
    obtain ⟨t, ht, rfl⟩ := Option.map_eq_some_iff.mp h
    have hlt : b.toNat < 0x80 := UInt8.lt_iff_toNat_lt.mp hb
    rw [asBytes_cons, ih ht, String.utf8EncodeChar, hval,
      toNat_ofNat (.inl (by omega)), if_pos (by omega), hbyte b _ rfl]
    rfl
  | case5 b hb₀ hb₁ b₁ bs hb ih =>
    simp only [Option.bind_eq_bind, Option.bind_eq_some_iff, Option.map_eq_some_iff,
      continuation_eq_some, scalarFrom_eq_some] at h
    obtain ⟨n₁, ⟨h₁, hn₁⟩, c, ⟨hc, hleast⟩, t, ht, rfl⟩ := h
    have hge : 0xC0 ≤ b.toNat := UInt8.le_iff_toNat_le.mp (UInt8.not_lt.mp hb₁)
    have hlt : b.toNat < 0xE0 := UInt8.lt_iff_toNat_lt.mp hb
    rw [asBytes_cons, ih ht, String.utf8EncodeChar, hval]
    rw [if_neg (by omega), if_pos (by omega), hbyte b _ (by omega), hbyte b₁ _ (by omega)]
    rfl
  | case7 b hb₀ hb₁ b₁ hb₂ b₂ bs hb ih =>
    simp only [Option.bind_eq_bind, Option.bind_eq_some_iff, Option.map_eq_some_iff,
      continuation_eq_some, scalarFrom_eq_some] at h
    obtain ⟨n₁, ⟨h₁, hn₁⟩, n₂, ⟨h₂, hn₂⟩, c, ⟨hc, hleast⟩, t, ht, rfl⟩ := h
    have hge : 0xE0 ≤ b.toNat := UInt8.le_iff_toNat_le.mp (UInt8.not_lt.mp hb₂)
    have hlt : b.toNat < 0xF0 := UInt8.lt_iff_toNat_lt.mp hb
    rw [asBytes_cons, ih ht, String.utf8EncodeChar, hval]
    rw [if_neg (by omega), if_neg (by omega), if_pos (by omega), hbyte b _ (by omega),
      hbyte b₁ _ (by omega), hbyte b₂ _ (by omega)]
    rfl
  | case9 b hb₀ hb₁ b₁ hb₂ b₂ hb₃ b₃ bs hb ih =>
    simp only [Option.bind_eq_bind, Option.bind_eq_some_iff, Option.map_eq_some_iff,
      continuation_eq_some, scalarFrom_eq_some] at h
    obtain ⟨n₁, ⟨h₁, hn₁⟩, n₂, ⟨h₂, hn₂⟩, n₃, ⟨h₃, hn₃⟩, c, ⟨hc, hleast⟩, t, ht, rfl⟩ := h
    have hge : 0xF0 ≤ b.toNat := UInt8.le_iff_toNat_le.mp (UInt8.not_lt.mp hb₃)
    have hlt : b.toNat < 0xF8 := UInt8.lt_iff_toNat_lt.mp hb
    have hmax := toNat_lt c
    rw [asBytes_cons, ih ht, String.utf8EncodeChar, hval]
    rw [if_neg (by omega), if_neg (by omega), if_neg (by omega), hbyte b _ (by omega),
      hbyte b₁ _ (by omega), hbyte b₂ _ (by omega), hbyte b₃ _ (by omega)]
    rfl
  | _ => cases h

example : fromUtf8 (asBytes "/é€😀") = some "/é€😀" := by decide +kernel

/-! ### ASCII in the bytes -/

lemma utf8EncodeChar_of_lt {c : Char} (hc : c.toNat < 0x80) :
    String.utf8EncodeChar c = [UInt8.ofNat c.toNat] :=
  if_pos (Nat.lt_succ_iff.mp hc)

lemma toNat_eq_of_mem_utf8EncodeChar {c : Char} {b : UInt8} (hb : b ∈ String.utf8EncodeChar c)
    (hlt : b.toNat < 0x80) : c.toNat = b.toNat := by
  have hval : c.val.toNat = c.toNat := rfl
  simp only [String.utf8EncodeChar, hval] at hb
  split at hb
  · rw [mem_singleton.mp hb, toNat_byte (by omega)]
  · -- all bytes of the longer forms are at least `0x80`
    exfalso
    split at hb
    · simp only [mem_cons, not_mem_nil, or_false] at hb
      rcases hb with rfl | rfl <;> rw [toNat_byte (by omega)] at hlt <;> omega
    · split at hb
      · simp only [mem_cons, not_mem_nil, or_false] at hb
        rcases hb with rfl | rfl | rfl <;> rw [toNat_byte (by omega)] at hlt <;> omega
      · simp only [mem_cons, not_mem_nil, or_false] at hb
        rcases hb with rfl | rfl | rfl | rfl <;> rw [toNat_byte (by omega)] at hlt <;> omega

lemma eq_of_mem_utf8EncodeChar {c k : Char} (hk : k.toNat < 0x80)
    (hb : UInt8.ofNat k.toNat ∈ String.utf8EncodeChar c) : c = k := by
  have hbyte : (UInt8.ofNat k.toNat).toNat = k.toNat := toNat_byte (by omega)
  have hck := toNat_eq_of_mem_utf8EncodeChar hb (by rwa [hbyte])
  rw [← Char.ofNat_toNat c, hck, hbyte, Char.ofNat_toNat]

lemma mem_asBytes_iff {k : Char} (hk : k.toNat < 0x80) {s : Text} :
    UInt8.ofNat k.toNat ∈ asBytes s ↔ k ∈ s := by
  constructor
  · intro h
    obtain ⟨c, hc, hb⟩ := mem_flatMap.mp h
    rwa [← eq_of_mem_utf8EncodeChar hk hb]
  · intro h
    refine mem_flatMap.mpr ⟨k, h, ?_⟩
    rw [utf8EncodeChar_of_lt hk]
    exact mem_singleton_self _

lemma isPrefix_of_asBytes {t s : Text} (ht : ∀ c ∈ t, c.toNat < 0x80)
    (h : asBytes t <+: asBytes s) : t <+: s := by
  induction t generalizing s with
  | nil => exact nil_prefix
  | cons k t ih =>
    have hk := ht k mem_cons_self
    rw [asBytes_cons, utf8EncodeChar_of_lt hk, singleton_append] at h
    cases s with
    | nil => simp at h
    | cons c s =>
      obtain ⟨b, bs, hc⟩ : ∃ b bs, String.utf8EncodeChar c = b :: bs :=
        exists_cons_of_ne_nil String.utf8EncodeChar_ne_nil
      rw [asBytes_cons, hc, cons_append, cons_prefix_cons] at h
      obtain ⟨rfl, hrest⟩ := h
      obtain rfl := eq_of_mem_utf8EncodeChar hk (hc ▸ mem_cons_self)
      obtain rfl : [] = bs := by
        rw [utf8EncodeChar_of_lt hk] at hc
        exact (List.cons.inj hc).2
      exact cons_prefix_cons.mpr ⟨rfl, ih (fun c hc => ht c (by simp [hc])) hrest⟩

lemma isInfix_of_asBytes {t s : Text} (ht : ∀ c ∈ t, c.toNat < 0x80) (hne : t ≠ [])
    (h : asBytes t <:+: asBytes s) : t <:+: s := by
  obtain ⟨k, t, rfl⟩ := exists_cons_of_ne_nil hne
  have hk := ht k mem_cons_self
  induction s with
  | nil => simp [utf8EncodeChar_of_lt hk] at h
  | cons c s ih =>
    by_cases hc : c.toNat < 0x80
    · rw [asBytes_cons c, utf8EncodeChar_of_lt hc, singleton_append,
        infix_cons_iff] at h
      rcases h with h | h
      · have hpre : asBytes (k :: t) <+: asBytes (c :: s) := by
          rwa [asBytes_cons c, utf8EncodeChar_of_lt hc, singleton_append]
        exact (isPrefix_of_asBytes ht hpre).isInfix
      · exact (ih h).trans (suffix_cons c s).isInfix
    · -- the first byte of the text is none of the bytes of `c`
      have hskip : ∀ bs : List UInt8, (∀ b ∈ bs, b ∈ String.utf8EncodeChar c) →
          asBytes (k :: t) <:+: bs ++ asBytes s → asBytes (k :: t) <:+: asBytes s := by
        intro bs hbs
        induction bs with
        | nil => exact id
        | cons b bs ihbs =>
          intro h
          rw [cons_append, infix_cons_iff] at h
          rcases h with h | h
          · rw [asBytes_cons, utf8EncodeChar_of_lt hk, singleton_append,
              cons_prefix_cons] at h
            obtain rfl := eq_of_mem_utf8EncodeChar hk (h.1 ▸ hbs b mem_cons_self)
            exact absurd hk hc
          · exact ihbs (fun b' hb' => hbs b' (by simp [hb'])) h
      rw [asBytes_cons c] at h
      exact (ih (hskip _ (fun _ hb => hb) h)).trans (suffix_cons c s).isInfix

end Text

end RustStd
