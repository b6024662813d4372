import PxxlEdge.Proxy.Auth
import PxxlEdge.Lib.Digits

/-!
Bytes of secrets: hexadecimal text, written by the token store (`crates/redis-sync`) and read by
the admin API (`crates/api`), and the comparisons that take the same time wherever two secrets
differ.
-/

namespace PxxlEdge

open RustStd List

/-! ### Hexadecimal text -/

def hexNibble (byte : UInt8) : Option UInt8 := hexValue byte

def decodePair (high low : UInt8) : Except Text UInt8 :=
  match hexNibble high, hexNibble low with
  | some high, some low => .ok ((high <<< 4) ||| low)
  | _, _ => .error "hex value contains invalid characters"

def decodePairs : List UInt8 → Except Text (List UInt8)
  | high :: low :: rest => do
      let byte ← decodePair high low
      let bytes ← decodePairs rest
      .ok (byte :: bytes)
  | _ => .ok []

def decodeHex (value : Text) : Except Text (List UInt8) :=
  if value.len % 2 ≠ 0 then .error "hex value must have an even length"
  else decodePairs value.asBytes

def hexChar (nibble : UInt8) : Char := "0123456789abcdef".toList.getD nibble.toNat '0'

def toHex (bytes : List UInt8) : Text :=
  bytes.flatMap fun byte : UInt8 => [hexChar (byte >>> 4), hexChar (byte &&& 0x0f)]

lemma hexNibble_of_isSome {c : Char} (hc : (toDigit 16 c).isSome) :
    String.utf8EncodeChar c = [UInt8.ofNat c.toNat] ∧
      ∃ nibble < 16, hexNibble (UInt8.ofNat c.toNat) = some nibble ∧
        hexChar nibble = c.toLower := by
  have hfinite : ∀ n < 128, (toDigit 16 (Char.ofNat n)).isSome →
      ((hexNibble (UInt8.ofNat n)).any fun nibble =>
        nibble < 16 && hexChar nibble == (Char.ofNat n).toLower) = true := by
    decide
  have hascii : c.toNat < 128 := by
    obtain ⟨d, hd⟩ := Option.isSome_iff_exists.mp hc
    have hvalue := (Option.filter_eq_some_iff.mp hd).1
    split_ifs at hvalue <;> omega
  have hany := hfinite c.toNat hascii (by rwa [Char.ofNat_toNat])
  obtain ⟨nibble, hnibble, hboth⟩ := Option.any_eq_true _ _ |>.mp hany
  rw [Bool.and_eq_true, decide_eq_true_eq, beq_iff_eq, Char.ofNat_toNat] at hboth
  exact ⟨Text.utf8EncodeChar_of_lt hascii, nibble, hboth.1, hnibble, hboth.2⟩

lemma nibbles_of_lt {high low : UInt8} (hhigh : high < 16) (hlow : low < 16) :
    ((high <<< 4) ||| low) >>> 4 = high ∧ ((high <<< 4) ||| low) &&& 0x0f = low := by
  have hfinite : ∀ h < 16, ∀ l < 16,
      ((UInt8.ofNat h <<< 4) ||| UInt8.ofNat l) >>> 4 = UInt8.ofNat h ∧
        ((UInt8.ofNat h <<< 4) ||| UInt8.ofNat l) &&& 0x0f = UInt8.ofNat l := by
    decide
  simpa using hfinite high.toNat hhigh low.toNat hlow

lemma exists_decodePairs {s : Text} (hs : ∀ c ∈ s, (toDigit 16 c).isSome)
    (heven : s.length % 2 = 0) :
    ∃ bytes, decodePairs s.asBytes = .ok bytes ∧ toHex bytes = s.toAsciiLowercase := by
  induction s using twoStepInduction with
  | nil => exact ⟨[], rfl, rfl⟩
  | singleton c => simp at heven
  | cons_cons c d s ih _ =>
    obtain ⟨hc, high, hhigh, hc', hclower⟩ := hexNibble_of_isSome (hs c (by simp))
    obtain ⟨hd, low, hlow, hd', hdlower⟩ := hexNibble_of_isSome (hs d (by simp))
    obtain ⟨bytes, hbytes, hlower⟩ := ih (fun x hx => hs x (by simp [hx])) (by simp at heven; omega)
    have hnibbles := nibbles_of_lt hhigh hlow
    refine ⟨((high <<< 4) ||| low) :: bytes, ?_, ?_⟩
    · simp [hc, hd, decodePairs, decodePair, hc', hd', hbytes, bind, Except.bind]
    · rw [toHex, flatMap_cons, hnibbles.1, hnibbles.2, hclower, hdlower]
      exact congrArg (c.toLower :: d.toLower :: ·) hlower

lemma isSome_hexNibble_of_decodePairs {bs bytes : List UInt8} (heven : bs.length % 2 = 0)
    (h : decodePairs bs = .ok bytes) : ∀ b ∈ bs, (hexNibble b).isSome := by
  induction bs using twoStepInduction generalizing bytes with
  | nil => simp
  | singleton b => simp at heven
  | cons_cons high low bs ih _ =>
    rw [decodePairs, decodePair] at h
    cases hhigh : hexNibble high with
    | none => simp [hhigh, bind, Except.bind] at h
    | some nibble =>
      cases hlow : hexNibble low with
      | none => simp [hhigh, hlow, bind, Except.bind] at h
      | some nibble' =>
        cases hrest : decodePairs bs with
        | error e => simp [hhigh, hlow, hrest, bind, Except.bind] at h
        | ok rest =>
          have hall := ih (by simp at heven; omega) hrest
          simpa [hhigh, hlow] using hall

lemma isSome_toDigit_of_decodeHex {s : Text} {bytes : List UInt8} (h : decodeHex s = .ok bytes) :
    s.len % 2 = 0 ∧ ∀ c ∈ s, (toDigit 16 c).isSome := by
  have hascii : ∀ b : UInt8, (hexNibble b).isSome →
      b.toNat < 128 ∧ (toDigit 16 (Char.ofNat b.toNat)).isSome :=
    Text.forall_byte (by decide +kernel)
  rw [decodeHex] at h
  split at h
  · cases h
  next heven =>
  rw [not_not] at heven
  refine ⟨heven, fun c hc => ?_⟩
  have hall := isSome_hexNibble_of_decodePairs (by rwa [Text.length_asBytes]) h
  -- the first byte of a character shows which one it is
  obtain ⟨b, hb⟩ := exists_mem_of_ne_nil (String.utf8EncodeChar c) (by
    rw [← length_pos_iff, String.length_utf8EncodeChar]
    exact c.utf8Size_pos)
  obtain ⟨hlt, hdigit⟩ := hascii b (hall b (mem_flatMap.mpr ⟨c, hc, hb⟩))
  rwa [← Text.toNat_eq_of_mem_utf8EncodeChar hb hlt, Char.ofNat_toNat] at hdigit

lemma hexChar_nibble : ∀ byte : UInt8, ∀ nibble ∈ [byte >>> 4, byte &&& 0x0f],
    (toDigit 16 (hexChar nibble)).isSome ∧
      hexNibble (UInt8.ofNat (hexChar nibble).toNat) = some nibble := by
  simp only [mem_cons, not_mem_nil, or_false, forall_eq_or_imp, forall_eq]
  exact Text.forall_byte (by decide +kernel)

lemma decodePairs_toHex (bytes : List UInt8) : decodePairs (toHex bytes).asBytes = .ok bytes := by
  have hjoined : ∀ byte : UInt8, (byte >>> 4 <<< 4) ||| (byte &&& 0x0f) = byte :=
    Text.forall_byte (by decide +kernel)
  induction bytes with
  | nil => rfl
  | cons byte bytes ih =>
    obtain ⟨hhigh, hhigh'⟩ := hexChar_nibble byte (byte >>> 4) (by simp)
    obtain ⟨hlow, hlow'⟩ := hexChar_nibble byte (byte &&& 0x0f) (by simp)
    rw [toHex, flatMap_cons, Text.asBytes_append, ← toHex, Text.asBytes_cons, Text.asBytes_cons,
      (hexNibble_of_isSome hhigh).1, (hexNibble_of_isSome hlow).1]
    simp [decodePairs, decodePair, hhigh', hlow', hjoined, ih, bind, Except.bind]

lemma len_of_isSome {s : Text} (hs : ∀ c ∈ s, (toDigit 16 c).isSome) : s.len = s.length := by
  rw [← Text.length_asBytes, Text.asBytes, length_flatMap,
    map_congr_left fun c hc => by rw [(hexNibble_of_isSome (hs c hc)).1, length_singleton]]
  simp

lemma len_toHex (bytes : List UInt8) : (toHex bytes).len % 2 = 0 := by
  rw [len_of_isSome]
  · simp [toHex, length_flatMap]
  · intro c hc
    obtain ⟨byte, -, hc⟩ := mem_flatMap.mp hc
    have hmap : c ∈ [byte >>> 4, byte &&& 0x0f].map hexChar := hc
    obtain ⟨nibble, hnibble, rfl⟩ := mem_map.mp hmap
    exact (hexChar_nibble byte nibble hnibble).1

/-- **Hexadecimal text.**  What is written is read back; text is read exactly if its length is
even and it has only hexadecimal digits, and written again it is the same in lower case. -/
theorem hex_round_trip :
    (∀ bytes, decodeHex (toHex bytes) = .ok bytes) ∧
      ∀ s : Text,
        ((∃ bytes, decodeHex s = .ok bytes) ↔
          s.len % 2 = 0 ∧ ∀ c ∈ s, (toDigit 16 c).isSome) ∧
        ∀ bytes, decodeHex s = .ok bytes → toHex bytes = s.toAsciiLowercase := by
  have hread : ∀ s : Text, s.len % 2 = 0 → (∀ c ∈ s, (toDigit 16 c).isSome) →
      ∃ bytes, decodeHex s = .ok bytes ∧ toHex bytes = s.toAsciiLowercase := by
    intro s heven hs
    rw [decodeHex, if_neg (not_not.mpr heven)]
    exact exists_decodePairs hs (len_of_isSome hs ▸ heven)
  refine ⟨fun bytes => ?_, fun s => ⟨⟨?_, ?_⟩, fun bytes h => ?_⟩⟩
  · rw [decodeHex, if_neg (not_not.mpr (len_toHex bytes)), decodePairs_toHex]
  · rintro ⟨bytes, h⟩
    exact isSome_toDigit_of_decodeHex h
  · rintro ⟨heven, hs⟩
    obtain ⟨bytes, h, -⟩ := hread s heven hs
    exact ⟨bytes, h⟩
  · obtain ⟨heven, hs⟩ := isSome_toDigit_of_decodeHex h
    obtain ⟨bytes', h', hlower⟩ := hread s heven hs
    obtain rfl : bytes' = bytes := Except.ok.inj (h'.symm.trans h)
    exact hlower

/-! ### Comparison of secrets -/

abbrev Counted := StateM ℕ

def byteOp (op : UInt8 → UInt8 → UInt8) (a b : UInt8) : Counted UInt8 :=
  fun ops => (op a b, ops + 1)

def foldDifferences (acc : UInt8) (pairs : List (UInt8 × UInt8)) : Counted UInt8 :=
  pairs.foldlM (fun acc p => do
    let difference ← byteOp (· ^^^ ·) p.1 p.2
    byteOp (· ||| ·) acc difference) acc

def comparison (left right : List UInt8) : Counted Bool :=
  if left.length ≠ right.length then pure false
  else return (← foldDifferences 0 (left.zip right)) == 0

def constantTimeEq (left right : List UInt8) : Bool := ((comparison left right).run 0).1

lemma run_foldDifferences (pairs : List (UInt8 × UInt8)) (acc : UInt8) (ops : ℕ) :
    (foldDifferences acc pairs).run ops =
      (pairs.foldl (fun acc p => acc ||| (p.1 ^^^ p.2)) acc, ops + 2 * pairs.length) := by
  induction pairs generalizing acc ops with
  | nil => rfl
  | cons p pairs ih =>
    refine (ih (acc ||| (p.1 ^^^ p.2)) (ops + 2)).trans ?_
    rw [foldl_cons, length_cons]
    congr 1
    omega

lemma run_comparison (left right : List UInt8) :
    (comparison left right).run 0 =
      (left.length == right.length &&
        (left.zip right).foldl (fun acc p => acc ||| (p.1 ^^^ p.2)) 0 == 0,
        if left.length = right.length then 2 * left.length else 0) := by
  rw [comparison]
  split
  · next hne =>
    rw [beq_eq_false_iff_ne.mpr hne]
    rfl
  · next heq =>
    rw [not_not] at heq
    simp [run_foldDifferences, heq]
    rfl

/-- **Comparison of secrets.**  Both comparisons return true exactly for equal strings, and for
strings of one length they do two operations for each of its bytes. -/
theorem constant_time_comparison :
    (∀ left right, constantTimeEq left right = true ↔ left = right) ∧
      (∀ left right : Text, constantTimeStrEq left right = true ↔ left = right) ∧
      (∀ left right : Text, constantTimeStrEq left right =
        ((comparison left.asBytes right.asBytes).run 0).1) ∧
      ∀ left right, left.length = right.length →
        ((comparison left right).run 0).2 = 2 * left.length := by
  refine ⟨fun left right => ?_, fun left right => ?_, fun left right => ?_,
    fun left right h => ?_⟩
  · rw [constantTimeEq, run_comparison, Bool.and_eq_true, beq_iff_eq, beq_iff_eq,
      foldl_xor_eq_zero, ← forall₂_eq_eq_eq, forall₂_iff_zip]
    simp
  · rw [constantTimeStrEq_iff]
    refine ⟨fun h => ?_, congrArg Text.asBytes⟩
    exact Option.some.inj
      ((Text.fromUtf8_asBytes left).symm.trans (h ▸ Text.fromUtf8_asBytes right))
  · rw [run_comparison, Text.length_asBytes, Text.length_asBytes, constantTimeStrEq]
  · rw [run_comparison, if_pos h]

end PxxlEdge
