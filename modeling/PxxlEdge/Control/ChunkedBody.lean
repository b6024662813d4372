import PxxlEdge.Lib.Digits
import PxxlEdge.Lib.Fields
import PxxlEdge.Lib.Iter
import PxxlEdge.Lib.Utf8

/-!
The chunked bodies of the container runtime's answers.  A cursor runs over the body; sizes are
64-bit words, and sums with them wrap around.
-/

namespace PxxlEdge

open RustStd List

def dockerApiResponseLimitBytes : ℕ := 5 * 1024 * 1024

inductive ChunkFailure where
  | error (message : Text)
  | outOfRange
  | unfinished
deriving DecidableEq, Repr

def wrappingAdd (a b : ℕ) : ℕ := (a + b) % 2 ^ 64

def slice (body : List UInt8) (start stop : ℕ) : Except ChunkFailure (List UInt8) :=
  if start ≤ stop ∧ stop ≤ body.length then .ok ((body.take stop).drop start)
  else .error .outOfRange

def orError {α : Type} (message : Text) : Option α → Except ChunkFailure α
  | some a => .ok a
  | none => .error (.error message)

def findCrlf : List UInt8 → Option ℕ
  | a :: b :: bytes => if a = 13 ∧ b = 10 then some 0 else (findCrlf (b :: bytes)).map (· + 1)
  | _ => none

structure Decoding where
  cursor : ℕ := 0
  decoded : List UInt8 := []

section Decode

variable (body : List UInt8)

def readSize (cursor : ℕ) : Except ChunkFailure (ℕ × ℕ) := do
  let rest ← slice body cursor body.length
  let offset ← orError "invalid chunked body: missing chunk size" (findCrlf rest)
  let lineEnd := wrappingAdd offset cursor
  let line ← slice body cursor lineEnd
  let sizeLine ← orError "invalid chunked body: chunk size was not UTF-8" (Text.fromUtf8 line)
  let sizeHex := Text.trim ((sizeLine.splitOn ';').headD [])
  let size ← orError ("invalid chunk size ".toList ++ sizeHex) (parseUnsigned 16 64 sizeHex)
  return (size, wrappingAdd lineEnd 2)

def decodeChunk (s : Decoding) : Except ChunkFailure (Option Decoding) := do
  let (size, cursor) ← readSize body s.cursor
  if size = 0 then return none
  else
    let stop := wrappingAdd cursor size
    if body.length < wrappingAdd stop 2 then
      .error (.error "invalid chunked body: chunk exceeded response length")
    else if dockerApiResponseLimitBytes < wrappingAdd s.decoded.length size then
      .error (.error "decoded Docker API response exceeded 5242880 bytes")
    else
      let chunk ← slice body cursor stop
      return some ⟨wrappingAdd stop 2, s.decoded ++ chunk⟩

def decodeChunks : ℕ → Decoding → Except ChunkFailure (List UInt8)
  | 0, _ => .error .unfinished
  | rounds + 1, s => do
    match ← decodeChunk body s with
    | none => return s.decoded
    | some s => decodeChunks rounds s

def decodeChunkedBody : Except ChunkFailure (List UInt8) := decodeChunks body (body.length + 1) {}

def SizeWraps (s : Decoding) : Prop :=
  ∃ size cursor, readSize body s.cursor = .ok (size, cursor) ∧
    2 ^ 64 ≤ s.decoded.length + size ∧ cursor + size + 2 ≤ body.length + 2 ^ 64

structure Decoding.Within (s : Decoding) : Prop where
  cursor_le : s.cursor ≤ body.length
  decoded_le : s.decoded.length ≤ s.cursor
  limit : s.decoded.length ≤ dockerApiResponseLimitBytes

end Decode

/-! ### Wrapping -/

lemma wrappingAdd_eq {a b : ℕ} (h : a + b < 2 ^ 64) : wrappingAdd a b = a + b := Nat.mod_eq_of_lt h

lemma slice_eq {body : List UInt8} {start stop : ℕ} (h : start ≤ stop) (h' : stop ≤ body.length) :
    slice body start stop = .ok ((body.take stop).drop start) := if_pos ⟨h, h'⟩

lemma findCrlf_le {bytes : List UInt8} {i : ℕ} (h : findCrlf bytes = some i) :
    i + 2 ≤ bytes.length := by
  fun_induction findCrlf bytes generalizing i with
  | case1 a b bytes hcrlf =>
    obtain rfl := Option.some.inj h
    simp
  | case2 a b bytes hcrlf ih =>
    obtain ⟨j, hj, rfl⟩ := Option.map_eq_some_iff.mp h
    have hle := ih hj
    simp only [length_cons] at hle ⊢
    omega
  | case3 bytes hshort => cases h

section Safety

variable {body : List UInt8} {s : Decoding}

lemma readSize_cases (hlen : body.length < 2 ^ 63) {cursor : ℕ} (h : cursor ≤ body.length) :
    (∃ message, readSize body cursor = .error (.error message)) ∨
      ∃ size next, readSize body cursor = .ok (size, next) ∧ size < 2 ^ 64 ∧ cursor < next ∧
        next ≤ body.length := by
  rw [readSize, slice_eq h le_rfl, ok_bind, take_length]
  cases hcrlf : findCrlf (body.drop cursor) with
  | none => exact .inl ⟨_, rfl⟩
  | some offset =>
    have hoffset := findCrlf_le hcrlf
    rw [length_drop] at hoffset
    simp only [orError, ok_bind]
    rw [wrappingAdd_eq (by omega), slice_eq (by omega) (by omega), ok_bind]
    cases Text.fromUtf8 ((body.take (offset + cursor)).drop cursor) with
    | none => exact .inl ⟨_, rfl⟩
    | some sizeLine =>
      simp only [ok_bind]
      cases hsize : parseUnsigned 16 64 (Text.trim ((sizeLine.splitOn ';').headD [])) with
      | none => exact .inl ⟨_, rfl⟩
      | some size =>
        refine .inr ⟨size, offset + cursor + 2, ?_, ?_, by omega, by omega⟩
        · rw [ok_bind, wrappingAdd_eq (by omega)]
          rfl
        · exact parseUnsigned_lt hsize

lemma decodeChunk_cases (hlen : body.length < 2 ^ 63) (h : s.Within body) :
    (decodeChunk body s = .error .outOfRange ∧ SizeWraps body s) ∨
      ¬ SizeWraps body s ∧ ((∃ message, decodeChunk body s = .error (.error message)) ∨
        decodeChunk body s = .ok none ∨
        ∃ s', decodeChunk body s = .ok (some s') ∧ s'.Within body ∧ s.cursor < s'.cursor) := by
  obtain ⟨hcursor, hdecoded, hlimit⟩ := h
  have hsmall : dockerApiResponseLimitBytes < 2 ^ 32 := by decide
  rcases readSize_cases hlen hcursor with ⟨message, hread⟩ | ⟨size, next, hread, hsize, hnext, hle⟩
  · rw [decodeChunk, SizeWraps, hread]
    exact .inr ⟨by simp, .inl ⟨message, rfl⟩⟩
  have hiff : SizeWraps body s ↔
      2 ^ 64 ≤ s.decoded.length + size ∧ next + size + 2 ≤ body.length + 2 ^ 64 := by
    simp only [SizeWraps, hread, Except.ok.injEq, Prod.mk.injEq]
    exact ⟨fun ⟨_, _, ⟨h, h'⟩, hwraps⟩ => h ▸ h' ▸ hwraps, fun hwraps => ⟨_, _, ⟨rfl, rfl⟩, hwraps⟩⟩
  rw [hiff, decodeChunk, hread, ok_bind]
  dsimp only
  by_cases hzero : size = 0
  · rw [if_pos hzero]
    exact .inr ⟨by omega, .inr (.inl rfl)⟩
  rw [if_neg hzero]
  by_cases hwraps : 2 ^ 64 ≤ s.decoded.length + size
  · -- the end is in front of the data, and the sum of the lengths is small again
    have hstop : wrappingAdd next size = next + size - 2 ^ 64 := by
      rw [wrappingAdd, Nat.mod_eq_sub_mod (by omega), Nat.mod_eq_of_lt (by omega)]
    have hsum : wrappingAdd s.decoded.length size = s.decoded.length + size - 2 ^ 64 := by
      rw [wrappingAdd, Nat.mod_eq_sub_mod hwraps, Nat.mod_eq_of_lt (by omega)]
    rw [hstop, hsum, wrappingAdd_eq (by omega)]
    by_cases hend : body.length < next + size - 2 ^ 64 + 2
    · rw [if_pos hend]
      exact .inr ⟨by omega, .inl ⟨_, rfl⟩⟩
    · rw [if_neg hend, if_neg (by omega), slice, if_neg (by omega)]
      exact .inl ⟨rfl, hwraps, by omega⟩
  · have hsum : wrappingAdd s.decoded.length size = s.decoded.length + size :=
      wrappingAdd_eq (by omega)
    refine .inr ⟨fun h => hwraps h.1, ?_⟩
    rw [hsum]
    split
    · exact .inl ⟨_, rfl⟩
    next hend =>
    split
    · exact .inl ⟨_, rfl⟩
    next hroom =>
    have hstop : wrappingAdd next size = next + size := wrappingAdd_eq (by omega)
    have hnext' : wrappingAdd (next + size) 2 = next + size + 2 := wrappingAdd_eq (by omega)
    rw [hstop, hnext'] at hend ⊢
    rw [slice_eq (by omega) (by omega)]
    refine .inr (.inr ⟨_, rfl, ⟨?_, ?_, ?_⟩, ?_⟩)
    all_goals
      simp only [length_append, length_drop, length_take]
      omega

def DecodesTo (body : List UInt8) : Decoding → Decoding → Prop :=
  Relation.ReflTransGen fun s s' => decodeChunk body s = .ok (some s')

def EndsSafely (result : Except ChunkFailure (List UInt8)) : Prop :=
  (∃ message, result = .error (.error message)) ∨
    ∃ decoded, result = .ok decoded ∧ decoded.length ≤ dockerApiResponseLimitBytes

lemma endsSafely_decodeChunks_iff (hlen : body.length < 2 ^ 63) {rounds : ℕ} (h : s.Within body)
    (hrounds : body.length < s.cursor + rounds) :
    EndsSafely (decodeChunks body rounds s) ↔ ∀ s', DecodesTo body s s' → ¬ SizeWraps body s' := by
  induction rounds generalizing s with
  | zero => exact absurd h.cursor_le (by omega)
  | succ rounds ih =>
    have hhead : ∀ s', DecodesTo body s s' ↔
        s = s' ∨ ∃ next, decodeChunk body s = .ok (some next) ∧ DecodesTo body next s' :=
      fun s' => Relation.ReflTransGen.cases_head_iff
    rw [decodeChunks]
    simp only [hhead]
    rcases decodeChunk_cases hlen h with ⟨hround, hwraps⟩ | ⟨hwraps, ⟨message, hround⟩ | hround |
      ⟨next, hround, hnext, hlt⟩⟩
    · refine iff_of_false ?_ fun hall => hall s (.inl rfl) hwraps
      rw [hround]
      rintro (⟨message, hm⟩ | ⟨decoded, hd, -⟩)
      · cases hm
      · cases hd
    · rw [hround]
      exact iff_of_true (.inl ⟨message, rfl⟩) (by simpa using hwraps)
    · rw [hround]
      exact iff_of_true (.inr ⟨_, rfl, h.limit⟩) (by simpa using hwraps)
    · rw [hround, ok_bind, ih hnext (by omega)]
      constructor
      · rintro hall s' (rfl | ⟨_, heq, hs'⟩)
        · exact hwraps
        · obtain rfl := Option.some.inj (Except.ok.inj heq)
          exact hall s' hs'
      · exact fun hall s' hs' => hall s' (.inr ⟨next, rfl, hs'⟩)

end Safety

/-- **Safety.**  For every body that fits into memory, decoding comes to an end, and it ends with
an error or with no more bytes than the limit, exactly if no size that it meets wraps around with
the bytes decoded so far. -/
theorem decode_chunked_safe_iff (body : List UInt8) (hlen : body.length < 2 ^ 63) :
    EndsSafely (decodeChunkedBody body) ↔ ∀ s, DecodesTo body {} s → ¬ SizeWraps body s :=
  endsSafely_decodeChunks_iff hlen ⟨Nat.zero_le _, le_rfl, Nat.zero_le _⟩ (by simp)

theorem decode_chunked_safe_one_chunk :
    EndsSafely (decodeChunkedBody (Text.asBytes "1\r\nA\r\n0\r\n\r\n")) ∧
      ∀ s, DecodesTo (Text.asBytes "1\r\nA\r\n0\r\n\r\n") {} s →
        ¬ SizeWraps (Text.asBytes "1\r\nA\r\n0\r\n\r\n") s := by
  have hsafe : EndsSafely (decodeChunkedBody (Text.asBytes "1\r\nA\r\n0\r\n\r\n")) :=
    .inr ⟨[65], by decide +kernel, by decide⟩
  exact ⟨hsafe, (decode_chunked_safe_iff _ (by decide)).mp hsafe⟩

/-- The second size passes the checks, and the slice of its data ends before it starts. -/
theorem wrapped_size_out_of_range :
    decodeChunkedBody (Text.asBytes "1\r\nA\r\nffffffffffffffff\r\nB") = .error .outOfRange := by
  decide +kernel

/-! ### Round trip -/

structure SizeLine (size : ℕ) where
  digits : Text
  digits_eq : digits.toAsciiLowercase = Nat.toDigits 16 size
  blanks : Text := []
  blanks_ws : ∀ c ∈ blanks, c = ' ' ∨ c = '\t'
  extension : Option Text := none
  no_line_end : ∀ ext ∈ extension, '\r' ∉ ext ∧ '\n' ∉ ext

def SizeLine.text {size : ℕ} (line : SizeLine size) : Text :=
  line.digits ++ line.blanks ++ (line.extension.map (';' :: ·)).getD []

structure SentChunk where
  data : List UInt8
  nonempty : data ≠ []
  line : SizeLine data.length

def SentChunk.bytes (chunk : SentChunk) : List UInt8 :=
  chunk.line.text.asBytes ++ 13 :: 10 :: (chunk.data ++ [13, 10])

def encodeChunked (chunks : List SentChunk) (last : SizeLine 0) (trailers : List UInt8) :
    List UInt8 :=
  chunks.flatMap SentChunk.bytes ++ (last.text.asBytes ++ 13 :: 10 :: trailers)

namespace SizeLine

variable {size : ℕ} (line : SizeLine size)

lemma isSome_toDigit {c : Char} (hc : c ∈ line.digits) : (toDigit 16 c).isSome := by
  have hmem : c.toLower ∈ Nat.toDigits 16 size := by
    rw [← line.digits_eq]
    exact mem_map_of_mem hc
  obtain ⟨d, hd, hdigit⟩ := exists_digitChar_of_mem (by omega) hmem
  rw [← toDigit_toLower, hdigit, toDigit_digitChar le_rfl hd]
  rfl

lemma not_mem_front {c : Char} (hdigit : toDigit 16 c = none) (hblank : c ≠ ' ' ∧ c ≠ '\t') :
    c ∉ line.digits ++ line.blanks := by
  intro hc
  rcases mem_append.mp hc with hc | hc
  · have hsome := line.isSome_toDigit hc
    rw [hdigit] at hsome
    cases hsome
  · exact (line.blanks_ws c hc).elim hblank.1 hblank.2

lemma findCrlf_text (rest : List UInt8) :
    findCrlf (line.text.asBytes ++ 13 :: 10 :: rest) = some line.text.asBytes.length := by
  have hcr : '\r' ∉ line.text := by
    rw [text, mem_append, not_or]
    refine ⟨line.not_mem_front (by decide) (by decide), ?_⟩
    cases hext : line.extension with
    | none => exact not_mem_nil
    | some ext => simpa using (line.no_line_end ext hext).1
  have hbyte : (13 : UInt8) ∉ line.text.asBytes := fun h =>
    hcr ((Text.mem_asBytes_iff (k := '\r') (by decide)).mp h)
  generalize line.text.asBytes = bytes at hbyte
  induction bytes with
  | nil => rfl
  | cons b bytes ih =>
    rw [mem_cons, not_or] at hbyte
    obtain ⟨next, tail, htail⟩ : ∃ next tail, bytes ++ 13 :: 10 :: rest = next :: tail :=
      exists_cons_of_ne_nil (by simp)
    rw [cons_append, htail, findCrlf, if_neg fun h => hbyte.1 h.1.symm, ← htail, ih hbyte.2]
    rfl

lemma parse_text (hsize : size < 2 ^ 64) :
    parseUnsigned 16 64 (Text.trim ((line.text.splitOn ';').headD [])) = some size := by
  have hfront : (line.text.splitOn ';').headD [] = line.digits ++ line.blanks := by
    have hsemicolon := line.not_mem_front (c := ';') (by decide) (by decide)
    rw [text]
    cases line.extension with
    | none =>
      rw [Option.map_none, Option.getD_none, append_nil, splitOn_eq_singleton hsemicolon]
      rfl
    | some ext =>
      rw [Option.map_some, Option.getD_some, splitOn_append_cons_self_of_not_mem hsemicolon]
      rfl
  have htrim : Text.trim (line.digits ++ line.blanks) = line.digits :=
    @Text.trim_append_append [] _ _ (by simp)
      (fun c hc => isWhitespace_of_isSome_toDigit (line.isSome_toDigit hc))
      fun c hc => by rcases line.blanks_ws c hc with rfl | rfl <;> decide
  rw [hfront, htrim]
  exact parseUnsigned_of_lowercase hsize line.digits_eq

lemma readSize_eq (hsize : size < 2 ^ 64) {before rest body : List UInt8}
    (hbody : body = before ++ (line.text.asBytes ++ 13 :: 10 :: rest))
    (hlen : body.length < 2 ^ 63) :
    readSize body before.length = .ok (size, before.length + line.text.asBytes.length + 2) := by
  have hlength : body.length = before.length + (line.text.asBytes.length + (rest.length + 2)) := by
    simp [hbody]
  rw [readSize, slice_eq (by omega) le_rfl, ok_bind, take_length, hbody, drop_left,
    line.findCrlf_text]
  simp only [orError, ok_bind]
  rw [wrappingAdd_eq (by omega), slice_eq (by omega) (by rw [← hbody]; omega), ok_bind,
    add_comm line.text.asBytes.length, take_length_add_append, drop_left, take_left,
    Text.fromUtf8_asBytes]
  simp only [ok_bind]
  rw [line.parse_text hsize]
  simp only [ok_bind]
  rw [wrappingAdd_eq (by omega)]
  rfl

end SizeLine

lemma decodeChunk_eq {chunk : SentChunk} {before rest body decoded : List UInt8}
    (hbody : body = before ++ (chunk.bytes ++ rest)) (hlen : body.length < 2 ^ 63)
    (hlimit : decoded.length + chunk.data.length ≤ dockerApiResponseLimitBytes) :
    decodeChunk body ⟨before.length, decoded⟩ =
      .ok (some ⟨(before ++ chunk.bytes).length, decoded ++ chunk.data⟩) := by
  have hsmall : dockerApiResponseLimitBytes < 2 ^ 63 := by decide
  have hlength : body.length = before.length + chunk.line.text.asBytes.length + 2 +
      chunk.data.length + 2 + rest.length := by
    simp [hbody, SentChunk.bytes]
    omega
  have hline : body = before ++ (chunk.line.text.asBytes ++ 13 :: 10 ::
      (chunk.data ++ 13 :: 10 :: rest)) := by
    simp [hbody, SentChunk.bytes]
  have hcursor : (before ++ chunk.bytes).length = before.length +
      chunk.line.text.asBytes.length + 2 + chunk.data.length + 2 := by
    simp [SentChunk.bytes]
    omega
  have hdata : (body.take (before.length + chunk.line.text.asBytes.length + 2 +
      chunk.data.length)).drop (before.length + chunk.line.text.asBytes.length + 2) =
        chunk.data := by
    have hsplit : body = (before ++ chunk.line.text.asBytes ++ [13, 10]) ++
        (chunk.data ++ 13 :: 10 :: rest) := by
      simp [hline]
    have hfront : before.length + chunk.line.text.asBytes.length + 2 =
        (before ++ chunk.line.text.asBytes ++ [13, 10]).length := by
      simp
      omega
    rw [hsplit, hfront, take_length_add_append, drop_left, take_left]
  rw [decodeChunk, chunk.line.readSize_eq (by omega) hline hlen]
  simp only [ok_bind]
  rw [if_neg (by simpa using chunk.nonempty), wrappingAdd_eq (a := _ + 2) (by omega),
    wrappingAdd_eq (by omega), if_neg (by omega), wrappingAdd_eq (by omega), if_neg (by omega),
    slice_eq (by omega) (by omega), hdata]
  rw [ok_bind, hcursor]
  rfl

lemma decodeChunks_eq {chunks : List SentChunk} {last : SizeLine 0}
    {trailers before body decoded : List UInt8} {rounds : ℕ}
    (hbody : body = before ++ encodeChunked chunks last trailers) (hlen : body.length < 2 ^ 63)
    (hlimit : decoded.length + (chunks.flatMap SentChunk.data).length ≤
      dockerApiResponseLimitBytes) (hrounds : chunks.length < rounds) :
    decodeChunks body rounds ⟨before.length, decoded⟩ =
      .ok (decoded ++ chunks.flatMap SentChunk.data) := by
  induction chunks generalizing before decoded rounds with
  | nil =>
    obtain ⟨rounds, rfl⟩ := Nat.exists_eq_succ_of_ne_zero (Nat.ne_of_gt hrounds)
    rw [decodeChunks, decodeChunk, last.readSize_eq (by decide) hbody hlen, flatMap_nil,
      append_nil]
    rfl
  | cons chunk chunks ih =>
    obtain ⟨rounds, rfl⟩ := Nat.exists_eq_succ_of_ne_zero (Nat.ne_of_gt (Nat.zero_lt_of_lt hrounds))
    have hfirst : body = before ++ (chunk.bytes ++ encodeChunked chunks last trailers) := by
      simp [hbody, encodeChunked]
    rw [flatMap_cons, length_append] at hlimit
    rw [decodeChunks, decodeChunk_eq hfirst hlen (by omega), ok_bind, flatMap_cons, ← append_assoc]
    refine ih (by simp [hfirst]) ?_ (by simpa using hrounds)
    rw [length_append]
    omega

lemma length_le_length_encodeChunked (chunks : List SentChunk) (last : SizeLine 0)
    (trailers : List UInt8) : chunks.length ≤ (encodeChunked chunks last trailers).length := by
  induction chunks with
  | nil => exact Nat.zero_le _
  | cons chunk chunks ih =>
    have hbytes : 0 < chunk.bytes.length := by simp [SentChunk.bytes]
    simp only [encodeChunked, flatMap_cons, length_append, length_cons] at ih ⊢
    omega

/-- **Round trip.**  A body of non-empty chunks within the limit, with sizes in either case, with
extensions and with trailers, is decoded to what was sent. -/
theorem decode_chunked_encoded (chunks : List SentChunk) (last : SizeLine 0)
    (trailers : List UInt8)
    (hlimit : (chunks.flatMap SentChunk.data).length ≤ dockerApiResponseLimitBytes)
    (hlen : (encodeChunked chunks last trailers).length < 2 ^ 63) :
    decodeChunkedBody (encodeChunked chunks last trailers) =
      .ok (chunks.flatMap SentChunk.data) := by
  have hcount := length_le_length_encodeChunked chunks last trailers
  exact @decodeChunks_eq chunks last trailers [] _ [] _ rfl hlen (by simpa using hlimit) (by omega)

theorem decode_chunked_encoded_line_ends :
    decodeChunkedBody (Text.asBytes "2;n=v\r\n\r\n\r\n0\r\n\r\n") = .ok [13, 10] :=
  decode_chunked_encoded
    [{ data := [13, 10]
       nonempty := by decide
       line :=
        { digits := "2", digits_eq := by decide, blanks_ws := by simp, extension := some "n=v",
          no_line_end := by decide } }]
    { digits := "0", digits_eq := by decide, blanks_ws := by simp, no_line_end := by simp }
    [13, 10] (by decide) (by decide)

end PxxlEdge
