import Mathlib.Tactic

/-!
Password hashes: `hmac_sha256` and `pbkdf2_sha256` (`crates/api/src/lib.rs`), which are loops over
bytes, iterations and blocks, and the functions that HMAC and PBKDF2 are defined to be.  SHA-256
is any function to 32 bytes.
-/

namespace PxxlEdge

open List

structure Sha256 where
  digest : List UInt8 → List UInt8
  length_digest : ∀ data, (digest data).length = 32

namespace Sha256

variable (H : Sha256)

/-! ### The loops -/

def blockSize : ℕ := 64

def copyInto (array source : List UInt8) : List UInt8 := source ++ array.drop source.length

def xorAt (key : List UInt8) (index : ℕ) (array : List UInt8) : List UInt8 :=
  array.set index (array.getD index 0 ^^^ key.getD index 0)

def hmacSha256 (key data : List UInt8) : List UInt8 :=
  let normalizedKey := copyInto (replicate blockSize 0)
    (if blockSize < key.length then H.digest key else key)
  let (outer, inner) := (range blockSize).foldl
    (fun pads index => (xorAt normalizedKey index pads.1, xorAt normalizedKey index pads.2))
    (replicate blockSize 0x5c, replicate blockSize 0x36)
  H.digest (outer ++ H.digest (inner ++ data))

def toBeBytes (n : ℕ) : List UInt8 :=
  [UInt8.ofNat (n / 2 ^ 24), UInt8.ofNat (n / 2 ^ 16), UInt8.ofNat (n / 2 ^ 8), UInt8.ofNat n]

def iterate (password : List UInt8) (state : List UInt8 × List UInt8) :
    List UInt8 × List UInt8 :=
  let previous := H.hmacSha256 password state.1
  (previous, zipWith (· ^^^ ·) state.2 previous)

def pbkdf2Block (password salt : List UInt8) (iterations blockIndex : ℕ) : List UInt8 :=
  let first := H.hmacSha256 password (salt ++ toBeBytes blockIndex)
  ((range' 1 (iterations - 1)).foldl (fun state _ => H.iterate password state) (first, first)).2

lemma length_hmacSha256 (key data : List UInt8) : (H.hmacSha256 key data).length = 32 :=
  H.length_digest _

lemma length_pbkdf2Block (password salt : List UInt8) (iterations blockIndex : ℕ) :
    (H.pbkdf2Block password salt iterations blockIndex).length = 32 := by
  rw [pbkdf2Block]
  refine (range' 1 (iterations - 1)).foldlRecOn
    (motive := fun state : List UInt8 × List UInt8 => state.2.length = 32) _
    (H.length_hmacSha256 _ _) fun state hstate _ _ => ?_
  rw [iterate, length_zipWith, hstate, length_hmacSha256, Nat.min_self]

def pbkdf2Loop (password salt : List UInt8) (iterations outputLen : ℕ) (output : List UInt8)
    (blockIndex : ℕ) : List UInt8 :=
  if output.length < outputLen then
    pbkdf2Loop password salt iterations outputLen
      (output ++ H.pbkdf2Block password salt iterations blockIndex)
      (min (blockIndex + 1) (2 ^ 32 - 1))
  else output
termination_by outputLen - output.length
decreasing_by
  rw [length_append, length_pbkdf2Block]
  omega

def pbkdf2Sha256 (password salt : List UInt8) (iterations outputLen : ℕ) : List UInt8 :=
  (H.pbkdf2Loop password salt iterations outputLen [] 1).take outputLen

/-! ### What HMAC and PBKDF2 are -/

def blockKey (key : List UInt8) : List UInt8 :=
  (if blockSize < key.length then H.digest key else key).rightpad blockSize 0

def hmac (key text : List UInt8) : List UInt8 :=
  H.digest ((H.blockKey key).map (· ^^^ 0x5c) ++
    H.digest ((H.blockKey key).map (· ^^^ 0x36) ++ text))

section Pbkdf2

variable (prf : List UInt8 → List UInt8 → List UInt8) (P S : List UInt8)

def pbkdf2U (i : ℕ) : ℕ → List UInt8
  | 0 => prf P (S ++ toBeBytes i)
  | j + 1 => prf P (pbkdf2U i j)

def pbkdf2F (i : ℕ) : ℕ → List UInt8
  | 0 => pbkdf2U prf P S i 0
  | j + 1 => zipWith (· ^^^ ·) (pbkdf2F i j) (pbkdf2U prf P S i (j + 1))

def pbkdf2 (c dkLen : ℕ) : List UInt8 :=
  let l := (dkLen + 31) / 32
  ((range' 1 (l - 1)).flatMap fun i => pbkdf2F prf P S i (c - 1)) ++
    (pbkdf2F prf P S l (c - 1)).take (dkLen - (l - 1) * 32)

end Pbkdf2

/-! ### HMAC -/

variable {H}

lemma getElem?_xorAt (key array : List UInt8) (index j : ℕ) :
    (xorAt key index array)[j]? =
      array[j]?.map fun byte => if j = index then byte ^^^ key.getD j 0 else byte := by
  rw [xorAt, getElem?_set, getD_eq_getElem?_getD]
  by_cases hj : index = j
  · subst hj
    by_cases hlt : index < array.length
    · simp [hlt]
    · simp [hlt]
  · simp [hj, Ne.symm hj]

lemma getElem?_foldl_xorAt (key array : List UInt8) (n j : ℕ) :
    ((range n).foldl (fun array index => xorAt key index array) array)[j]? =
      array[j]?.map fun byte => if j < n then byte ^^^ key.getD j 0 else byte := by
  induction n with
  | zero => simp
  | succ n ih =>
    rw [range_succ, foldl_append, foldl_cons, foldl_nil, getElem?_xorAt, ih, Option.map_map]
    congr 1
    funext byte
    rcases lt_trichotomy j n with h | h | h
    · simp [h, h.ne, Nat.lt_succ_of_lt h]
    · simp [h]
    · simp [h.not_gt, h.ne', h.not_ge]

lemma foldl_xorAt {key : List UInt8} (hkey : key.length = blockSize) (pad : UInt8) :
    (range blockSize).foldl (fun array index => xorAt key index array) (replicate blockSize pad) =
      key.map (· ^^^ pad) := by
  refine ext_getElem? fun j => ?_
  rw [getElem?_foldl_xorAt, getElem?_map, getElem?_replicate, getD_eq_getElem?_getD]
  by_cases hj : j < blockSize
  · simp [hj, hkey, UInt8.xor_comm]
  · simp [hj, hkey]

lemma foldl_pads (key : List UInt8) (pads : List UInt8 × List UInt8) (indices : List ℕ) :
    indices.foldl (fun pads index => (xorAt key index pads.1, xorAt key index pads.2)) pads =
      (indices.foldl (fun array index => xorAt key index array) pads.1,
        indices.foldl (fun array index => xorAt key index array) pads.2) := by
  induction indices generalizing pads with
  | nil => rfl
  | cons index indices ih => exact ih _

lemma hmacSha256_eq (key data : List UInt8) : H.hmacSha256 key data = H.hmac key data := by
  have hshort : (if blockSize < key.length then H.digest key else key).length ≤ blockSize := by
    split
    · rw [H.length_digest, blockSize]
      omega
    · omega
  have hkey : copyInto (replicate blockSize 0)
      (if blockSize < key.length then H.digest key else key) = H.blockKey key := by
    rw [copyInto, drop_replicate, blockKey, rightpad]
  have hlength : (H.blockKey key).length = blockSize := by
    rw [blockKey, length_rightpad]
    omega
  rw [hmacSha256, hmac, hkey, foldl_pads, foldl_xorAt hlength, foldl_xorAt hlength]

/-! ### PBKDF2 -/

section Blocks

variable {password salt : List UInt8} {iterations : ℕ}

lemma pbkdf2Block_eq (blockIndex : ℕ) :
    H.pbkdf2Block password salt iterations blockIndex =
      pbkdf2F H.hmac password salt blockIndex (iterations - 1) := by
  rw [pbkdf2Block, hmacSha256_eq]
  suffices h : ∀ n, (range' 1 n).foldl (fun state _ => H.iterate password state)
      (H.hmac password (salt ++ toBeBytes blockIndex),
        H.hmac password (salt ++ toBeBytes blockIndex)) =
      (pbkdf2U H.hmac password salt blockIndex n, pbkdf2F H.hmac password salt blockIndex n) by
    rw [h]
  intro n
  induction n with
  | zero => rfl
  | succ n ih =>
    rw [range'_concat, foldl_append, ih, foldl_cons, foldl_nil, iterate, hmacSha256_eq]
    rfl

lemma length_pbkdf2F (i : ℕ) :
    (pbkdf2F H.hmac password salt i (iterations - 1)).length = 32 := by
  rw [← pbkdf2Block_eq, length_pbkdf2Block]

def blocks (H : Sha256) (password salt : List UInt8) (iterations n : ℕ) : List UInt8 :=
  (range' 1 n).flatMap fun i => pbkdf2F H.hmac password salt i (iterations - 1)

lemma blocks_succ (n : ℕ) : blocks H password salt iterations (n + 1) =
    blocks H password salt iterations n ++
      pbkdf2F H.hmac password salt (n + 1) (iterations - 1) := by
  rw [blocks, range'_concat, flatMap_append, flatMap_singleton, blocks, one_mul, add_comm 1 n]

lemma length_blocks (n : ℕ) : (blocks H password salt iterations n).length = n * 32 := by
  induction n with
  | zero => rfl
  | succ n ih => rw [blocks_succ, length_append, ih, length_pbkdf2F, Nat.succ_mul]

lemma pbkdf2Loop_eq {outputLen n : ℕ} (hlen : outputLen ≤ (2 ^ 32 - 1) * 32)
    (hn : n ≤ (outputLen + 31) / 32) :
    H.pbkdf2Loop password salt iterations outputLen (blocks H password salt iterations n)
        (min (n + 1) (2 ^ 32 - 1)) =
      blocks H password salt iterations ((outputLen + 31) / 32) := by
  induction hleft : (outputLen + 31) / 32 - n generalizing n with
  | zero =>
    obtain rfl : n = (outputLen + 31) / 32 := by omega
    rw [pbkdf2Loop, if_neg (by rw [length_blocks]; omega)]
  | succ left ih =>
    rw [pbkdf2Loop, if_pos (by rw [length_blocks]; omega), min_eq_left (by omega),
      pbkdf2Block_eq, ← blocks_succ]
    exact ih (by omega) (by omega)

end Blocks

/-- **Password hashes.**  The loops compute HMAC with blocks of 64 bytes, and PBKDF2 with this
HMAC, up to the longest output that the index of a block can count. -/
theorem password_hash_exact (H : Sha256) :
    (∀ key data, H.hmacSha256 key data = H.hmac key data) ∧
      ∀ password salt iterations outputLen, 1 ≤ iterations → outputLen ≤ (2 ^ 32 - 1) * 32 →
        H.pbkdf2Sha256 password salt iterations outputLen =
          pbkdf2 H.hmac password salt iterations outputLen := by
  refine ⟨hmacSha256_eq, fun password salt iterations outputLen _ hlen => ?_⟩
  have hloop : H.pbkdf2Loop password salt iterations outputLen [] 1 =
      blocks H password salt iterations ((outputLen + 31) / 32) :=
    pbkdf2Loop_eq (n := 0) hlen (Nat.zero_le _)
  rw [pbkdf2Sha256, hloop, pbkdf2]
  rcases Nat.eq_zero_or_pos outputLen with rfl | hpos
  · simp
  · obtain ⟨n, hn⟩ : ∃ n, (outputLen + 31) / 32 = n + 1 := ⟨(outputLen - 1) / 32, by omega⟩
    rw [hn, blocks_succ, Nat.add_sub_cancel, take_append, length_blocks,
      take_of_length_le (by rw [length_blocks]; omega)]
    rfl

end Sha256

end PxxlEdge
