import PxxlEdge.Lib.Digits
import PxxlEdge.Lib.Fields
import PxxlEdge.Proxy.Handle

/-!
The nonces of Digest authentication: a nonce is its time of issue, in hexadecimal
digits, and a signature of that time; the proxy keeps no list of those it has issued.
-/

namespace PxxlEdge

open RustStd Http

variable {G : Grammar} (W : World G)

lemma splitOnce_digestNonce (realm : Text) (timestamp : ℕ) :
    Text.splitOnce '.' (digestNonce W realm timestamp) =
      some (Nat.toDigits 16 timestamp,
        digestNonceSignature W realm (Nat.toDigits 16 timestamp)) := by
  have hdot : '.' ∉ Nat.toDigits 16 timestamp :=
    not_mem_toDigits (by decide) le_rfl (by decide) timestamp
  rw [digestNonce, List.append_assoc]
  exact Text.splitOnce_append hdot _

lemma digestNonceIsValid_digestNonce (hhash : ∀ text, W.sha256Hex text ≠ []) (realm : Text)
    {timestamp : ℕ} (htimestamp : timestamp < 2 ^ 64) (now : ℕ) :
    digestNonceIsValid W realm (digestNonce W realm timestamp) now =
      (decide (timestamp ≤ now + digestNonceClockSkewMs) &&
        decide (now - timestamp ≤ digestNonceTtlMs)) := by
  have hdigits : Nat.toDigits 16 timestamp ≠ [] := Nat.toDigits_ne_nil
  have hsignature : digestNonceSignature W realm (Nat.toDigits 16 timestamp) ≠ [] := hhash _
  have hsame : constantTimeStrEq (digestNonceSignature W realm (Nat.toDigits 16 timestamp))
      (digestNonceSignature W realm (Nat.toDigits 16 timestamp)) = true :=
    constantTimeStrEq_iff.mpr rfl
  rw [digestNonceIsValid, splitOnce_digestNonce]
  dsimp only
  rw [parseUnsigned_toDigits (by decide) le_rfl htimestamp]
  simp [hdigits, hsignature, hsame]

/-- **Lifetime of a nonce.**  A nonce issued at a time of 64 bits is valid exactly when it is
issued no later than the clock skew after the check and no longer than its lifetime before,
in arithmetic that saturates, for every hash whose values are not empty. -/
theorem issued_nonce_valid_iff (hhash : ∀ text, W.sha256Hex text ≠ []) (realm : Text)
    {timestamp : ℕ} (htimestamp : timestamp < 2 ^ 64) (now : ℕ) :
    digestNonceIsValid W realm (digestNonce W realm timestamp) now = true ↔
      timestamp ≤ min (now + digestNonceClockSkewMs) (2 ^ 64 - 1) ∧
        now - timestamp ≤ digestNonceTtlMs := by
  -- a time of 64 bits does not notice where the sum saturates
  have hskew : timestamp ≤ min (now + digestNonceClockSkewMs) (2 ^ 64 - 1) ↔
      timestamp ≤ now + digestNonceClockSkewMs := by omega
  rw [digestNonceIsValid_digestNonce W hhash realm htimestamp, hskew, Bool.and_eq_true,
    decide_eq_true_eq, decide_eq_true_eq]

/-- A nonce issued half a minute ahead of the check is valid, and not a millisecond
earlier. -/
theorem issued_nonce_valid_iff_ahead :
    digestNonceIsValid sampleWorld "edge" (digestNonce sampleWorld "edge" 30001) 1 = true ∧
      ¬ digestNonceIsValid sampleWorld "edge" (digestNonce sampleWorld "edge" 30001) 0 = true := by
  have hhash : ∀ text, sampleWorld.sha256Hex text ≠ [] := fun _ => Nat.toDigits_ne_nil
  have hvalid := issued_nonce_valid_iff sampleWorld hhash "edge"
    (show 30001 < 2 ^ 64 by decide)
  exact ⟨(hvalid 1).mpr (by decide), fun h => absurd ((hvalid 0).mp h) (by decide)⟩

end PxxlEdge
