import PxxlEdge.Lib.ReplayMemory
import PxxlEdge.Proxy.Handle

/-!
Replays of Digest authorizations.

A run of `digest_authorized` calls, each with its readings of one clock in
milliseconds: of the wall clock for the age of the nonce, and of the monotonic
clock when the replays are pruned and when the use is stored.  An authorization
is told by its user name, nonce, count, client nonce and URI.
-/

namespace PxxlEdge

open RustStd Http Run List

/-! ### Calls -/

structure DigestCall where
  config : DigestAuthConfig
  method : Text
  actualUri : Text
  params : Map Text Text
  checkedAt : ℕ
  prunedAt : ℕ
  storedAt : ℕ

structure DigestRun where
  policy : PolicyEnforcer := {}
  accepted : List DigestCall := []

def nanosPerMilli : ℕ := 1000000

def nonceTimestamp (nonce : Text) : ℕ :=
  (((Text.splitOnce '.' nonce).bind fun parts => parseUnsigned 16 64 parts.1)).getD 0

namespace DigestCall

variable {G : Grammar} (W : World G) (call : DigestCall)

def world : World G :=
  { W with
    unixMs := fun _ => call.checkedAt
    clock := fun _ reading =>
      (if reading = 0 then call.prunedAt else call.storedAt) * nanosPerMilli }

def replayKey : Option Text :=
  digestReplayKey (call.world W) call.config call.method call.actualUri call.params

def step (s : DigestRun) (call : DigestCall) : DigestRun :=
  let result := s.policy.digestAuthorized (call.world W) call.config call.method call.actualUri
    call.params
  { policy := result.2
    accepted := if result.1 then s.accepted ++ [call] else s.accepted }

def readings : List ℕ := [call.checkedAt, call.prunedAt, call.storedAt]

def combination : Option (Text × Text × Text × Text × Text) := do
  let username ← call.params.get "username"
  let nonce ← call.params.get "nonce"
  let nc ← call.params.get "nc"
  let cnonce ← call.params.get "cnonce"
  let uri ← call.params.get "uri"
  return (username, nonce, nc, cnonce, uri)

def issuedAt : ℕ := nonceTimestamp ((call.params.get "nonce").getD [])

def Prunes (s : DigestRun) : Prop :=
  (call.replayKey W).isSome ∧ digestReplayEvictAt ≤ s.policy.digestReplays.entries.length

def KeepsReplays (s : DigestRun) (call : DigestCall) : Prop :=
  call.Prunes W s → ∀ earlier ∈ s.accepted,
    earlier.issuedAt + digestNonceTtlMs < call.checkedAt ∨
      call.prunedAt < earlier.storedAt + digestNonceTtlMs

end DigestCall

def acceptedCalls {G : Grammar} (W : World G) (calls : List DigestCall) : List DigestCall :=
  (run (DigestCall.step W) {} calls).accepted

/-! ### The memory of the replays -/

namespace DigestCall

variable {G : Grammar} {W : World G} {call : DigestCall} {s : DigestRun}

def keyOf : Option (Text × Text × Text × Text × Text) → Text × ℕ
  | some (username, nonce, nc, cnonce, uri) =>
    (joinColon [username, nonce, nc, cnonce, uri],
      (nonceTimestamp nonce + digestNonceTtlMs) * nanosPerMilli)
  | none => ([], 0)

def deadline (call : DigestCall) : ℕ := (call.issuedAt + digestNonceTtlMs) * nanosPerMilli

def attempt (call : DigestCall) (key : Text) : ReplayMemory.Attempt Text where
  key := key
  deadline := call.deadline
  checked := call.checkedAt * nanosPerMilli
  pruned := call.prunedAt * nanosPerMilli
  stored := call.storedAt * nanosPerMilli

lemma le_of_digestNonceIsValid {realm nonce : Text} {now : ℕ}
    (h : digestNonceIsValid W realm nonce now = true) :
    now ≤ nonceTimestamp nonce + digestNonceTtlMs := by
  rw [digestNonceIsValid] at h
  rw [nonceTimestamp]
  cases hsplit : Text.splitOnce '.' nonce with
  | none => simp [hsplit] at h
  | some parts =>
    obtain ⟨timestampHex, signature⟩ := parts
    cases hparse : parseUnsigned 16 64 timestampHex with
    | none => simp [hsplit, hparse] at h
    | some timestamp =>
      simp only [hsplit, hparse, Option.any_some, Bool.and_eq_true, decide_eq_true_eq] at h
      simp only [Option.bind_some, hparse, Option.getD_some]
      omega

variable {key : Text}

lemma exists_combination (h : call.replayKey W = some key) :
    ∃ username nonce nc cnonce uri, call.combination = some (username, nonce, nc, cnonce, uri) ∧
      call.params.get "nonce" = some nonce ∧
      key = joinColon [username, nonce, nc, cnonce, uri] ∧
      digestNonceIsValid (call.world W) call.config.realm nonce call.checkedAt = true := by
  obtain ⟨username, password, nonce, nc, cnonce, qop, response, hchecked, rfl⟩ :=
    digestReplayKey_eq_some_iff.mp h
  refine ⟨username, nonce, nc, cnonce, call.actualUri, ?_, hchecked.hasNonce, rfl,
    hchecked.nonceLive⟩
  rw [combination, hchecked.hasUser, hchecked.hasNonce, hchecked.hasNc.1, hchecked.hasCnonce.1,
    hchecked.sameUri]
  rfl

lemma replayKey_eq_some (h : call.replayKey W = some key) :
    (key, call.deadline) = keyOf call.combination ∧
      call.checkedAt ≤ call.issuedAt + digestNonceTtlMs := by
  obtain ⟨username, nonce, nc, cnonce, uri, hcombination, hnonce, rfl, hlive⟩ :=
    exists_combination h
  have hissued : call.issuedAt = nonceTimestamp nonce := by
    rw [issuedAt, hnonce, Option.getD_some]
  refine ⟨?_, ?_⟩
  · rw [deadline, hissued, hcombination]
    rfl
  · rw [hissued]
    exact le_of_digestNonceIsValid hlive

lemma step_of_none (h : call.replayKey W = none) : step W s call = s := by
  rw [replayKey] at h
  rw [step, PolicyEnforcer.digestAuthorized, h]
  rfl

def liveReplays (s : DigestRun) (call : DigestCall) : Map Text ℕ :=
  s.policy.liveReplays (call.prunedAt * nanosPerMilli)

lemma step_of_some (h : call.replayKey W = some key) :
    step W s call =
      { policy :=
          { s.policy with
            digestReplays := (liveReplays s call).insert key
              (call.storedAt * nanosPerMilli + digestNonceTtlMs * nanosPerMilli) }
        accepted :=
          if ((liveReplays s call).get key).isNone then s.accepted ++ [call] else s.accepted } := by
  rw [replayKey] at h
  rw [step, PolicyEnforcer.digestAuthorized, h]
  rfl

structure Recalls (W : World G) (s : DigestRun) (m : ReplayMemory.State Text) : Prop where
  memory : m.memory = s.policy.digestReplays
  accepted : List.Forall₂ (fun call a => ∃ key, call.replayKey W = some key ∧ a = call.attempt key)
    s.accepted m.accepted

def attempts (W : World G) (calls : List DigestCall) : List (ReplayMemory.Attempt Text) :=
  calls.filterMap fun call => (call.replayKey W).map call.attempt

abbrev useStep := ReplayMemory.step (κ := Text) digestReplayEvictAt
  (digestNonceTtlMs * nanosPerMilli)

variable {m : ReplayMemory.State Text}

lemma Recalls.step (h : Recalls W s m) (hkey : call.replayKey W = some key) :
    Recalls W (step W s call) (useStep m (call.attempt key)) := by
  have hlive : ReplayMemory.live digestReplayEvictAt m.memory (call.attempt key).pruned =
      liveReplays s call := by
    rw [h.memory]
    rfl
  rw [step_of_some hkey, useStep, ReplayMemory.step, hlive]
  refine ⟨rfl, ?_⟩
  show List.Forall₂ _ (if _ then _ else _)
    (if ((liveReplays s call).get key).isNone = true then _ else _)
  split
  · exact rel_append h.accepted (.cons ⟨key, hkey, rfl⟩ .nil)
  · exact h.accepted

lemma exists_mem_of_forall₂ {α β : Type} {R : α → β → Prop} {l : List α} {l' : List β}
    (h : List.Forall₂ R l l') {b : β} (hb : b ∈ l') : ∃ a ∈ l, R a b := by
  induction h with
  | nil => cases hb
  | @cons a b' l l' hab h ih =>
    rcases mem_cons.mp hb with rfl | hb
    · exact ⟨a, by simp, hab⟩
    · obtain ⟨a', ha', hrel⟩ := ih hb
      exact ⟨a', by simp [ha'], hrel⟩

lemma Recalls.keepsLive (h : Recalls W s m)
    (hkey : call.replayKey W = some key) (hkeep : KeepsReplays W s call) :
    ReplayMemory.KeepsLive digestReplayEvictAt (digestNonceTtlMs * nanosPerMilli) m
      (call.attempt key) := by
  intro hfull b hb
  rw [h.memory] at hfull
  obtain ⟨earlier, hmem, key', -, rfl⟩ := exists_mem_of_forall₂ h.accepted hb
  have hkept := hkeep ⟨by rw [hkey]; rfl, hfull⟩ earlier hmem
  show (earlier.issuedAt + digestNonceTtlMs) * nanosPerMilli < call.checkedAt * nanosPerMilli ∨
    call.prunedAt * nanosPerMilli <
      earlier.storedAt * nanosPerMilli + digestNonceTtlMs * nanosPerMilli
  rw [nanosPerMilli]
  omega

lemma attempts_cons_none (h : call.replayKey W = none) (calls : List DigestCall) :
    attempts W (call :: calls) = attempts W calls :=
  filterMap_cons_none (by rw [h]; rfl)

lemma attempts_cons_some (h : call.replayKey W = some key) (calls : List DigestCall) :
    attempts W (call :: calls) = call.attempt key :: attempts W calls :=
  filterMap_cons_some (by rw [h]; rfl)

lemma Recalls.run (h : Recalls W s m) (calls : List DigestCall) :
    Recalls W (Run.run (DigestCall.step W) s calls) (Run.run useStep m (attempts W calls)) := by
  induction calls generalizing s m with
  | nil => exact h
  | cons call calls ih =>
    cases hkey : call.replayKey W with
    | none =>
      rw [attempts_cons_none hkey, run_cons, step_of_none hkey]
      exact ih h
    | some key =>
      rw [attempts_cons_some hkey, run_cons, run_cons]
      exact ih (h.step hkey)

lemma Recalls.along (h : Recalls W s m) {calls : List DigestCall}
    (hkeep : Along (DigestCall.step W) (KeepsReplays W) s calls) :
    Along useStep (ReplayMemory.KeepsLive digestReplayEvictAt (digestNonceTtlMs * nanosPerMilli))
      m (attempts W calls) := by
  induction calls generalizing s m with
  | nil => trivial
  | cons call calls ih =>
    obtain ⟨hcall, hrest⟩ := hkeep
    cases hkey : call.replayKey W with
    | none =>
      rw [step_of_none hkey] at hrest
      rw [attempts_cons_none hkey]
      exact ih h hrest
    | some key =>
      rw [attempts_cons_some hkey]
      exact ⟨h.keepsLive hkey hcall, ih (h.step hkey) hrest⟩

lemma pairwise_attempts {calls : List DigestCall}
    (hclock : (calls.flatMap readings).Pairwise (· ≤ ·)) :
    ((attempts W calls).flatMap ReplayMemory.Attempt.readings).Pairwise (· ≤ ·) := by
  have hsub : ((attempts W calls).flatMap ReplayMemory.Attempt.readings).Sublist
      ((calls.flatMap readings).map (· * nanosPerMilli)) := by
    induction calls with
    | nil => exact List.Sublist.slnil
    | cons call calls ih =>
      have ih := ih (pairwise_append.mp hclock).2.1
      rw [flatMap_cons, map_append]
      cases hkey : call.replayKey W with
      | none =>
        rw [attempts_cons_none hkey]
        exact ih.trans (sublist_append_right _ _)
      | some key =>
        rw [attempts_cons_some hkey, flatMap_cons]
        exact List.Sublist.append (List.Sublist.refl _) ih
  refine List.Pairwise.sublist hsub (pairwise_map.mpr (hclock.imp fun h => ?_))
  exact Nat.mul_le_mul_right _ h

lemma along_keepsReplays_of_short {calls : List DigestCall}
    (h : calls.length ≤ digestReplayEvictAt) :
    Along (DigestCall.step W) (KeepsReplays W) {} calls := by
  suffices hlen : ∀ (calls : List DigestCall) (s : DigestRun),
      s.policy.digestReplays.entries.length + calls.length ≤ digestReplayEvictAt →
      Along (DigestCall.step W) (KeepsReplays W) s calls from
    hlen calls {} (by simpa using h)
  intro calls
  induction calls with
  | nil => exact fun _ _ => trivial
  | cons call calls ih =>
    intro s hs
    rw [length_cons] at hs
    refine ⟨fun hprunes => absurd hprunes.2 (by omega), ih _ ?_⟩
    cases hkey : call.replayKey W with
    | none =>
      rw [step_of_none hkey]
      omega
    | some key =>
      rw [step_of_some hkey]
      have hlive : liveReplays s call = s.policy.digestReplays := if_pos (by omega)
      have hinsert := Map.length_insert_le (liveReplays s call) key
        (call.storedAt * nanosPerMilli + digestNonceTtlMs * nanosPerMilli)
      show ((liveReplays s call).insert key _).entries.length + _ ≤ _
      rw [hlive] at hinsert ⊢
      split at hinsert <;> omega

end DigestCall

open DigestCall

/-- **One use of an authorization.**  In every run under a clock that does not go back, no
combination is accepted twice, if no pruning forgets the use of a nonce that is valid. -/
theorem accepted_nodup {G : Grammar} (W : World G) (calls : List DigestCall)
    (hclock : (calls.flatMap DigestCall.readings).Pairwise (· ≤ ·))
    (hkeep : Along (DigestCall.step W) (KeepsReplays W) {} calls) :
    ((acceptedCalls W calls).map DigestCall.combination).Nodup := by
  have hstart : Recalls W {} {} := ⟨rfl, .nil⟩
  have htracks := hstart.run calls
  have hnodup := ReplayMemory.nodup_accepted (pairwise_attempts hclock) (fun a ha => ?_)
    (hstart.along hkeep)
  · -- key and deadline are told by the combination
    have hkeys : (Run.run useStep {} (attempts W calls)).accepted.map
        (fun a => (a.key, a.deadline)) =
        ((acceptedCalls W calls).map DigestCall.combination).map keyOf := by
      rw [map_map, eq_comm, ← forall₂_eq_eq_eq, forall₂_map_left_iff,
        forall₂_map_right_iff]
      refine htracks.accepted.imp ?_
      rintro call a ⟨key, hkey, rfl⟩
      exact (replayKey_eq_some hkey).1.symm
    rw [hkeys] at hnodup
    exact List.Nodup.of_map _ hnodup
  · obtain ⟨call, -, hsome⟩ := mem_filterMap.mp ha
    obtain ⟨key, hkey, rfl⟩ := Option.map_eq_some_iff.mp hsome
    exact Nat.mul_le_mul_right _ (replayKey_eq_some hkey).2

/-! ### A nonce that is used in the millisecond of its issue -/

section Sample

variable {G : Grammar} (W : World G)

def sampleDigestConfig : DigestAuthConfig where
  enabled := true
  realm := "r"
  users := Map.ofList [("u", "p")]

def sampleNonce : Text := digestNonce W "r" 1

def sampleResponse (cnonce : Text) : Text :=
  digestExpected W "GET" "r" "u" "p" "/" (sampleNonce W) "00000001" cnonce "auth"

def sampleCall (cnonce : Text) (now : ℕ) : DigestCall where
  config := sampleDigestConfig
  method := "GET"
  actualUri := "/"
  params := Map.ofList
    [("username", "u"), ("nonce", sampleNonce W), ("uri", "/"),
      ("qop", "auth"), ("nc", "00000001"), ("cnonce", cnonce),
      ("response", sampleResponse W cnonce)]
  checkedAt := now
  prunedAt := now
  storedAt := now

def sampleKey (cnonce : Text) : Text :=
  joinColon ["u", sampleNonce W, "00000001", cnonce, "/"]

variable {W} {cnonce : Text} {now : ℕ}

lemma issuedAt_sampleCall : (sampleCall W cnonce now).issuedAt = 1 := rfl

lemma digestNonceIsValid_sampleNonce (hsigned : digestNonceSignature W "r" "1" ≠ [])
    (hend : now ≤ 1 + digestNonceTtlMs) :
    digestNonceIsValid W "r".toList (sampleNonce W) now = true := by
  have hsplit : Text.splitOnce '.' (sampleNonce W) =
      some ("1".toList, digestNonceSignature W "r" "1") := rfl
  have hparse : parseUnsigned 16 64 "1".toList = some 1 := by decide
  have hage : now - 1 ≤ digestNonceTtlMs := by omega
  have hskew : 1 ≤ now + digestNonceClockSkewMs := by
    rw [digestNonceClockSkewMs]
    omega
  have hsame : constantTimeStrEq (digestNonceSignature W "r" "1")
      (digestNonceSignature W "r" "1") = true := constantTimeStrEq_iff.mpr rfl
  simp only [digestNonceIsValid, hsplit, hparse, Option.any_some, hskew, hage, hsame]
  rw [decide_eq_true hsigned]
  rfl

lemma replayKey_sampleCall (hsigned : digestNonceSignature W "r" "1" ≠ []) (hcnonce : cnonce ≠ [])
    (hend : now ≤ 1 + digestNonceTtlMs) :
    (sampleCall W cnonce now).replayKey W = some (sampleKey W cnonce) := by
  have hvalid := digestNonceIsValid_sampleNonce hsigned hend
  have hcount : validDigestNc "00000001" = true := by decide
  refine digestReplayKey_eq_some_iff.mpr ⟨"u", "p", sampleNonce W,
    "00000001", cnonce, "auth", sampleResponse W cnonce, ?_, rfl⟩
  exact
    { hasUser := rfl
      hasPassword := rfl
      sameRealm := fun realm h => by cases h
      hasNonce := rfl
      nonceLive := hvalid
      sameUri := rfl
      sameAlgorithm := fun algorithm h => by cases h
      hasQop := ⟨rfl, rfl⟩
      hasNc := ⟨rfl, hcount⟩
      hasCnonce := ⟨rfl, hcnonce⟩
      hasResponse := rfl
      proof := rfl }

lemma combination_sampleCall : (sampleCall W cnonce now).combination =
    some ("u".toList, sampleNonce W, "00000001".toList, cnonce, "/".toList) := rfl

lemma length_sampleKey (cnonce : Text) : (sampleKey W cnonce).length =
    (sampleKey W []).length + cnonce.length := by
  simp only [sampleKey, joinColon, List.intercalate, List.intersperse, flatten_cons,
    flatten_nil, length_append, length_nil]
  omega

variable (W) in
def fillingCalls (n : ℕ) : List DigestCall :=
  (List.range n).map fun i => sampleCall W (List.replicate (i + 1) 'a') 1

lemma attempts_fillingCalls (hsigned : digestNonceSignature W "r" "1" ≠ []) (n : ℕ) :
    attempts W (fillingCalls W n) = (List.range n).map fun i =>
      (sampleCall W (List.replicate (i + 1) 'a') 1).attempt
        (sampleKey W (List.replicate (i + 1) 'a')) := by
  rw [attempts, fillingCalls, filterMap_map]
  rw [← filterMap_eq_map]
  refine filterMap_congr fun i _ => ?_
  rw [Function.comp_apply, replayKey_sampleCall hsigned (by simp) (by omega)]
  rfl

lemma acceptedCalls_sublist (calls : List DigestCall) : (acceptedCalls W calls).Sublist calls := by
  induction calls using List.reverseRecOn with
  | nil => exact List.Sublist.slnil
  | append_singleton calls call ih =>
    rw [acceptedCalls] at ih ⊢
    rw [run_append, run_cons, run_nil, DigestCall.step]
    split
    · exact ih.append (List.Sublist.refl _)
    · exact ih.trans (sublist_append_left _ _)

lemma nodup_keys_fillingCalls (hsigned : digestNonceSignature W "r" "1" ≠ []) (n : ℕ) :
    ((attempts W (fillingCalls W n)).map ReplayMemory.Attempt.key).Nodup := by
  rw [attempts_fillingCalls hsigned, map_map]
  refine List.Nodup.map (fun i j hij => ?_) nodup_range
  have hlen : (sampleKey W (List.replicate (i + 1) 'a')).length =
      (sampleKey W (List.replicate (j + 1) 'a')).length := congrArg List.length hij
  rw [length_sampleKey, length_sampleKey (List.replicate (j + 1) 'a'), length_replicate,
    length_replicate] at hlen
  omega

lemma acceptedCalls_fillingCalls (hsigned : digestNonceSignature W "r" "1" ≠ []) :
    acceptedCalls W (fillingCalls W digestReplayEvictAt ++
        [sampleCall W ['a'] (1 + digestNonceTtlMs)]) =
      fillingCalls W digestReplayEvictAt ++ [sampleCall W ['a'] (1 + digestNonceTtlMs)] := by
  refine (acceptedCalls_sublist _).eq_of_length ?_
  generalize hn : digestReplayEvictAt = n
  have hcount : (attempts W (fillingCalls W n)).length = n := by
    rw [attempts_fillingCalls hsigned, length_map, length_range]
  obtain ⟨haccepted, hlength, hknown⟩ := ReplayMemory.run_of_distinct digestReplayEvictAt
    (digestNonceTtlMs * nanosPerMilli) (nodup_keys_fillingCalls hsigned n) (by rw [hcount, hn])
  -- all uses were stored at time 1, and have run out at the end of the lifetime
  have hexpired : ∀ k expiresAt,
      (Run.run useStep {} (attempts W (fillingCalls W n))).memory.lookup k = some expiresAt →
      expiresAt ≤ (1 + digestNonceTtlMs) * nanosPerMilli := by
    intro k expiresAt h
    obtain ⟨a, ha, -, rfl⟩ := hknown k expiresAt h
    rw [attempts_fillingCalls hsigned] at ha
    obtain ⟨i, -, rfl⟩ := mem_map.mp ha
    show 1 * nanosPerMilli + digestNonceTtlMs * nanosPerMilli ≤ _
    rw [Nat.add_mul]
  have hlast : (sampleCall W ['a'] (1 + digestNonceTtlMs)).replayKey W =
      some (sampleKey W ['a']) := replayKey_sampleCall hsigned (by simp) le_rfl
  have hstart : Recalls W {} {} := ⟨rfl, .nil⟩
  have htracks := (hstart.run (fillingCalls W n)).step hlast
  rw [acceptedCalls, run_append, run_cons, run_nil, htracks.accepted.length_eq, useStep,
    ReplayMemory.accepted_step_of_expired (by rw [hlength, hcount, hn]) hexpired, haccepted,
    length_append, length_append, hcount, fillingCalls, length_map,
    length_range, length_singleton, length_singleton]

end Sample

/-- A use that is remembered is refused. -/
theorem accepted_nodup_sample :
    (acceptedCalls sampleWorld
        [sampleCall sampleWorld ['a'] 1, sampleCall sampleWorld ['a'] 2]).length = 1 ∧
      ((acceptedCalls sampleWorld [sampleCall sampleWorld ['a'] 1,
        sampleCall sampleWorld ['a'] 2]).map DigestCall.combination).Nodup :=
  ⟨by decide +kernel, accepted_nodup sampleWorld _ (by decide)
    (along_keepsReplays_of_short (by decide))⟩

/-- A hundred thousand authorizations with a nonce in the millisecond of its issue, and the
first of them again at the end of its lifetime: all are accepted. -/
theorem replay_at_lifetime :
    let calls := fillingCalls sampleWorld digestReplayEvictAt ++
      [sampleCall sampleWorld ['a'] (1 + digestNonceTtlMs)]
    (calls.flatMap DigestCall.readings).Pairwise (· ≤ ·) ∧
      (∀ call ∈ calls, call.issuedAt ≤ call.checkedAt) ∧ acceptedCalls sampleWorld calls = calls ∧
      ¬ ((acceptedCalls sampleWorld calls).map DigestCall.combination).Nodup := by
  intro calls
  have haccepted : acceptedCalls sampleWorld calls = calls :=
    acceptedCalls_fillingCalls (by decide)
  have htimes : ∀ call ∈ fillingCalls sampleWorld digestReplayEvictAt,
      call.issuedAt = 1 ∧ call.readings = [1, 1, 1] := by
    intro call hcall
    obtain ⟨i, -, rfl⟩ := mem_map.mp hcall
    exact ⟨issuedAt_sampleCall, rfl⟩
  have hreadings : ∀ t ∈ (fillingCalls sampleWorld digestReplayEvictAt).flatMap
      DigestCall.readings, t = 1 := by
    intro t ht
    obtain ⟨call, hcall, ht⟩ := mem_flatMap.mp ht
    rw [(htimes call hcall).2] at ht
    simpa using ht
  refine ⟨?_, fun call hcall => ?_, haccepted, fun hnodup => ?_⟩
  · rw [flatMap_append, pairwise_append]
    refine ⟨pairwise_of_forall_mem_list fun t ht t' ht' => ?_, by decide,
      fun t ht t' ht' => ?_⟩
    · rw [hreadings t ht, hreadings t' ht']
    · rw [hreadings t ht]
      have hlast : ∀ t ∈ [sampleCall sampleWorld ['a'] (1 + digestNonceTtlMs)].flatMap
          DigestCall.readings, 1 ≤ t := by decide
      exact hlast t' ht'
  · rcases mem_append.mp hcall with hcall | hcall
    · obtain ⟨i, -, rfl⟩ := mem_map.mp hcall
      rw [issuedAt_sampleCall]
      exact le_rfl
    · rw [mem_singleton.mp hcall, issuedAt_sampleCall]
      exact Nat.le_add_right 1 _
  · rw [haccepted, map_append, map_singleton, nodup_append] at hnodup
    refine hnodup.2.2 _ (mem_map_of_mem (mem_map.mpr ⟨0, ?_, rfl⟩)) _
      (mem_singleton_self _) ?_
    · exact mem_range.mpr (by decide)
    · rw [combination_sampleCall, combination_sampleCall]
      rfl

end PxxlEdge
