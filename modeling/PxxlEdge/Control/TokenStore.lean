import PxxlEdge.Lib.Calls
import PxxlEdge.Lib.Map
import PxxlEdge.Lib.SortedTexts

/-!
The admin tokens in Redis.

Two hashes hold them: one has the record of each token under its id, the other
the id under the hash of the token.  Every operation is a sequence of Redis
commands, each of them atomic, between which other operations may run.

* `TokenOp`, `TokenCall`: the operations, and where they stand between two
  commands.  A login is a revocation by name and a creation after it.

A Redis entry is modelled by the record it decodes to.  Ids and hashes of tokens
are given with the operation that draws them.
-/

namespace PxxlEdge

open RustStd Calls Run

/-! ### Records -/

def defaultAdminScopes : List Text := ["admin".toList]

def normalizeTokenScopes (scopes : List Text) : List Text :=
  let scopes := sortDedup ((scopes.map fun scope => scope.trim.toAsciiLowercase).filter (· ≠ []))
  if scopes = [] then defaultAdminScopes else scopes

structure AdminTokenRecord where
  id : Text
  name : Text
  tokenHash : Text
  scopes : List Text
  createdAtUnixMs : ℕ
  lastUsedUnixMs : Option ℕ
  enabled : Bool
deriving DecidableEq, Repr

structure AdminTokenView where
  id : Text
  name : Text
  scopes : List Text
  createdAtUnixMs : ℕ
  lastUsedUnixMs : Option ℕ
  enabled : Bool
deriving DecidableEq, Repr

def AdminTokenRecord.view (record : AdminTokenRecord) : AdminTokenView where
  id := record.id
  name := record.name
  scopes := normalizeTokenScopes record.scopes
  createdAtUnixMs := record.createdAtUnixMs
  lastUsedUnixMs := record.lastUsedUnixMs
  enabled := record.enabled

def AdminTokenRecord.used (record : AdminTokenRecord) (now : ℕ) : AdminTokenRecord :=
  { record with lastUsedUnixMs := some now }

structure NewToken where
  id : Text
  tokenHash : Text
  name : Text
  scopes : List Text
  now : ℕ
deriving DecidableEq, Repr

def NewToken.record (token : NewToken) : AdminTokenRecord where
  id := token.id
  name := token.name
  tokenHash := token.tokenHash
  scopes := normalizeTokenScopes token.scopes
  createdAtUnixMs := token.now
  lastUsedUnixMs := none
  enabled := true

/-! ### The hashes -/

structure TokenHashes where
  records : Map Text AdminTokenRecord := ∅
  hashIndex : Map Text Text := ∅

inductive RedisWrite where
  | hsetRecord (record : AdminTokenRecord)
  | hsetIndex (tokenHash id : Text)
  | hdelRecord (id : Text)
  | hdelIndex (tokenHash : Text)

def RedisWrite.apply (hashes : TokenHashes) : RedisWrite → TokenHashes
  | .hsetRecord record => { hashes with records := hashes.records.insert record.id record }
  | .hsetIndex tokenHash id => { hashes with hashIndex := hashes.hashIndex.insert tokenHash id }
  | .hdelRecord id => { hashes with records := hashes.records.erase id }
  | .hdelIndex tokenHash => { hashes with hashIndex := hashes.hashIndex.erase tokenHash }

def TokenHashes.values (hashes : TokenHashes) : List AdminTokenRecord :=
  hashes.records.entries.map Sigma.snd

def AdminTokenView.listedBefore (left right : AdminTokenView) : Bool :=
  if left.name = right.name then left.id.isLe right.id else left.name.isLe right.name

def TokenHashes.listTokens (hashes : TokenHashes) : List AdminTokenView :=
  (hashes.values.map AdminTokenRecord.view).mergeSort AdminTokenView.listedBefore

/-! ### Operations and calls -/

inductive TokenOp where
  | create (token : NewToken)
  | verify (tokenHash : Text)
  | revoke (id : Text)
  | revokeByName (name : Text)
  | list
deriving DecidableEq, Repr

inductive TokenResult where
  | created (record : AdminTokenRecord)
  | verified (view : Option AdminTokenView)
  | revoked (removed : Bool)
  | revokedByName (removed : ℕ)
  | listed (views : List AdminTokenView)
deriving DecidableEq, Repr

inductive TokenCall where
  /-- `HSET` of the record. -/
  | create (record : AdminTokenRecord)
  /-- `HSET` of the index. -/
  | createIndex (record : AdminTokenRecord)
  /-- `HGET` of the index. -/
  | verify (tokenHash : Text)
  /-- `HGET` of the record. -/
  | verifyRecord (tokenHash id : Text)
  /-- `HDEL` of an index entry without a record. -/
  | verifyForget (tokenHash : Text)
  /-- `HSET` of the record with the time of its use. -/
  | verifyWrite (record : AdminTokenRecord)
  /-- `HGET` of the record. -/
  | revoke (id : Text)
  /-- `HDEL` of the index. -/
  | revokeIndex (id : Text) (record : AdminTokenRecord)
  /-- `HDEL` of the record; `existing` is what the first command found. -/
  | revokeRecord (id : Text) (existing : Option AdminTokenRecord)
  /-- `HVALS`. -/
  | revokeNames (name : Text)
  /-- `HDEL` of the index, for the first of the records that are left. -/
  | revokeNamesIndex (record : AdminTokenRecord) (rest : List AdminTokenRecord) (removed : ℕ)
  /-- `HDEL` of that record. -/
  | revokeNamesRecord (record : AdminTokenRecord) (rest : List AdminTokenRecord) (removed : ℕ)
  /-- `HVALS`. -/
  | list
  | done (result : TokenResult)
  /-- A command has failed; `created` is the record the call was to create. -/
  | failed (created : Option AdminTokenRecord)
deriving DecidableEq, Repr

namespace TokenCall

def start : TokenOp → TokenCall
  | .create token => .create token.record
  | .verify tokenHash => .verify tokenHash
  | .revoke id => .revoke id
  | .revokeByName name => .revokeNames name
  | .list => .list

def write : TokenCall → Option RedisWrite
  | .create record => some (.hsetRecord record)
  | .createIndex record => some (.hsetIndex record.tokenHash record.id)
  | .verifyForget tokenHash => some (.hdelIndex tokenHash)
  | .verifyWrite record => some (.hsetRecord record)
  | .revokeIndex _ record => some (.hdelIndex record.tokenHash)
  | .revokeRecord id _ => some (.hdelRecord id)
  | .revokeNamesIndex record _ _ => some (.hdelIndex record.tokenHash)
  | .revokeNamesRecord record _ _ => some (.hdelRecord record.id)
  | _ => none

def revokeRest (removed : ℕ) : List AdminTokenRecord → TokenCall
  | record :: rest => .revokeNamesIndex record rest removed
  | [] => .done (.revokedByName removed)

def reply (now : ℕ) (hashes : TokenHashes) : TokenCall → TokenCall
  | .create record => .createIndex record
  | .createIndex record => .done (.created record)
  | .verify tokenHash =>
    match hashes.hashIndex.lookup tokenHash with
    | some id => .verifyRecord tokenHash id
    | none => .done (.verified none)
  | .verifyRecord tokenHash id =>
    match hashes.records.lookup id with
    | some record =>
      if record.enabled ∧ record.tokenHash = tokenHash then .verifyWrite (record.used now)
      else .done (.verified none)
    | none => .verifyForget tokenHash
  | .verifyForget _ => .done (.verified none)
  | .verifyWrite record => .done (.verified (some record.view))
  | .revoke id =>
    match hashes.records.lookup id with
    | some record => .revokeIndex id record
    | none => .revokeRecord id none
  | .revokeIndex id record => .revokeRecord id (some record)
  | .revokeRecord id _ => .done (.revoked (hashes.records.lookup id).isSome)
  | .revokeNames name => revokeRest 0 (hashes.values.filter fun record => record.name = name)
  | .revokeNamesIndex record rest removed => .revokeNamesRecord record rest removed
  | .revokeNamesRecord record rest removed =>
    revokeRest (if (hashes.records.lookup record.id).isSome then removed + 1 else removed) rest
  | .list => .done (.listed hashes.listTokens)
  | .done result => .done result
  | .failed created => .failed created

def creates : TokenCall → Option AdminTokenRecord
  | .create record => some record
  | .createIndex record => some record
  | .done (.created record) => some record
  | .failed created => created
  | _ => none

end TokenCall

/-! ### The system -/

inductive CommandEvent where
  | reply (now : ℕ)
  | error (made : Bool)
deriving DecidableEq, Repr

def TokenCall.commit (hashes : TokenHashes) (call : TokenCall) : TokenHashes :=
  match call.write with
  | some write => write.apply hashes
  | none => hashes

def TokenCall.returned : TokenCall → Bool
  | .done _ => true
  | .failed _ => true
  | _ => false

def TokenCall.next (event : CommandEvent) (hashes : TokenHashes) (call : TokenCall) :
    TokenHashes × TokenCall :=
  match event with
  | .reply now => (call.commit hashes, call.reply now hashes)
  | .error made =>
    if call.returned then (hashes, call)
    else (if made then call.commit hashes else hashes, .failed call.creates)

abbrev TokenSystem := System TokenHashes TokenCall

abbrev TokenLabel := Label TokenOp CommandEvent

def tokenStep : TokenSystem → TokenLabel → TokenSystem := step TokenCall.start TokenCall.next

lemma tokenStep_advance {s : TokenSystem} {i : ℕ} {call : TokenCall} {event : CommandEvent}
    (h : s.calls[i]? = some call) :
    tokenStep s (.advance i event) =
      { store := (call.next event s.store).1
        calls := s.calls.set i (call.next event s.store).2 } := step_advance h

def emptyTokens : TokenSystem := ⟨{}, []⟩

lemma tokenStep_advance_last (hashes : TokenHashes) (calls : List TokenCall) (call : TokenCall)
    (event : CommandEvent) :
    tokenStep ⟨hashes, calls ++ [call]⟩ (.advance calls.length event) =
      ⟨(call.next event hashes).1, calls ++ [(call.next event hashes).2]⟩ := by
  have hlast : (calls ++ [call])[calls.length]? = some call := by simp
  rw [tokenStep_advance hlast]
  simp

/-! ### Operations one at a time -/

namespace TokenCall

def remaining (hashes : TokenHashes) : TokenCall → ℕ
  | .create _ => 2
  | .createIndex _ => 1
  | .verify _ => 3
  | .verifyRecord _ _ => 2
  | .verifyForget _ => 1
  | .verifyWrite _ => 1
  | .revoke _ => 3
  | .revokeIndex _ _ => 2
  | .revokeRecord _ _ => 1
  | .revokeNames _ => 2 * hashes.values.length + 1
  | .revokeNamesIndex _ rest _ => 2 * rest.length + 2
  | .revokeNamesRecord _ rest _ => 2 * rest.length + 1
  | .list => 1
  | .done _ => 0
  | .failed _ => 0

def finish (event : ℕ → CommandEvent) : ℕ → TokenHashes → TokenCall → TokenHashes × TokenCall
  | 0, hashes, call => (hashes, call)
  | n + 1, hashes, call =>
    finish event n (call.next (event n) hashes).1 (call.next (event n) hashes).2

lemma remaining_revokeRest (hashes : TokenHashes) (removed : ℕ) (rest : List AdminTokenRecord) :
    (revokeRest removed rest).remaining hashes ≤ 2 * rest.length := by
  cases rest with
  | nil => exact le_rfl
  | cons record rest =>
    show 2 * rest.length + 2 ≤ 2 * (rest.length + 1)
    omega

lemma remaining_reply (now : ℕ) (hashes hashes' : TokenHashes) (call : TokenCall) :
    (call.reply now hashes).remaining hashes' ≤ call.remaining hashes - 1 := by
  cases call with
  | verify tokenHash => rw [reply]; split <;> simp [remaining]
  | verifyRecord tokenHash id =>
    rw [reply]
    split
    · split <;> simp [remaining]
    · simp [remaining]
  | revoke id => rw [reply]; split <;> simp [remaining]
  | revokeNames name =>
    have hrest := remaining_revokeRest hashes' 0
      (hashes.values.filter fun record => record.name = name)
    have hlength := List.length_filter_le (fun record => decide (record.name = name))
      hashes.values
    rw [reply, remaining]
    omega
  | revokeNamesRecord record rest removed =>
    rw [reply]
    exact remaining_revokeRest hashes' _ rest
  | _ => simp [reply, remaining]

lemma remaining_next (event : CommandEvent) (hashes hashes' : TokenHashes) (call : TokenCall) :
    (call.next event hashes).2.remaining hashes' ≤ call.remaining hashes - 1 := by
  cases event with
  | reply now => exact remaining_reply now hashes hashes' call
  | error made =>
    rw [next]
    split
    · next hreturned => cases call <;> first | exact Nat.zero_le _ | cases hreturned
    · exact Nat.zero_le _

lemma returned_of_remaining {hashes : TokenHashes} {call : TokenCall}
    (h : call.remaining hashes = 0) : call.returned = true := by
  cases call <;> first | rfl | simp [remaining] at h

end TokenCall

/-- **Wait-freedom.**  An operation returns after as many commands as it had left at its first. -/
theorem token_calls_wait_free (s : TokenSystem) (i : Fin s.calls.length) (event : CommandEvent)
    (labels : List TokenLabel) :
    ∃ call, (run tokenStep s (.advance i event :: labels)).calls[i]? = some call ∧
      (s.calls[i].remaining s.store ≤ labels.countP (Label.Moves i) + 1 →
        call.returned = true) := by
  have hi : s.calls[(i : ℕ)]? = some s.calls[i] := List.getElem?_eq_getElem i.2
  obtain ⟨call, hcall, hleft⟩ := exists_call_run (fun hashes call => call.remaining hashes)
    TokenCall.remaining_next (s := tokenStep s (.advance i event))
    (by rw [tokenStep_advance hi, List.getElem?_set_self i.2])
    (fun hashes => TokenCall.remaining_next event s.store hashes _) labels
  refine ⟨call, hcall, fun h => TokenCall.returned_of_remaining
    (Nat.le_zero.mp ((hleft s.store).trans ?_))⟩
  omega

def TokenHashes.perform (event : ℕ → CommandEvent) (op : TokenOp) (hashes : TokenHashes) :
    TokenHashes × TokenCall :=
  (TokenCall.start op).finish event ((TokenCall.start op).remaining hashes) hashes

def aloneLabels (event : ℕ → CommandEvent) (position : ℕ) : ℕ → List TokenLabel
  | 0 => []
  | n + 1 => .advance position (event n) :: aloneLabels event position n

lemma run_aloneLabels (event : ℕ → CommandEvent) (n : ℕ) (hashes : TokenHashes)
    (calls : List TokenCall) (call : TokenCall) :
    run tokenStep ⟨hashes, calls ++ [call]⟩ (aloneLabels event calls.length n) =
      ⟨(call.finish event n hashes).1, calls ++ [(call.finish event n hashes).2]⟩ := by
  induction n generalizing hashes call with
  | zero => rfl
  | succ n ih => rw [aloneLabels, run_cons, tokenStep_advance_last, ih, TokenCall.finish]

lemma run_perform (event : ℕ → CommandEvent) (op : TokenOp) (s : TokenSystem) :
    run tokenStep s (.start op :: aloneLabels event s.calls.length
        ((TokenCall.start op).remaining s.store)) =
      ⟨(s.store.perform event op).1, s.calls ++ [(s.store.perform event op).2]⟩ :=
  run_aloneLabels event _ s.store s.calls (.start op)

end PxxlEdge
