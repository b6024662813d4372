import PxxlEdge.Control.TokenStore

/-!
Revocations of admin tokens that run beside other calls on the token store.

A verification writes the record back that it has read, with the time of the
use.  If the record is revoked in between, the write brings it back.
-/

namespace PxxlEdge

open RustStd Calls Run List

/-! ### What a command can do -/

section Writes

variable {hashes : TokenHashes} {write : RedisWrite}

lemma RedisWrite.records_apply {id : Text} {record : AdminTokenRecord}
    (h : (write.apply hashes).records.lookup id = some record) :
    hashes.records.lookup id = some record ∨ (write = .hsetRecord record ∧ record.id = id) := by
  cases write with
  | hsetRecord written =>
    by_cases hid : id = written.id
    · subst hid
      rw [apply, AList.lookup_insert, Option.some_inj] at h
      exact .inr ⟨h ▸ rfl, h ▸ rfl⟩
    · rw [apply, AList.lookup_insert_ne hid] at h
      exact .inl h
  | hdelRecord removed => exact .inl ((Map.drops_erase removed hashes.records).lookup_eq h)
  | hsetIndex tokenHash id => exact .inl h
  | hdelIndex tokenHash => exact .inl h

lemma RedisWrite.hashIndex_apply {tokenHash id : Text}
    (h : (write.apply hashes).hashIndex.lookup tokenHash = some id) :
    hashes.hashIndex.lookup tokenHash = some id ∨ write = .hsetIndex tokenHash id := by
  cases write with
  | hsetIndex written id' =>
    by_cases htoken : tokenHash = written
    · subst htoken
      rw [apply, AList.lookup_insert, Option.some_inj] at h
      exact .inr (h ▸ rfl)
    · rw [apply, AList.lookup_insert_ne htoken] at h
      exact .inl h
  | hdelIndex removed => exact .inl ((Map.drops_erase removed hashes.hashIndex).lookup_eq h)
  | hsetRecord record => exact .inl h
  | hdelRecord id => exact .inl h

end Writes

def CommandEvent.made : CommandEvent → Bool
  | .reply _ => true
  | .error made => made

def AdminTokenRecord.unused (record : AdminTokenRecord) : AdminTokenRecord :=
  { record with lastUsedUnixMs := none }

namespace TokenCall

def holds : TokenCall → List AdminTokenRecord
  | .createIndex record => [record]
  | .verifyWrite record => [record]
  | .revokeIndex _ record => [record]
  | .revokeRecord _ (some record) => [record]
  | .revokeNamesIndex record rest _ => record :: rest
  | .revokeNamesRecord record rest _ => record :: rest
  | _ => []

variable {event : CommandEvent} {hashes : TokenHashes} {call : TokenCall} {now : ℕ}

lemma next_fst (event : CommandEvent) (hashes : TokenHashes) (call : TokenCall) :
    (call.next event hashes).1 = if event.made then call.commit hashes else hashes := by
  cases event with
  | reply now => rfl
  | error made =>
    rw [next]
    split
    · next hreturned =>
      -- a call that has returned writes nothing
      have hcommit : call.commit hashes = hashes := by
        cases call with
        | done result => rfl
        | failed created => rfl
        | _ => cases hreturned
      rw [hcommit, ite_self]
    · rfl

lemma next_store (event : CommandEvent) (hashes : TokenHashes) (call : TokenCall) :
    (call.next event hashes).1 = hashes ∨
      ∃ write, call.write = some write ∧ (call.next event hashes).1 = write.apply hashes := by
  rw [next_fst]
  split
  · rw [commit]
    cases call.write with
    | none => exact .inl rfl
    | some write => exact .inr ⟨write, rfl, rfl⟩
  · exact .inl rfl

lemma records_next {id : Text} {record : AdminTokenRecord}
    (h : (call.next event hashes).1.records.lookup id = some record) :
    hashes.records.lookup id = some record ∨
      (call.write = some (.hsetRecord record) ∧ record.id = id) := by
  rcases next_store event hashes call with heq | ⟨write, hwrite, heq⟩
  · exact .inl (heq ▸ h)
  · rcases RedisWrite.records_apply (heq ▸ h) with hold | ⟨rfl, hid⟩
    · exact .inl hold
    · exact .inr ⟨hwrite, hid⟩

lemma hashIndex_next {tokenHash id : Text}
    (h : (call.next event hashes).1.hashIndex.lookup tokenHash = some id) :
    hashes.hashIndex.lookup tokenHash = some id ∨
      call.write = some (.hsetIndex tokenHash id) := by
  rcases next_store event hashes call with heq | ⟨write, hwrite, heq⟩
  · exact .inl (heq ▸ h)
  · rcases RedisWrite.hashIndex_apply (heq ▸ h) with hold | rfl
    · exact .inl hold
    · exact .inr hwrite

lemma write_eq_hsetRecord {record : AdminTokenRecord}
    (h : call.write = some (.hsetRecord record)) :
    call = .create record ∨ call = .verifyWrite record := by
  cases call <;> simp_all [write]

lemma write_eq_hsetIndex {tokenHash id : Text} (h : call.write = some (.hsetIndex tokenHash id)) :
    ∃ record, call = .createIndex record ∧ record.tokenHash = tokenHash ∧ record.id = id := by
  cases call <;> simp_all [write]

inductive Moves (hashes : TokenHashes) : TokenCall → TokenCall → Prop where
  | created (record) : Moves hashes (.create record) (.createIndex record)
  | indexed (record) : Moves hashes (.createIndex record) (.done (.created record))
  | found {tokenHash id} (h : hashes.hashIndex.lookup tokenHash = some id) :
      Moves hashes (.verify tokenHash) (.verifyRecord tokenHash id)
  | unknown (tokenHash) : Moves hashes (.verify tokenHash) (.done (.verified none))
  | read {tokenHash id record} (now : ℕ) (h : hashes.records.lookup id = some record)
      (henabled : record.enabled = true) (hhash : record.tokenHash = tokenHash) :
      Moves hashes (.verifyRecord tokenHash id) (.verifyWrite (record.used now))
  | refused (tokenHash id) : Moves hashes (.verifyRecord tokenHash id) (.done (.verified none))
  | gone {tokenHash id} (h : hashes.records.lookup id = none) :
      Moves hashes (.verifyRecord tokenHash id) (.verifyForget tokenHash)
  | forgotten (tokenHash) : Moves hashes (.verifyForget tokenHash) (.done (.verified none))
  | verified (record) :
      Moves hashes (.verifyWrite record) (.done (.verified (some record.view)))
  | existing {id record} (h : hashes.records.lookup id = some record) :
      Moves hashes (.revoke id) (.revokeIndex id record)
  | missing (id) : Moves hashes (.revoke id) (.revokeRecord id none)
  | unindexed (id record) :
      Moves hashes (.revokeIndex id record) (.revokeRecord id (some record))
  | revoked (id existing removed) :
      Moves hashes (.revokeRecord id existing) (.done (.revoked removed))
  | named {name record rest} (h : record :: rest ⊆ hashes.values) :
      Moves hashes (.revokeNames name) (.revokeNamesIndex record rest 0)
  | noneNamed (name) : Moves hashes (.revokeNames name) (.done (.revokedByName 0))
  | namedUnindexed (record rest removed) :
      Moves hashes (.revokeNamesIndex record rest removed) (.revokeNamesRecord record rest removed)
  | namedNext (record record' rest removed removed') :
      Moves hashes (.revokeNamesRecord record (record' :: rest) removed)
        (.revokeNamesIndex record' rest removed')
  | namedDone (record removed removed') :
      Moves hashes (.revokeNamesRecord record [] removed) (.done (.revokedByName removed'))
  | listed : Moves hashes .list (.done (.listed hashes.listTokens))
  | stays (result) : Moves hashes (.done result) (.done result)
  | fails (call : TokenCall) : Moves hashes call (.failed call.creates)

lemma moves_reply (now : ℕ) (hashes : TokenHashes) (call : TokenCall) :
    Moves hashes call (call.reply now hashes) := by
  cases call with
  | create record => exact .created record
  | createIndex record => exact .indexed record
  | verify tokenHash =>
    rw [reply]
    split
    · next id hid => exact .found hid
    · exact .unknown tokenHash
  | verifyRecord tokenHash id =>
    rw [reply]
    split
    · next record hrecord =>
      split
      · next hlive => exact .read now hrecord hlive.1 hlive.2
      · exact .refused tokenHash id
    · next hnone => exact .gone hnone
  | verifyForget tokenHash => exact .forgotten tokenHash
  | verifyWrite record => exact .verified record
  | revoke id =>
    rw [reply]
    split
    · next record hrecord => exact .existing hrecord
    · exact .missing id
  | revokeIndex id record => exact .unindexed id record
  | revokeRecord id existing => exact .revoked id existing _
  | revokeNames name =>
    rw [reply]
    have hsub : hashes.values.filter (fun record => record.name = name) ⊆ hashes.values :=
      filter_subset_self _
    generalize hashes.values.filter (fun record => record.name = name) = rest at hsub
    cases rest with
    | cons record rest => exact .named hsub
    | nil => exact .noneNamed name
  | revokeNamesIndex record rest removed => exact .namedUnindexed record rest removed
  | revokeNamesRecord record rest removed =>
    cases rest with
    | cons record' rest => exact .namedNext record record' rest removed _
    | nil => exact .namedDone record removed _
  | list => exact .listed
  | done result => exact .stays result
  | failed created => exact .fails (.failed created)

lemma moves_next (event : CommandEvent) (hashes : TokenHashes) (call : TokenCall) :
    Moves hashes call (call.next event hashes).2 := by
  cases event with
  | reply now => exact moves_reply now hashes call
  | error made =>
    rw [next]
    split
    · next hreturned =>
      cases call with
      | done result => exact .stays result
      | failed created => exact .fails (.failed created)
      | _ => cases hreturned
    · exact .fails call

lemma mem_values {record : AdminTokenRecord} (h : record ∈ hashes.values) :
    ∃ id, hashes.records.lookup id = some record := by
  obtain ⟨⟨id, record⟩, hmem, rfl⟩ := mem_map.mp h
  exact ⟨id, AList.mem_lookup_iff.mpr hmem⟩

variable {moved : TokenCall}

lemma Moves.creates_eq (h : Moves hashes call moved) : moved.creates = call.creates := by
  cases h <;> rfl

lemma Moves.not_create {record : AdminTokenRecord} : ¬ Moves hashes call (.create record) := by
  intro h
  cases h

lemma Moves.mem_holds (h : Moves hashes call moved) {record : AdminTokenRecord}
    (hmem : record ∈ moved.holds) :
    record ∈ call.holds ∨ call = .create record ∨
      ∃ id stored, hashes.records.lookup id = some stored ∧ record.unused = stored.unused := by
  cases h with
  | created created =>
    rw [holds, mem_singleton] at hmem
    exact .inr (.inl (hmem ▸ rfl))
  | @read tokenHash id stored now hstored henabled hhash =>
    rw [holds, mem_singleton] at hmem
    exact .inr (.inr ⟨id, stored, hstored, hmem ▸ rfl⟩)
  | @existing id stored hstored =>
    rw [holds, mem_singleton] at hmem
    exact .inr (.inr ⟨id, stored, hstored, hmem ▸ rfl⟩)
  | named hsub =>
    obtain ⟨id, hid⟩ := mem_values (hsub hmem)
    exact .inr (.inr ⟨id, record, hid, rfl⟩)
  | unindexed => exact .inl hmem
  | namedUnindexed => exact .inl hmem
  | namedNext => exact .inl (mem_cons_of_mem _ hmem)
  | _ => cases hmem

lemma Moves.verifyWrite_inv {record : AdminTokenRecord}
    (h : Moves hashes call (.verifyWrite record)) :
    ∃ tokenHash id stored now, call = .verifyRecord tokenHash id ∧
      hashes.records.lookup id = some stored ∧ record = stored.used now := by
  cases h with
  | @read tokenHash id stored now hstored henabled hhash =>
    exact ⟨tokenHash, id, stored, now, rfl, hstored, rfl⟩

def Writes (id : Text) (call : TokenCall) : Prop :=
  ∃ record, call.write = some (.hsetRecord record) ∧ record.id = id

end TokenCall

/-! ### Records that stay away -/

section Absent

variable {s : TokenSystem} {id : Text} {label : TokenLabel}

def TokenHashes.WellKeyed (hashes : TokenHashes) : Prop :=
  ∀ id record, hashes.records.lookup id = some record → record.id = id

lemma TokenHashes.WellKeyed.next {hashes : TokenHashes} (h : hashes.WellKeyed)
    (event : CommandEvent) (call : TokenCall) : (call.next event hashes).1.WellKeyed := by
  intro id record hrecord
  rcases TokenCall.records_next hrecord with hold | ⟨-, hid⟩
  · exact h id record hold
  · exact hid

lemma wellKeyed_step (h : s.store.WellKeyed) (label : TokenLabel) :
    (tokenStep s label).store.WellKeyed := by
  cases label with
  | start op => exact h
  | advance i event =>
    cases hi : s.calls[i]? with
    | none => rwa [tokenStep, step_advance_none hi]
    | some call =>
      rw [tokenStep_advance hi]
      exact h.next event call

lemma wellKeyed_run (labels : List TokenLabel) :
    (run tokenStep emptyTokens labels).store.WellKeyed := by
  refine run_invariant (fun s : TokenSystem => s.store.WellKeyed) (fun s label h =>
    wellKeyed_step h label) ?_ labels
  intro id record h
  cases h

def DrawsOther (id : Text) (label : TokenLabel) : Prop :=
  ∀ token, label = .start (.create token) → token.id ≠ id

def Absent (id : Text) : TokenSystem → Prop :=
  Holds (fun hashes => hashes.WellKeyed ∧ hashes.records.lookup id = none)
    fun _ _ call => ¬ call.Writes id

lemma TokenCall.not_writes_start {op : TokenOp} (h : DrawsOther id (.start op)) :
    ¬ (TokenCall.start op).Writes id := by
  rintro ⟨record, hwrite, rfl⟩
  cases op with
  | create token =>
    cases hwrite
    exact h token rfl rfl
  | _ => cases hwrite

lemma Absent.step (h : Absent id s) (hlabel : DrawsOther id label) :
    Absent id (tokenStep s label) := by
  refine step_invariant h (fun i call event _ hi => ⟨⟨h.store.1.next event call, ?_⟩, ?_⟩)
    (fun i call event j other hi hj hne => h.calls j other hj)
    fun op hop => TokenCall.not_writes_start (hop ▸ hlabel)
  · cases hlookup : (call.next event s.store).1.records.lookup id with
    | none => rfl
    | some record =>
      rcases TokenCall.records_next hlookup with hold | ⟨hwrite, hid⟩
      · rw [h.store.2] at hold
        cases hold
      · exact absurd ⟨record, hwrite, hid⟩ (h.calls i call hi)
  · -- a call that has come to write the record has read it
    rintro ⟨record, hwrite, hid⟩
    have hmoves := TokenCall.moves_next event s.store call
    rcases TokenCall.write_eq_hsetRecord hwrite with heq | heq
    · exact TokenCall.Moves.not_create (heq ▸ hmoves)
    · rw [heq] at hmoves
      obtain ⟨tokenHash, id', stored, now, -, hstored, rfl⟩ := hmoves.verifyWrite_inv
      obtain rfl : id = id' := hid.symm.trans (h.store.1 id' stored hstored)
      rw [h.store.2] at hstored
      cases hstored

lemma Absent.run (h : Absent id s) {labels : List TokenLabel}
    (hlabels : ∀ label ∈ labels, DrawsOther id label) : Absent id (run tokenStep s labels) :=
  Along.invariant (along_of_forall hlabels) (Absent id) (fun _ _ h hlabel => h.step hlabel) h

def TokenHashes.listedIds (hashes : TokenHashes) : List Text :=
  hashes.listTokens.map AdminTokenView.id

lemma mem_listedIds {hashes : TokenHashes} (h : hashes.WellKeyed) :
    id ∈ hashes.listedIds ↔ hashes.records.lookup id ≠ none := by
  rw [TokenHashes.listedIds, TokenHashes.listTokens, mem_map]
  constructor
  · rintro ⟨view, hview, rfl⟩
    obtain ⟨record, hrecord, rfl⟩ := mem_map.mp ((mem_mergeSort).mp hview)
    obtain ⟨id, hid⟩ := TokenCall.mem_values hrecord
    rw [show record.view.id = id from h id record hid, hid]
    exact Option.some_ne_none record
  · intro hne
    obtain ⟨record, hrecord⟩ := Option.ne_none_iff_exists'.mp hne
    refine ⟨record.view, mem_mergeSort.mpr (mem_map_of_mem ?_), h id record hrecord⟩
    exact mem_map.mpr ⟨⟨id, record⟩, AList.mem_lookup_iff.mp hrecord, rfl⟩

lemma lookup_step_of_writes {j : ℕ} {call : TokenCall} (hj : s.calls[j]? = some call)
    (h : call.Writes id) :
    (tokenStep s (.advance j (.reply 0))).store.records.lookup id ≠ none := by
  obtain ⟨record, hwrite, rfl⟩ := h
  rw [tokenStep_advance hj]
  show (call.commit s.store).records.lookup record.id ≠ none
  rw [TokenCall.commit, hwrite]
  show (s.store.records.insert record.id record).lookup record.id ≠ none
  rw [AList.lookup_insert]
  exact Option.some_ne_none record

lemma unlisted_iff (labels : List TokenLabel) {i now : ℕ} {existing : Option AdminTokenRecord}
    (hcall : (run tokenStep emptyTokens labels).calls[i]? = some (.revokeRecord id existing)) :
    let s := tokenStep (run tokenStep emptyTokens labels) (.advance i (.reply now))
    (∀ more : List TokenLabel, (∀ label ∈ more, DrawsOther id label) →
        id ∉ (run tokenStep s more).store.listedIds) ↔
      ∀ call ∈ s.calls, ¬ call.Writes id := by
  intro s
  have hkeyed : s.store.WellKeyed := wellKeyed_step (wellKeyed_run labels) _
  constructor
  · intro h call hmem hwrites
    obtain ⟨j, hj⟩ := mem_iff_getElem?.mp hmem
    refine h [.advance j (.reply 0)] (by simp [DrawsOther]) ?_
    exact (mem_listedIds (wellKeyed_step hkeyed _)).mpr (lookup_step_of_writes hj hwrites)
  · intro h more hmore hlisted
    have hgone : s.store.records.lookup id = none := by
      show (tokenStep _ _).store.records.lookup id = none
      rw [tokenStep_advance hcall]
      exact AList.lookup_erase id _
    have habsent : Absent id s :=
      ⟨⟨hkeyed, hgone⟩, fun j call hj => h call (mem_of_getElem? hj)⟩
    have hrun := habsent.run hmore
    exact (mem_listedIds hrun.store.1).mp hlisted hrun.store.2

end Absent

/-! ### The tokens that are not revoked -/

section Unrevoked

variable {s : TokenSystem} {ids : Finset Text} {label : TokenLabel}

def TokenCall.unrevoked (ids : Finset Text) : TokenCall → Finset Text
  | .create record => insert record.id ids
  | .revokeRecord id _ => ids.erase id
  | .revokeNamesRecord record _ _ => ids.erase record.id
  | _ => ids

def unrevokedStep (s : TokenSystem) (ids : Finset Text) : TokenLabel → Finset Text
  | .start _ => ids
  | .advance i event =>
    match s.calls[i]? with
    | some call => if event.made then call.unrevoked ids else ids
    | none => ids

def unrevokedIds (labels : List TokenLabel) : Finset Text :=
  (run (tracked tokenStep unrevokedStep) (emptyTokens, ∅) labels).2

def WritesFound (s : TokenSystem) (label : TokenLabel) : Prop :=
  ∀ (i : ℕ) (event : CommandEvent) (record : AdminTokenRecord), label = .advance i event →
    event.made = true → s.calls[i]? = some (.verifyWrite record) →
    s.store.records.lookup record.id ≠ none

def TokenHashes.Shows (hashes : TokenHashes) (ids : Finset Text) : Prop :=
  ∀ id, hashes.records.lookup id ≠ none ↔ id ∈ ids

lemma TokenHashes.Shows.insert {hashes : TokenHashes} (h : hashes.Shows ids)
    (record : AdminTokenRecord) :
    (RedisWrite.apply hashes (.hsetRecord record)).Shows (insert record.id ids) := by
  intro id
  rw [RedisWrite.apply, Finset.mem_insert, ← h id]
  by_cases hid : id = record.id
  · subst hid
    simp
  · simp [AList.lookup_insert_ne hid, hid]

lemma TokenHashes.Shows.erase {hashes : TokenHashes} (h : hashes.Shows ids) (removed : Text) :
    (RedisWrite.apply hashes (.hdelRecord removed)).Shows (ids.erase removed) := by
  intro id
  rw [RedisWrite.apply, Finset.mem_erase, ← h id]
  by_cases hid : id = removed
  · subst hid
    simp
  · simp [AList.lookup_erase_ne hid, hid]

lemma TokenHashes.Shows.commit_iff {hashes : TokenHashes} (h : hashes.Shows ids)
    (call : TokenCall) :
    (call.commit hashes).Shows (call.unrevoked ids) ↔
      ∀ record, call = .verifyWrite record → hashes.records.lookup record.id ≠ none := by
  cases call with
  | create record => exact iff_of_true (h.insert record) fun _ heq => by cases heq
  | revokeRecord id existing => exact iff_of_true (h.erase id) fun _ heq => by cases heq
  | revokeNamesRecord record rest removed =>
    exact iff_of_true (h.erase record.id) fun _ heq => by cases heq
  | verifyWrite record =>
    have hwritten := h.insert record
    constructor
    · intro hshows _ heq
      cases heq
      rw [h]
      exact (hshows record.id).mp ((hwritten record.id).mpr (Finset.mem_insert_self _ _))
    · intro hfound
      have hmem : record.id ∈ ids := (h record.id).mp (hfound record rfl)
      rwa [Finset.insert_eq_self.mpr hmem] at hwritten
  | _ => exact iff_of_true h fun _ heq => by cases heq

lemma shows_step_iff (h : s.store.Shows ids) (label : TokenLabel) :
    (tokenStep s label).store.Shows (unrevokedStep s ids label) ↔ WritesFound s label := by
  cases label with
  | start op => exact iff_of_true h fun _ _ _ heq => by cases heq
  | advance i event =>
    cases hi : s.calls[i]? with
    | none =>
      rw [tokenStep, step_advance_none hi, unrevokedStep, hi]
      refine iff_of_true h fun _ _ _ heq _ hcall => ?_
      cases heq
      rw [hi] at hcall
      cases hcall
    | some call =>
      rw [tokenStep_advance hi, unrevokedStep, hi]
      show (call.next event s.store).1.Shows
        (if event.made then call.unrevoked ids else ids) ↔ _
      rw [TokenCall.next_fst]
      by_cases hmade : event.made = true
      · rw [if_pos hmade, if_pos hmade, h.commit_iff]
        constructor
        · intro hfound _ _ record heq _ hcall
          cases heq
          rw [hi, Option.some_inj] at hcall
          exact hfound record hcall
        · rintro hfound record rfl
          exact hfound i event record rfl hmade hi
      · rw [if_neg hmade, if_neg hmade]
        refine iff_of_true h fun _ _ _ heq hmade' => ?_
        cases heq
        exact absurd hmade' hmade

lemma listed_eq_unrevoked_iff (labels : List TokenLabel) :
    (∀ n id, id ∈ (run tokenStep emptyTokens (labels.take n)).store.listedIds ↔
        id ∈ unrevokedIds (labels.take n)) ↔
      Along tokenStep WritesFound emptyTokens labels := by
  have hempty : emptyTokens.store.Shows ∅ := fun id =>
    iff_of_false (fun hne => hne rfl) (Finset.notMem_empty id)
  rw [← forall_take_tracked_iff (fun t => t.1.store.Shows t.2) hempty
    fun t label h => shows_step_iff h label]
  refine forall_congr' fun n => forall_congr' fun id => ?_
  rw [mem_listedIds (wellKeyed_run _), fst_run_tracked]
  rfl

/-- **Revoked ids in the list.**  The list shows exactly the unrevoked tokens all along a run,
exactly if no step writes a record back that is gone.  When a revocation has removed a record,
its id is never listed again, whatever calls come after, exactly if no call is about to write
the record at that moment. -/
theorem never_listed_iff (labels : List TokenLabel) :
    ((∀ n id, id ∈ (run tokenStep emptyTokens (labels.take n)).store.listedIds ↔
        id ∈ unrevokedIds (labels.take n)) ↔
      Along tokenStep WritesFound emptyTokens labels) ∧
    ∀ (i now : ℕ) (id : Text) (existing : Option AdminTokenRecord),
      (run tokenStep emptyTokens labels).calls[i]? = some (.revokeRecord id existing) →
      let s := tokenStep (run tokenStep emptyTokens labels) (.advance i (.reply now))
      (∀ more : List TokenLabel, (∀ label ∈ more, DrawsOther id label) →
          id ∉ (run tokenStep s more).store.listedIds) ↔
        ∀ call ∈ s.calls, ¬ call.Writes id :=
  ⟨listed_eq_unrevoked_iff labels, fun _ _ _ _ hcall => unlisted_iff labels hcall⟩

end Unrevoked

/-! ### A run in which a record comes back -/

def commands (positions : List ℕ) : List TokenLabel :=
  positions.map fun i => .advance i (.reply 5)

def sampleToken : NewToken where
  id := "t1"
  tokenHash := "h1"
  name := "ci"
  scopes := ["admin"]
  now := 1

def revokedWhileVerified : List TokenLabel :=
  .start (.create sampleToken) :: commands [0, 0] ++
    .start (.verify "h1") :: commands [1, 1] ++
    .start (.revoke "t1") :: commands [2, 2]

theorem never_listed_of_alone :
    let labels := .start (.create sampleToken) :: commands [0, 0] ++
      .start (.revoke "t1".toList) :: commands [1, 1]
    (run tokenStep emptyTokens labels).calls[1]? =
        some (.revokeRecord "t1".toList (some sampleToken.record)) ∧
      ∀ more : List TokenLabel, (∀ label ∈ more, DrawsOther "t1".toList label) →
        "t1".toList ∉ (run tokenStep (tokenStep (run tokenStep emptyTokens labels)
          (.advance 1 (.reply 7))) more).store.listedIds := by
  intro labels
  have hcall : (run tokenStep emptyTokens labels).calls[1]? =
      some (.revokeRecord "t1".toList (some sampleToken.record)) := by decide
  have hcalls : (tokenStep (run tokenStep emptyTokens labels) (.advance 1 (.reply 7))).calls =
      [.done (.created sampleToken.record), .done (.revoked true)] := by decide
  refine ⟨hcall, ((never_listed_iff labels).2 1 7 _ _ hcall).mpr ?_⟩
  rw [hcalls]
  simp [TokenCall.Writes, TokenCall.write]

theorem revoked_id_listed :
    let s := run tokenStep emptyTokens (revokedWhileVerified ++ commands [2])
    s.calls[2]? = some (.done (.revoked true)) ∧ "t1".toList ∉ s.store.listedIds ∧
      "t1".toList ∈ (run tokenStep s (commands [1])).store.listedIds ∧
      unrevokedIds (revokedWhileVerified ++ commands [2, 1]) = ∅ := by
  have hkeyed := wellKeyed_run (revokedWhileVerified ++ commands [2])
  have hkeyed' := wellKeyed_run (revokedWhileVerified ++ commands [2] ++ commands [1])
  rw [run_append] at hkeyed'
  refine ⟨by decide, ?_, ?_, by decide⟩
  · rw [mem_listedIds hkeyed]
    decide
  · rw [mem_listedIds hkeyed']
    decide

end PxxlEdge
