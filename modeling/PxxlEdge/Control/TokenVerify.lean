import PxxlEdge.Control.TokenRaces

/-!
Verifications of admin tokens after their revocation.

A verification needs the index entry and the record of the token.  A revocation
removes the one, then the other; the record may be written back by a verification
that has read it before, the index entry by the creation of the token if that has
not ended.
-/

namespace PxxlEdge

open RustStd Calls Run List

/-! ### Where records come from -/

variable {record : AdminTokenRecord}

section Traced

variable {s : TokenSystem} {id : Text} {label : TokenLabel}

variable {call : TokenCall}

lemma tokenStep_calls {j : ℕ} (h : (tokenStep s label).calls[j]? = some call) :
    s.calls[j]? = some call ∨
      (∃ op, label = .start op ∧ j = s.calls.length ∧ call = TokenCall.start op) ∨
      ∃ event before, label = .advance j event ∧ s.calls[j]? = some before ∧
        before.Moves s.store call := by
  cases label with
  | start op =>
    rcases getElem?_step_start h with hold | ⟨hj, hnew⟩
    · exact .inl hold
    · exact .inr (.inl ⟨op, rfl, hj, hnew⟩)
  | advance i event =>
    cases hi : s.calls[i]? with
    | none =>
      rw [tokenStep, step_advance_none hi] at h
      exact .inl h
    | some before =>
      rw [tokenStep_advance hi] at h
      rcases getElem?_set_cases h with ⟨rfl, rfl⟩ | ⟨-, hold⟩
      · exact .inr (.inr ⟨event, before, rfl, hi, TokenCall.moves_next event s.store before⟩)
      · exact .inl hold

lemma tokenStep_store (s : TokenSystem) (label : TokenLabel) :
    (tokenStep s label).store = s.store ∨
      ∃ i event call, label = .advance i event ∧ s.calls[i]? = some call ∧
        (tokenStep s label).store = (call.next event s.store).1 := by
  cases label with
  | start op => exact .inl rfl
  | advance i event =>
    cases hi : s.calls[i]? with
    | none => exact .inl (by rw [tokenStep, step_advance_none hi])
    | some call => exact .inr ⟨i, event, call, rfl, hi, by rw [tokenStep_advance hi]⟩

def Issued (s : TokenSystem) (record : AdminTokenRecord) : Prop :=
  ∃ (i : ℕ) (call : TokenCall), s.calls[i]? = some call ∧ call.creates = some record

def DrawsFresh (s : TokenSystem) (label : TokenLabel) : Prop :=
  ∀ token, label = .start (.create token) → ∀ record, Issued s record → record.id ≠ token.id

def Filed (s : TokenSystem) (record : AdminTokenRecord) : Prop :=
  ∃ (i : ℕ) (call : TokenCall), s.calls[i]? = some call ∧ call.creates = some record ∧
    call ≠ .create record

lemma Filed.issued (h : Filed s record) : Issued s record := by
  obtain ⟨i, call, hi, hcreates, -⟩ := h
  exact ⟨i, call, hi, hcreates⟩

variable {i : ℕ}

lemma filed_advance (hi : s.calls[i]? = some call) (hcreates : call.creates = some record)
    (event : CommandEvent) : Filed (tokenStep s (.advance i event)) record := by
  have hlt : i < s.calls.length := (List.getElem?_eq_some_iff.mp hi).1
  have hmoves := TokenCall.moves_next event s.store call
  rw [tokenStep_advance hi]
  refine ⟨i, _, getElem?_set_self hlt, hmoves.creates_eq.trans hcreates, fun heq => ?_⟩
  exact TokenCall.Moves.not_create (heq ▸ hmoves)

lemma Filed.step (h : Filed s record) (label : TokenLabel) :
    Filed (tokenStep s label) record := by
  obtain ⟨j, call, hj, hcreates, hne⟩ := h
  cases label with
  | start op =>
    have hlt : j < s.calls.length := (List.getElem?_eq_some_iff.mp hj).1
    exact ⟨j, call, (getElem?_append_left hlt).trans hj, hcreates, hne⟩
  | advance i event =>
    by_cases hij : i = j
    · subst hij
      exact filed_advance hj hcreates event
    · cases hi : s.calls[i]? with
      | none =>
        rw [tokenStep, step_advance_none hi]
        exact ⟨j, call, hj, hcreates, hne⟩
      | some before =>
        rw [tokenStep_advance hi]
        exact ⟨j, call, (getElem?_set_ne hij).trans hj, hcreates, hne⟩

structure Traced (s : TokenSystem) : Prop where
  distinct : ∀ (i j : ℕ) (call call' : TokenCall) (record record' : AdminTokenRecord),
    s.calls[i]? = some call → s.calls[j]? = some call' → call.creates = some record →
    call'.creates = some record' → record.id = record'.id → i = j
  fresh : ∀ record, Issued s record → record.unused = record ∧ record.enabled = true
  keyed : s.store.WellKeyed
  records : ∀ id record, s.store.records.lookup id = some record → Filed s record.unused
  index : ∀ tokenHash id, s.store.hashIndex.lookup tokenHash = some id →
    ∃ record, Filed s record ∧ record.id = id ∧ record.tokenHash = tokenHash
  held : ∀ (i : ℕ) (call : TokenCall), s.calls[i]? = some call →
    ∀ record ∈ call.holds, Filed s record.unused
  revoked : ∀ (i : ℕ) id record, (s.calls[i]? = some (.revokeIndex id record) ∨
    s.calls[i]? = some (.revokeRecord id (some record))) → record.id = id

lemma Traced.eq_of_id (h : Traced s) {i j : ℕ} {call call' : TokenCall}
    {record record' : AdminTokenRecord} (hi : s.calls[i]? = some call)
    (hj : s.calls[j]? = some call') (hcreates : call.creates = some record)
    (hcreates' : call'.creates = some record') (hid : record.id = record'.id) :
    call = call' ∧ record = record' := by
  obtain rfl := h.distinct i j call call' record record' hi hj hcreates hcreates' hid
  rw [hi, Option.some_inj] at hj
  rw [← hj, hcreates, Option.some_inj] at hcreates'
  exact ⟨hj, hcreates'⟩

lemma Traced.id_ne_of_create (h : Traced s) {j : ℕ} {created record : AdminTokenRecord}
    (hj : s.calls[j]? = some (.create created)) (hfiled : Filed s record) :
    created.id ≠ record.id := by
  intro hid
  obtain ⟨i, call, hi, hcreates, hne⟩ := hfiled
  obtain ⟨rfl, rfl⟩ := h.eq_of_id hj hi rfl hcreates hid
  exact hne rfl

lemma TokenCall.creates_start {op : TokenOp} (h : (TokenCall.start op).creates = some record) :
    ∃ token, op = .create token ∧ record = token.record := by
  cases op with
  | create token => exact ⟨token, rfl, (Option.some_inj.mp h).symm⟩
  | _ => cases h

lemma creates_of_step
    (hi : (tokenStep s label).calls[i]? = some call) (hcreates : call.creates = some record) :
    (∃ before, s.calls[i]? = some before ∧ before.creates = some record) ∨
      ∃ token, label = .start (.create token) ∧ i = s.calls.length ∧ record = token.record := by
  rcases tokenStep_calls hi with
    hold | ⟨op, rfl, hlength, rfl⟩ | ⟨event, before, -, hbefore, hmoves⟩
  · exact .inl ⟨call, hold, hcreates⟩
  · obtain ⟨token, rfl, rfl⟩ := TokenCall.creates_start hcreates
    exact .inr ⟨token, rfl, hlength, rfl⟩
  · exact .inl ⟨before, hbefore, hmoves.creates_eq ▸ hcreates⟩

lemma Traced.step_distinct (h : Traced s) (hfresh : DrawsFresh s label) :
    ∀ (i j : ℕ) (call call' : TokenCall) (record record' : AdminTokenRecord),
      (tokenStep s label).calls[i]? = some call → (tokenStep s label).calls[j]? = some call' →
      call.creates = some record → call'.creates = some record' → record.id = record'.id →
      i = j := by
  intro i j call call' record record' hi hj hcreates hcreates' hid
  rcases creates_of_step hi hcreates with ⟨before, hb, hc⟩ | ⟨token, rfl, hlength, rfl⟩
  · rcases creates_of_step hj hcreates' with ⟨before', hb', hc'⟩ | ⟨token', rfl, -, rfl⟩
    · exact h.distinct i j before before' record record' hb hb' hc hc' hid
    · exact absurd hid (hfresh token' rfl record ⟨i, before, hb, hc⟩)
  · rcases creates_of_step hj hcreates' with ⟨before', hb', hc'⟩ | ⟨token', -, hlength', -⟩
    · exact absurd hid.symm (hfresh token rfl record' ⟨j, before', hb', hc'⟩)
    · rw [hlength, hlength']

lemma Traced.step_fresh (h : Traced s) (hissued : Issued (tokenStep s label) record) :
    record.unused = record ∧ record.enabled = true := by
  obtain ⟨i, call, hi, hcreates⟩ := hissued
  rcases creates_of_step hi hcreates with ⟨before, hbefore, hcreates⟩ | ⟨token, -, -, rfl⟩
  · exact h.fresh record ⟨i, before, hbefore, hcreates⟩
  · exact ⟨rfl, rfl⟩

lemma Traced.filed_create (h : Traced s)
    (hi : s.calls[i]? = some (.create record)) (event : CommandEvent) :
    Filed (tokenStep s (.advance i event)) record.unused := by
  rw [(h.fresh record ⟨i, _, hi, rfl⟩).1]
  exact filed_advance hi rfl event

lemma Traced.step_records (h : Traced s)
    (hrecord : (tokenStep s label).store.records.lookup id = some record) :
    Filed (tokenStep s label) record.unused := by
  rcases tokenStep_store s label with heq | ⟨i, event, call, rfl, hi, heq⟩
  · rw [heq] at hrecord
    exact (h.records id record hrecord).step label
  · rw [heq] at hrecord
    rcases TokenCall.records_next hrecord with hold | ⟨hwrite, -⟩
    · exact (h.records id record hold).step _
    · rcases TokenCall.write_eq_hsetRecord hwrite with rfl | rfl
      · exact h.filed_create hi event
      · exact (h.held i _ hi record (mem_singleton_self _)).step _

lemma Traced.step_index (h : Traced s) {tokenHash : Text}
    (hindex : (tokenStep s label).store.hashIndex.lookup tokenHash = some id) :
    ∃ record, Filed s record ∧ record.id = id ∧ record.tokenHash = tokenHash := by
  rcases tokenStep_store s label with heq | ⟨i, event, call, -, hi, heq⟩
  · rw [heq] at hindex
    exact h.index tokenHash id hindex
  · rw [heq] at hindex
    rcases TokenCall.hashIndex_next hindex with hold | hwrite
    · exact h.index tokenHash id hold
    · obtain ⟨record, rfl, hhash, hid⟩ := TokenCall.write_eq_hsetIndex hwrite
      exact ⟨record.unused, h.held i _ hi record (mem_singleton_self _), hid, hhash⟩

lemma Traced.step_held (h : Traced s) (hi : (tokenStep s label).calls[i]? = some call)
    (hmem : record ∈ call.holds) : Filed (tokenStep s label) record.unused := by
  rcases tokenStep_calls hi with hold | ⟨op, -, -, rfl⟩ | ⟨event, before, rfl, hbefore, hmoves⟩
  · exact (h.held i call hold record hmem).step label
  · cases op <;> cases hmem
  · rcases hmoves.mem_holds hmem with hold | rfl | ⟨id, stored, hstored, heq⟩
    · exact (h.held i before hbefore record hold).step _
    · exact h.filed_create hbefore event
    · rw [heq]
      exact (h.records id stored hstored).step _

lemma Traced.step_revoked (h : Traced s) {id : Text}
    (hcall : (tokenStep s label).calls[i]? = some (.revokeIndex id record) ∨
      (tokenStep s label).calls[i]? = some (.revokeRecord id (some record))) : record.id = id := by
  rcases hcall with hcall | hcall
  · rcases tokenStep_calls hcall with hold | ⟨op, -, -, hop⟩ | ⟨event, before, -, hbefore, hmoves⟩
    · exact h.revoked i id record (.inl hold)
    · cases op <;> cases hop
    · cases hmoves with
      | existing hstored => exact h.keyed id record hstored
  · rcases tokenStep_calls hcall with hold | ⟨op, -, -, hop⟩ | ⟨event, before, -, hbefore, hmoves⟩
    · exact h.revoked i id record (.inr hold)
    · cases op <;> cases hop
    · cases hmoves with
      | unindexed => exact h.revoked i id record (.inl hbefore)

lemma Traced.step (h : Traced s) (hfresh : DrawsFresh s label) : Traced (tokenStep s label) where
  distinct := h.step_distinct hfresh
  fresh record hissued := h.step_fresh hissued
  keyed := wellKeyed_step h.keyed label
  records id record hrecord := h.step_records hrecord
  index tokenHash id hindex := by
    obtain ⟨record, hfiled, hid, hhash⟩ := h.step_index hindex
    exact ⟨record, hfiled.step label, hid, hhash⟩
  held i call hi record hmem := h.step_held hi hmem
  revoked i id record hcall := h.step_revoked hcall

lemma traced_empty : Traced emptyTokens where
  distinct i j call call' record record' hi := by cases hi
  fresh record hissued := by
    obtain ⟨i, call, hi, -⟩ := hissued
    cases hi
  keyed id record h := by cases h
  records id record h := by cases h
  index tokenHash id h := by cases h
  held i call hi := by cases hi
  revoked i id record h := by rcases h with h | h <;> cases h

lemma traced_run {labels : List TokenLabel} (h : Along tokenStep DrawsFresh emptyTokens labels) :
    Traced (run tokenStep emptyTokens labels) :=
  h.invariant Traced (fun _ _ htraced hfresh => htraced.step hfresh) traced_empty

end Traced

/-! ### Tokens that are verified after their revocation -/

section Verified

variable {s : TokenSystem} {id : Text} {label : TokenLabel}

def WritesBack (s : TokenSystem) (id : Text) : Prop :=
  ∃ (i : ℕ) (record : AdminTokenRecord), s.calls[i]? = some (.verifyWrite record) ∧ record.id = id

def Leads (s : TokenSystem) (id : Text) : Prop :=
  (∃ tokenHash, s.store.hashIndex.lookup tokenHash = some id) ∨
    ∃ (i : ℕ) (record : AdminTokenRecord),
      s.calls[i]? = some (.createIndex record) ∧ record.id = id

def Unverified (n : ℕ) (id : Text) (s : TokenSystem) : Prop :=
  ∀ (j : ℕ) (view : AdminTokenView), n ≤ j →
    s.calls[j]? = some (.done (.verified (some view))) → view.id ≠ id

lemma DrawsFresh.drawsOther (h : DrawsFresh s label)
    (hfiled : Filed s record) : DrawsOther record.id label :=
  fun token hlabel hid => h token hlabel record hfiled.issued hid.symm

variable {n : ℕ}

lemma Absent.unverified_step (h : Absent id s) (hn : Unverified n id s) :
    Unverified n id (tokenStep s label) := by
  intro j view hj hcall
  rcases tokenStep_calls hcall with hold | ⟨op, -, -, hop⟩ | ⟨event, before, -, hbefore, hmoves⟩
  · exact hn j view hj hold
  · cases op <;> cases hop
  · cases hmoves with
    | verified record =>
      intro hid
      exact h.calls j _ hbefore ⟨record, rfl, hid⟩
    | stays => exact hn j view hj hbefore

lemma Absent.unverified_run (h : Absent id s)
    (hfiled : Filed s record) (hid : record.id = id) (hn : Unverified n id s)
    {more : List TokenLabel} (hmore : Along tokenStep DrawsFresh s more) :
    Unverified n id (Run.run tokenStep s more) := by
  subst hid
  refine (hmore.invariant (fun s => Absent record.id s ∧ Filed s record ∧
    Unverified n record.id s) (fun s label hinv hfresh => ?_) ⟨h, hfiled, hn⟩).2.2
  obtain ⟨habsent, hfiled, hn⟩ := hinv
  exact ⟨habsent.step (hfresh.drawsOther hfiled), hfiled.step label,
    habsent.unverified_step hn⟩

def TokenCall.Touches (id : Text) (call : TokenCall) : Prop :=
  (∃ tokenHash, call = .verifyRecord tokenHash id) ∨
    (∃ record, call = .verifyWrite record ∧ record.id = id) ∨
    ∃ view, call = .done (.verified (some view)) ∧ view.id = id

def Unindexed (n : ℕ) (id : Text) : TokenSystem → Prop :=
  Holds (fun hashes => hashes.WellKeyed ∧ ∀ tokenHash, hashes.hashIndex.lookup tokenHash ≠ some id)
    fun _ i call =>
      (∀ record, call = .create record ∨ call = .createIndex record → record.id ≠ id) ∧
        (n ≤ i → ¬ call.Touches id)

lemma Unindexed.step (h : Unindexed n id s) (hlabel : DrawsOther id label) :
    Unindexed n id (tokenStep s label) := by
  refine step_invariant h (fun i call event _ hi => ⟨⟨h.store.1.next event call, ?_⟩, ?_, ?_⟩)
    (fun i call event j other hi hj hne => h.calls j other hj) fun op hop => ⟨?_, ?_⟩
  · intro tokenHash hindex
    rcases TokenCall.hashIndex_next hindex with hold | hwrite
    · exact h.store.2 tokenHash hold
    · obtain ⟨record, rfl, -, hid⟩ := TokenCall.write_eq_hsetIndex hwrite
      exact (h.calls i _ hi).1 record (.inr rfl) hid
  · intro record hcall
    have hmoves := TokenCall.moves_next event s.store call
    rcases hcall with hcall | hcall
    · exact absurd (hcall ▸ hmoves) TokenCall.Moves.not_create
    · rw [hcall] at hmoves
      cases hmoves with
      | created => exact (h.calls i _ hi).1 record (.inl rfl)
  · -- what a call knows of the id it has from the index, or from the record under the id
    intro hn htouches
    have hmoves := TokenCall.moves_next event s.store call
    have hbefore := (h.calls i call hi).2 hn
    rcases htouches with ⟨tokenHash, heq⟩ | ⟨record, heq, hid⟩ | ⟨view, heq, hid⟩
    · rw [heq] at hmoves
      cases hmoves with
      | found hindex => exact h.store.2 tokenHash hindex
    · rw [heq] at hmoves
      obtain ⟨tokenHash, id', stored, now, rfl, hstored, rfl⟩ := hmoves.verifyWrite_inv
      obtain rfl : id = id' := hid.symm.trans (h.store.1 id' stored hstored)
      exact hbefore (.inl ⟨tokenHash, rfl⟩)
    · rw [heq] at hmoves
      cases hmoves with
      | verified record => exact hbefore (.inr (.inl ⟨record, rfl, hid⟩))
      | stays => exact hbefore (.inr (.inr ⟨view, rfl, hid⟩))
  · intro record hcall
    subst hop
    rcases hcall with hcall | hcall
    · cases op with
      | create token =>
        cases hcall
        exact hlabel token rfl
      | _ => cases hcall
    · cases op <;> cases hcall
  · rintro - (⟨tokenHash, heq⟩ | ⟨record, heq, -⟩ | ⟨view, heq, -⟩)
    · cases op <;> cases heq
    · cases op <;> cases heq
    · cases op <;> cases heq

lemma Unindexed.unverified_run (h : Unindexed n id s)
    (hfiled : Filed s record) (hid : record.id = id) {more : List TokenLabel}
    (hmore : Along tokenStep DrawsFresh s more) : Unverified n id (run tokenStep s more) := by
  subst hid
  have hrun := (hmore.invariant (fun s => Unindexed n record.id s ∧ Filed s record)
    (fun s label hinv hfresh => ⟨hinv.1.step (hfresh.drawsOther hinv.2), hinv.2.step label⟩)
    ⟨h, hfiled⟩).1
  intro j view hj hcall hid
  exact (hrun.calls j _ hcall).2 hj (.inr (.inr ⟨view, rfl, hid⟩))

lemma verified_alone {tokenHash : Text} (hindex : s.store.hashIndex.lookup tokenHash = some id)
    (hrecord : s.store.records.lookup id = some record) (henabled : record.enabled = true)
    (hhash : record.tokenHash = tokenHash) :
    (run tokenStep s (.start (.verify tokenHash) ::
        aloneLabels (fun _ => .reply 0) s.calls.length 3)).calls[s.calls.length]? =
      some (.done (.verified (some (record.used 0).view))) := by
  have hfound : TokenCall.reply 0 s.store (.verify tokenHash) = .verifyRecord tokenHash id := by
    rw [TokenCall.reply, hindex]
  have hread : TokenCall.reply 0 s.store (.verifyRecord tokenHash id) =
      .verifyWrite (record.used 0) := by
    rw [TokenCall.reply, hrecord]
    exact if_pos ⟨henabled, hhash⟩
  have hverified : (s.store.perform (fun _ => .reply 0) (.verify tokenHash)).2 =
      .done (.verified (some (record.used 0).view)) := by
    -- the first two commands read, and leave the hashes as they are
    show (TokenCall.finish (fun _ => .reply 0) 2 s.store
      (TokenCall.reply 0 s.store (.verify tokenHash))).2 = _
    rw [hfound]
    show (TokenCall.finish (fun _ => .reply 0) 1 s.store
      (TokenCall.reply 0 s.store (.verifyRecord tokenHash id))).2 = _
    rw [hread]
    rfl
  have hrun := run_perform (fun _ => .reply 0) (.verify tokenHash) s
  rw [show (TokenCall.start (.verify tokenHash)).remaining s.store = 3 from rfl] at hrun
  rw [hrun, hverified]
  exact getElem?_concat_length

lemma along_drawsFresh {labels : List TokenLabel}
    (h : ∀ label ∈ labels, ∀ token, label ≠ .start (.create token)) :
    Along tokenStep DrawsFresh s labels := by
  induction labels generalizing s with
  | nil => trivial
  | cons label labels ih =>
    obtain ⟨hlabel, hlabels⟩ := forall_mem_cons.mp h
    exact ⟨fun token heq => absurd heq (hlabel token), ih hlabels⟩

lemma Traced.exists_verified (h : Traced s) (hwrites : WritesBack s id) {tokenHash : Text}
    (hindex : s.store.hashIndex.lookup tokenHash = some id) :
    ∃ more, Along tokenStep DrawsFresh s more ∧
      ¬ Unverified s.calls.length id (run tokenStep s more) := by
  obtain ⟨j, record, hj, hid⟩ := hwrites
  have hissued := (h.held j _ hj record (mem_singleton_self record)).issued
  obtain ⟨indexed, hindexed, hid', hhash⟩ := h.index tokenHash id hindex
  have hsame : record.unused = indexed := by
    obtain ⟨i, call, hi, hcreates⟩ := hissued
    obtain ⟨i', call', hi', hcreates'⟩ := hindexed.issued
    exact (h.eq_of_id hi hi' hcreates hcreates' (hid.trans hid'.symm)).2
  -- the record is back
  have hback : tokenStep s (.advance j (.reply 0)) = ⟨_, s.calls.set j _⟩ := tokenStep_advance hj
  have hrecord : (tokenStep s (.advance j (.reply 0))).store.records.lookup id = some record := by
    rw [hback, ← hid]
    exact AList.lookup_insert s.store.records
  have hindex' : (tokenStep s (.advance j (.reply 0))).store.hashIndex.lookup tokenHash =
      some id := by
    rw [hback]
    exact hindex
  have hlength : (tokenStep s (.advance j (.reply 0))).calls.length = s.calls.length := by
    rw [hback, length_set]
  have hverified := verified_alone hindex' hrecord (h.fresh record.unused hissued).2
    (by rw [← hhash, ← hsame]; rfl)
  rw [hlength, ← run_cons (s := s)] at hverified
  refine ⟨_, along_drawsFresh ?_, fun hun => hun _ _ le_rfl hverified hid⟩
  simp [aloneLabels]

lemma Traced.exists_verified_of_leads (h : Traced s) (hwrites : WritesBack s id)
    (hleads : Leads s id) :
    ∃ more, Along tokenStep DrawsFresh s more ∧
      ¬ Unverified s.calls.length id (run tokenStep s more) := by
  rcases hleads with ⟨tokenHash, hindex⟩ | ⟨k, created, hk, rfl⟩
  · exact h.exists_verified hwrites hindex
  · -- the creation writes its index entry first
    have hindexed : tokenStep s (.advance k (.reply 0)) = ⟨_, s.calls.set k _⟩ :=
      tokenStep_advance hk
    have hfresh : DrawsFresh s (.advance k (.reply 0)) := fun token heq => by cases heq
    have hlength : (tokenStep s (.advance k (.reply 0))).calls.length = s.calls.length := by
      rw [hindexed, length_set]
    have hwrites' : WritesBack (tokenStep s (.advance k (.reply 0))) created.id := by
      obtain ⟨j, record, hj, hid⟩ := hwrites
      have hne : k ≠ j := by
        rintro rfl
        rw [hk] at hj
        cases hj
      refine ⟨j, record, ?_, hid⟩
      rw [hindexed, getElem?_set_ne hne, hj]
    have hindex : (tokenStep s (.advance k (.reply 0))).store.hashIndex.lookup
        created.tokenHash = some created.id := by
      rw [hindexed]
      exact AList.lookup_insert s.store.hashIndex
    obtain ⟨more, hmore, hbad⟩ := (h.step hfresh).exists_verified hwrites' hindex
    rw [hlength] at hbad
    exact ⟨_ :: more, ⟨hfresh, hmore⟩, hbad⟩

/-- **Revoked tokens and verifications.**  When a revocation has removed a record, no
verification that starts afterwards succeeds for its id, exactly if no verification is
about to write the record back at that moment, or the index does not lead to it and no
creation is about to make it do so. -/
theorem never_verified_iff {labels : List TokenLabel}
    (hlabels : Along tokenStep DrawsFresh emptyTokens labels) {i now : ℕ}
    {record : AdminTokenRecord}
    (hcall : (run tokenStep emptyTokens labels).calls[i]? =
      some (.revokeRecord id (some record))) :
    let s := tokenStep (run tokenStep emptyTokens labels) (.advance i (.reply now))
    (∀ more, Along tokenStep DrawsFresh s more →
        Unverified s.calls.length id (run tokenStep s more)) ↔
      ¬ (WritesBack s id ∧ Leads s id) := by
  intro s
  have hbefore := traced_run hlabels
  have hfresh : DrawsFresh (run tokenStep emptyTokens labels) (.advance i (.reply now)) :=
    fun token heq => by cases heq
  have htraced : Traced s := hbefore.step hfresh
  have hid : record.id = id := hbefore.revoked i id record (.inr hcall)
  have hheld : record ∈ (TokenCall.revokeRecord id (some record)).holds :=
    mem_singleton_self record
  have hfiled : Filed s record.unused := (hbefore.held i _ hcall record hheld).step _
  have hstep : s = _ := tokenStep_advance hcall
  have huncreated : ∀ (j : ℕ) (created : AdminTokenRecord),
      s.calls[j]? = some (.create created) → created.id ≠ id := by
    intro j created hj hcreated
    exact htraced.id_ne_of_create hj hfiled (hcreated.trans hid.symm)
  have hnow : ∀ (j : ℕ) (call : TokenCall), s.calls.length ≤ j → s.calls[j]? ≠ some call := by
    intro j call hj
    rw [getElem?_eq_none hj]
    exact fun h => by cases h
  constructor
  · rintro hall ⟨hwrites, hleads⟩
    obtain ⟨more, hmore, hbad⟩ := htraced.exists_verified_of_leads hwrites hleads
    exact hbad (hall more hmore)
  · intro hnot more hmore
    by_cases hwrites : WritesBack s id
    · -- the index does not lead to the id, and never will
      have hleads : ¬ Leads s id := fun hleads => hnot ⟨hwrites, hleads⟩
      have hunindexed : Unindexed s.calls.length id s := by
        refine ⟨⟨htraced.keyed, fun tokenHash hindex => hleads (.inl ⟨tokenHash, hindex⟩)⟩,
          fun j call hj => ⟨fun created hcreated hcid => ?_,
            fun hle => absurd hj (hnow j call hle)⟩⟩
        rcases hcreated with rfl | rfl
        · exact huncreated j created hj hcid
        · exact hleads (.inr ⟨j, created, hj, hcid⟩)
      exact hunindexed.unverified_run hfiled hid hmore
    · have habsent : Absent id s := by
        refine ⟨⟨htraced.keyed, ?_⟩, fun j call hj hcallWrites => ?_⟩
        · rw [hstep]
          exact AList.lookup_erase id _
        · obtain ⟨written, hwrite, hwid⟩ := hcallWrites
          rcases TokenCall.write_eq_hsetRecord hwrite with rfl | rfl
          · exact huncreated j written hj hwid
          · exact hwrites ⟨j, written, hj, hwid⟩
      have hunverified : Unverified s.calls.length id s :=
        fun j view hj hcall => absurd hcall (hnow j _ hj)
      exact habsent.unverified_run hfiled hid hunverified hmore

lemma along_create_first (token : NewToken) {labels : List TokenLabel}
    (h : ∀ label ∈ labels, ∀ token, label ≠ .start (.create token)) :
    Along tokenStep DrawsFresh emptyTokens (.start (.create token) :: labels) := by
  refine ⟨?_, along_drawsFresh h⟩
  rintro - - record ⟨i, call, hi, -⟩
  cases hi

end Verified

/-! ### Runs in which the record comes back -/

/-- Without its index entry the record alone does not make the token valid. -/
theorem never_verified_of_unindexed :
    let before := run tokenStep emptyTokens revokedWhileVerified
    let s := tokenStep before (.advance 2 (.reply 7))
    before.calls[2]? = some (.revokeRecord "t1".toList (some sampleToken.record)) ∧
      WritesBack s "t1".toList ∧
      ∀ more, Along tokenStep DrawsFresh s more →
        Unverified s.calls.length "t1".toList (run tokenStep s more) := by
  intro before s
  have hlabels : Along tokenStep DrawsFresh emptyTokens revokedWhileVerified :=
    along_create_first sampleToken (by simp [commands])
  have hcall : before.calls[2]? =
      some (.revokeRecord "t1".toList (some sampleToken.record)) := by decide
  have hcalls : s.calls = [.done (.created sampleToken.record),
      .verifyWrite (sampleToken.record.used 5), .done (.revoked true)] := by decide
  have hindex : s.store.hashIndex = ∅ := AList.ext (by decide)
  refine ⟨hcall, ⟨1, sampleToken.record.used 5, by rw [hcalls]; rfl, rfl⟩,
    (never_verified_iff hlabels hcall).mpr ?_⟩
  rintro ⟨-, ⟨tokenHash, hlookup⟩ | ⟨i, created, hi, -⟩⟩
  · rw [hindex] at hlookup
    cases hlookup
  · have hmem := mem_of_getElem? hi
    rw [hcalls] at hmem
    simp at hmem

def revokedWhileCreated : List TokenLabel :=
  .start (.create sampleToken) :: commands [0] ++ .start (.revoke "t1") ::
    commands [1, 1, 0] ++ .start (.verify "h1") :: commands [2, 2]

theorem revoked_token_verified :
    let s := run tokenStep emptyTokens (revokedWhileCreated ++ commands [1])
    s.calls.length = 3 ∧ s.calls[1]? = some (.done (.revoked true)) ∧
      (run tokenStep s
          (commands [2] ++ .start (.verify "h1".toList) :: commands [3, 3, 3])).calls[3]? =
        some (.done (.verified (some (sampleToken.record.used 5).view))) := by
  decide

end PxxlEdge
