import PxxlEdge.Control.AdminApi
import PxxlEdge.Control.TokenRaces

/-!
The bootstrap token after the first admin token.

The bootstrap token is let in while the token store is empty.  That a token was
created is not remembered: the store is empty again when the last token is
revoked, also for a moment in each login that replaces the only one.
-/

namespace PxxlEdge

open RustStd Calls Run

def KeepsToken (s : TokenSystem) (label : TokenLabel) : Prop :=
  s.store.listTokens ≠ [] → (tokenStep s label).store.listTokens ≠ []

instance (s : TokenSystem) (label : TokenLabel) : Decidable (KeepsToken s label) :=
  inferInstanceAs (Decidable (_ → _))

def createdStep (s : TokenSystem) (created : Bool) : TokenLabel → Bool
  | .start _ => created
  | .advance i event =>
    match s.calls[i]? with
    | some (.create _) => created || event.made
    | _ => created

def tokenCreated (labels : List TokenLabel) : Bool :=
  (run (tracked tokenStep createdStep) (emptyTokens, false) labels).2

section Created

variable {s : TokenSystem} {label : TokenLabel}

lemma listTokens_eq_nil_iff {hashes : TokenHashes} :
    hashes.listTokens = [] ↔ ∀ id, hashes.records.lookup id = none := by
  rw [TokenHashes.listTokens, List.eq_nil_iff_forall_not_mem]
  simp only [List.mem_mergeSort]
  rw [← List.eq_nil_iff_forall_not_mem, List.map_eq_nil_iff, TokenHashes.values,
    List.map_eq_nil_iff]
  constructor
  · intro hnil id
    rw [AList.lookup, hnil]
    rfl
  · intro hnone
    refine List.eq_nil_iff_forall_not_mem.mpr fun entry hmem => ?_
    have hlookup : entry.2 ∈ hashes.records.lookup entry.1 := AList.mem_lookup_iff.mpr hmem
    rw [hnone entry.1] at hlookup
    cases hlookup

def Untouched : TokenSystem → Prop :=
  Holds (fun hashes => ∀ id, hashes.records.lookup id = none)
    fun _ _ call => ∀ record, call ≠ .verifyWrite record

lemma createdStep_true : createdStep s true label = true := by
  cases label with
  | start op => rfl
  | advance i event =>
    rw [createdStep]
    split
    · exact Bool.true_or _
    · rfl

lemma made_eq_false {i : ℕ} {event : CommandEvent} {record : AdminTokenRecord}
    (hi : s.calls[i]? = some (.create record))
    (h : createdStep s false (.advance i event) = false) : event.made = false := by
  rwa [createdStep, hi] at h

lemma Untouched.step (h : Untouched s) (hcreated : createdStep s false label = false) :
    Untouched (tokenStep s label) := by
  refine step_invariant h (fun i call event hlabel hi => ⟨fun id => ?_, fun record heq => ?_⟩)
    (fun i call event j other hi hj hne => h.calls j other hj) fun op hop record heq => ?_
  · cases hlookup : (call.next event s.store).1.records.lookup id with
    | none => rfl
    | some record =>
      rcases TokenCall.records_next hlookup with hold | ⟨hwrite, -⟩
      · rw [h.store id] at hold
        cases hold
      · rcases TokenCall.write_eq_hsetRecord hwrite with rfl | rfl
        · subst hlabel
          rw [TokenCall.next_fst, made_eq_false hi hcreated, if_neg Bool.false_ne_true,
            h.store id] at hlookup
          cases hlookup
        · exact absurd rfl (h.calls i _ hi record)
  · have hmoves := TokenCall.moves_next event s.store call
    rw [heq] at hmoves
    obtain ⟨tokenHash, id, stored, now, -, hstored, -⟩ := hmoves.verifyWrite_inv
    rw [h.store id] at hstored
    cases hstored
  · cases op <;> cases heq

lemma listTokens_ne_nil_of_created (hcreated : createdStep s false label = true) :
    (tokenStep s label).store.listTokens ≠ [] := by
  cases label with
  | start op => cases hcreated
  | advance i event =>
    cases hi : s.calls[i]? with
    | none =>
      rw [createdStep, hi] at hcreated
      cases hcreated
    | some call =>
      rw [createdStep, hi] at hcreated
      split at hcreated
      · next record heq =>
        cases heq
        have hmade : event.made = true := hcreated
        rw [tokenStep_advance hi, ne_eq, listTokens_eq_nil_iff]
        intro hnone
        have hwritten := hnone record.id
        rw [TokenCall.next_fst, if_pos hmade] at hwritten
        rw [show (TokenCall.create record).commit s.store =
          RedisWrite.apply s.store (.hsetRecord record) from rfl, RedisWrite.apply,
          AList.lookup_insert] at hwritten
        cases hwritten
      · cases hcreated

lemma untouched_empty : Untouched emptyTokens :=
  ⟨fun _ => rfl, fun i call hi => by cases hi⟩

lemma untouched_run (labels : List TokenLabel) (h : tokenCreated labels = false) :
    Untouched (run tokenStep emptyTokens labels) := by
  have hinv : ∀ (t : TokenSystem × Bool) label, (t.2 = false → Untouched t.1) →
      ((tracked tokenStep createdStep t label).2 = false →
        Untouched (tracked tokenStep createdStep t label).1) := by
    rintro ⟨s, created⟩ label hs hfalse
    cases created with
    | true => exact absurd (hfalse.symm.trans createdStep_true) Bool.false_ne_true
    | false => exact (hs rfl).step hfalse
  have hrun := run_invariant (fun t : TokenSystem × Bool => t.2 = false → Untouched t.1) hinv
    (s := (emptyTokens, false)) (fun _ => untouched_empty) labels h
  rwa [fst_run_tracked] at hrun

end Created

def CreatedListed (t : TokenSystem × Bool) : Prop :=
  (t.2 = true → t.1.store.listTokens ≠ []) ∧ (t.2 = false → Untouched t.1)

lemma createdListed_step_iff (t : TokenSystem × Bool) (label : TokenLabel)
    (h : CreatedListed t) :
    CreatedListed (tracked tokenStep createdStep t label) ↔ KeepsToken t.1 label := by
  obtain ⟨s, created⟩ := t
  cases created with
  | true =>
    have htrue : (tracked tokenStep createdStep (s, true) label).2 = true := createdStep_true
    rw [CreatedListed, htrue]
    constructor
    · exact fun hnext _ => hnext.1 rfl
    · exact fun hkeeps => ⟨fun _ => hkeeps (h.1 rfl), fun hfalse => by cases hfalse⟩
  | false =>
    have hempty : s.store.listTokens = [] := listTokens_eq_nil_iff.mpr (h.2 rfl).store
    refine iff_of_true ⟨fun hcreated => ?_, fun hcreated => (h.2 rfl).step hcreated⟩
      fun hne => absurd hempty hne
    exact listTokens_ne_nil_of_created hcreated

lemma listed_once_created_iff (labels : List TokenLabel) :
    (∀ n, tokenCreated (labels.take n) = true →
        (run tokenStep emptyTokens (labels.take n)).store.listTokens ≠ []) ↔
      Along tokenStep KeepsToken emptyTokens labels := by
  have hstart : CreatedListed (emptyTokens, false) :=
    ⟨fun h => absurd h Bool.false_ne_true, fun _ => untouched_empty⟩
  rw [← forall_take_tracked_iff CreatedListed hstart createdListed_step_iff]
  refine forall_congr' fun n => ?_
  rw [CreatedListed, fst_run_tracked]
  exact ⟨fun h => ⟨h, untouched_run _⟩, And.left⟩

/-- **The bootstrap token.**  In a run of the calls on the token store, the bootstrap token is
never let in once a token was created, exactly if no step removes the last token. -/
theorem bootstrap_once_iff {auth : AdminApiAuth} {crypto : AdminCrypto} {req : AdminRequest}
    (hpermanent : auth.bootstrapTokenPermanent = false) (hstore : auth.tokenStore = true)
    (hreq : auth.PresentsBootstrap crypto req) (labels : List TokenLabel) :
    (∀ n, tokenCreated (labels.take n) = true → ∀ event principal,
        (auth.authorize crypto event req
          (run tokenStep emptyTokens (labels.take n)).store).1 ≠ .ok principal) ↔
      Along tokenStep KeepsToken emptyTokens labels := by
  have hplan := hreq.plan_eq hpermanent hstore
  rw [← listed_once_created_iff]
  refine forall_congr' fun n => forall_congr' fun _ => ?_
  constructor
  · intro hrefused hnil
    obtain ⟨principal, hprincipal⟩ := (authorize_of_list hplan).mpr
      (⟨⟨0, rfl⟩, hnil⟩ : (∃ now, (fun _ => CommandEvent.reply 0 : ℕ → _) 0 = .reply now) ∧ _)
    exact hrefused _ principal hprincipal
  · intro hne event principal hprincipal
    exact hne ((authorize_of_list hplan).mp ⟨principal, hprincipal⟩).2

/-! ### Runs that empty the store -/

lemma presentsBootstrap_sample : sampleAdminAuth.PresentsBootstrap sampleCrypto
    (sampleAdminRequest "GET" "/v1/routes" "boot") where
  allowed := .inl rfl
  notPublic := by decide
  enabled := rfl
  token := ⟨"boot", by decide, by decide⟩

theorem bootstrap_refused_after_create :
    let labels := .start (.create sampleToken) :: commands [0, 0]
    tokenCreated (labels.take 3) = true ∧ ∀ event principal,
      (sampleAdminAuth.authorize sampleCrypto event (sampleAdminRequest "GET" "/v1/routes" "boot")
        (run tokenStep emptyTokens (labels.take 3)).store).1 ≠ .ok principal := by
  intro labels
  have hcreated : tokenCreated (labels.take 3) = true := by decide +kernel
  have hkeeps : Along tokenStep KeepsToken emptyTokens labels := by decide +kernel
  exact ⟨hcreated, (bootstrap_once_iff rfl rfl presentsBootstrap_sample labels).mpr hkeeps 3
    hcreated⟩

/-- The bootstrap token is let in again when the only token is revoked, and in a login between
the revocation of the account's last token and the creation of its next one. -/
theorem bootstrap_accepted_again :
    let accepted (labels : List TokenLabel) :=
      (sampleAdminAuth.authorize sampleCrypto sampleAdminEnv.authEvent
        (sampleAdminRequest "GET" "/v1/routes" "boot") (run tokenStep emptyTokens labels).store).1 =
        .ok .admin
    let revoked := .start (.create sampleToken) :: commands [0, 0] ++
      .start (.revoke "t1".toList) :: commands [1, 1, 1]
    let account := "account:admin@pxxl.test".toList
    let relogin := .start (.create { sampleToken with name := account }) :: commands [0, 0] ++
      .start (.revokeByName account) :: commands [1, 1, 1]
    (tokenCreated revoked = true ∧ accepted revoked) ∧
      (tokenCreated relogin = true ∧ accepted relogin) := by
  decide +kernel

end PxxlEdge
