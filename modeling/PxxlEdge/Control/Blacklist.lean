import PxxlEdge.Control.Writes
import PxxlEdge.Security.Engine

/-!
The blacklist of addresses per domain: the admin API writes it, the proxy reads it.
-/

namespace PxxlEdge

open RustStd Run

/-! ### The requests -/

inductive ApiBodyError where
  | tooLarge
  | body (error : Text)
deriving DecidableEq, Repr

def blacklistPath : Text := "/v1/blacklist/"

def blacklistDomainId (path : Text) : Text :=
  (Text.trimStartText blacklistPath path).trimMatches '/'

def addToBlacklist (path : Text) (body : Except ApiBodyError (Except Text IpAddr))
    (e : SecurityEngine) : ApiResponse × SecurityEngine :=
  let domainId := blacklistDomainId path
  if domainId = [] then (⟨400, some "missing domain_id"⟩, e)
  else
    match body with
    | .ok (.ok ip) => (⟨200, none⟩, { e with blacklist := e.blacklist.add domainId ip })
    | .ok (.error error) => (⟨400, some error⟩, e)
    | .error .tooLarge => (⟨413, some "request body is too large"⟩, e)
    | .error (.body error) => (⟨400, some error⟩, e)

def blacklistParts (path : Text) : List Text := (Text.trimStartText blacklistPath path).splitOn '/'

def removedEntry (path : Text) : Except Text (Text × IpAddr) :=
  match blacklistParts path with
  | [domainId, ip] =>
    match parseIp ip with
    | some ip => .ok (domainId, ip)
    | none => .error "invalid IP address syntax"
  | _ => .error "expected /v1/blacklist/\x7bdomain_id\x7d/\x7bip\x7d"

def removeFromBlacklist (path : Text) (e : SecurityEngine) : ApiResponse × SecurityEngine :=
  match removedEntry path with
  | .ok (domainId, ip) => (⟨200, none⟩, { e with blacklist := e.blacklist.remove domainId ip })
  | .error error => (⟨400, some error⟩, e)

/-! ### The engine while the edge runs -/

inductive EngineOp where
  | post (path : Text) (body : Except ApiBodyError (Except Text IpAddr))
  | delete (path : Text)
  | request (nowMs : ℕ) (clock : ℕ → ℕ) (host : Text) (ip : IpAddr)
  | blocker (change : AdaptiveBlocker → AdaptiveBlocker)

def SecurityEngine.step (e : SecurityEngine) : EngineOp → SecurityEngine
  | .post path body => (addToBlacklist path body e).2
  | .delete path => (removeFromBlacklist path e).2
  | .request nowMs clock host ip => (e.check nowMs clock (normalizeDomain host) ip).2
  | .blocker change => { e with adaptiveBlocker := change e.adaptiveBlocker }

def EngineOp.Removes (domain : Text) (ip : IpAddr) : EngineOp → Prop
  | .delete path => ∃ domainId, removedEntry path = .ok (domainId, ip) ∧
      (domainId = normalizeDomain domain ∨ normalizeDomain domainId = normalizeDomain domain)
  | _ => False

section Steps

variable {e : SecurityEngine} {op : EngineOp} {domain : Text} {ip : IpAddr}

lemma addToBlacklist_eq (path : Text) (body : Except ApiBodyError (Except Text IpAddr)) :
    (addToBlacklist path body e).2 = e ∨
      ∃ ip, (addToBlacklist path body e).2 =
        { e with blacklist := e.blacklist.add (blacklistDomainId path) ip } := by
  unfold addToBlacklist
  dsimp only
  split
  · exact .inl rfl
  · split
    · exact .inr ⟨_, rfl⟩
    · exact .inl rfl
    · exact .inl rfl
    · exact .inl rfl

lemma blacklist_check (nowMs : ℕ) (clock : ℕ → ℕ) (domainId : Text) (ip : IpAddr) :
    (e.check nowMs clock domainId ip).2.blacklist = e.blacklist := by
  rw [SecurityEngine.check]
  split
  · rfl
  · split <;> rfl

lemma contains_step (hblocked : e.blacklist.contains (normalizeDomain domain) ip = true)
    (hkeep : ¬ op.Removes domain ip) :
    (e.step op).blacklist.contains (normalizeDomain domain) ip = true := by
  rw [BlacklistEngine.contains_eq] at hblocked ⊢
  cases op with
  | post path body =>
    rcases addToBlacklist_eq path body with heq | ⟨ip', heq⟩
    · rwa [SecurityEngine.step, heq]
    · rw [SecurityEngine.step, heq, BlacklistEngine.cidrBlocks_add, BlacklistEngine.listed_add,
        ← Bool.or_assoc, hblocked, Bool.true_or]
  | delete path =>
    rw [SecurityEngine.step, removeFromBlacklist]
    cases hentry : removedEntry path with
    | error error => exact hblocked
    | ok entry =>
      obtain ⟨domainId, ip'⟩ := entry
      have hother : ¬ (normalizeDomain domain = domainId ∧ ip = ip') := by
        rintro ⟨rfl, rfl⟩
        exact hkeep ⟨_, hentry, .inl rfl⟩
      simpa [hother] using hblocked
  | request nowMs clock host ip' => rwa [SecurityEngine.step, blacklist_check]
  | blocker change => exact hblocked

theorem contains_run {ops : List EngineOp}
    (hblocked : e.blacklist.contains (normalizeDomain domain) ip = true)
    (hkeep : ∀ op ∈ ops, ¬ op.Removes domain ip) :
    (run SecurityEngine.step e ops).blacklist.contains (normalizeDomain domain) ip = true :=
  (along_of_forall hkeep).invariant
    (fun e : SecurityEngine => e.blacklist.contains (normalizeDomain domain) ip = true)
    (fun _ _ hinv hop => contains_step hinv hop) hblocked

end Steps

/-! ### Checks -/

section Checks

variable {e : SecurityEngine} {domainId : Text} {ip : IpAddr}

lemma check_of_contains (h : e.blacklist.contains domainId ip = true) (nowMs : ℕ)
    (clock : ℕ → ℕ) : (e.check nowMs clock domainId ip).1 = .blocked "ip_blacklisted" := by
  rw [SecurityEngine.check, if_pos h]

lemma exists_check_not_blocked (h : e.blacklist.contains domainId ip = false)
    (clock : ℕ → ℕ) :
    ∃ nowMs, ∀ reason, (e.check nowMs clock domainId ip).1 ≠ .blocked reason := by
  -- a block of the adaptive blocker has expired then
  obtain ⟨nowMs, hnone⟩ : ∃ nowMs, (e.adaptiveBlocker.check nowMs ip).1 = none := by
    cases hblock : e.adaptiveBlocker.blocks.lookup ip with
    | none =>
      refine ⟨0, ?_⟩
      rw [AdaptiveBlocker.check, hblock]
      split <;> rfl
    | some block =>
      refine ⟨block.expiresAtUnixMs, ?_⟩
      rw [AdaptiveBlocker.check, hblock]
      split
      · rfl
      · simp
  refine ⟨nowMs, fun reason => ?_⟩
  rcases hcheck : e.adaptiveBlocker.check nowMs ip with ⟨decision, blocker⟩
  rw [hcheck] at hnone
  obtain rfl : decision = none := hnone
  rw [SecurityEngine.check, h, hcheck]
  simp only [Bool.false_eq_true, if_false]
  rw [RateLimiter.allow]
  dsimp only
  split <;> simp

end Checks

/-! ### The domain in the path -/

lemma blacklistDomainId_name {domain : Text} (h : '/' ∉ domain) :
    blacklistDomainId (blacklistPath ++ domain) = domain := by
  have hstart : domain.startsWith blacklistPath = false := by
    rw [Text.startsWith, Bool.eq_false_iff]
    intro hprefix
    exact h ((List.isPrefixOf_iff_prefix.mp hprefix).subset (by decide))
  rw [blacklistDomainId, Text.trimStartText_append (by decide) hstart,
    Text.trimMatches_of_not_mem h]

/-! ### Posted addresses -/

def posted (domain : Text) (ip : IpAddr) (e : SecurityEngine) : ApiResponse × SecurityEngine :=
  addToBlacklist (blacklistPath ++ domain) (.ok (.ok ip)) e

lemma posted_eq {domain : Text} (hname : '/' ∉ domain) {ip : IpAddr} {e : SecurityEngine}
    (hpost : (posted domain ip e).1.status = 200) :
    (posted domain ip e).2 = { e with blacklist := e.blacklist.add domain ip } := by
  rw [posted, addToBlacklist, blacklistDomainId_name hname] at hpost ⊢
  split at hpost
  · cases hpost
  · next hne => rw [if_neg hne]

/-- **A posted address is blocked until it is removed, for every host with the same normal
form, exactly if the domain was posted in this form** or the address was blocked for it
already. -/
theorem blacklisted_until_removed_iff (domain : Text) (hname : '/' ∉ domain) (ip : IpAddr)
    (e : SecurityEngine) (hpost : (posted domain ip e).1.status = 200) (ops : List EngineOp) :
    (∀ n, (∀ op ∈ ops.take n, ¬ op.Removes domain ip) → ∀ host,
        normalizeDomain host = normalizeDomain domain → ∀ nowMs clock, ∃ reason,
          ((run SecurityEngine.step (posted domain ip e).2 (ops.take n)).check nowMs clock
            (normalizeDomain host) ip).1 = .blocked reason) ↔
      normalizeDomain domain = domain ∨
        e.blacklist.contains (normalizeDomain domain) ip = true := by
  have hcontains : (posted domain ip e).2.blacklist.contains (normalizeDomain domain) ip = true ↔
      normalizeDomain domain = domain ∨
        e.blacklist.contains (normalizeDomain domain) ip = true := by
    rw [posted_eq hname hpost, BlacklistEngine.contains_eq, BlacklistEngine.contains_eq,
      BlacklistEngine.cidrBlocks_add, BlacklistEngine.listed_add, ← Bool.or_assoc]
    simp [or_comm]
  rw [← hcontains]
  constructor
  · intro h
    by_contra hnot
    obtain ⟨nowMs, hfree⟩ := exists_check_not_blocked (eq_false_of_ne_true hnot) fun _ => 0
    obtain ⟨reason, hreason⟩ := h 0 (by simp) domain rfl nowMs fun _ => 0
    exact hfree reason hreason
  · intro hblocked n hkeep host hhost nowMs clock
    rw [hhost]
    exact ⟨_, check_of_contains (contains_run hblocked hkeep) nowMs clock⟩

def postedIp : IpAddr := .v4 ⟨203, 0, 113, 10⟩

theorem blacklisted_until_removed_sample :
    (posted "a.com".toList postedIp {}).1.status = 200 ∧
      ∃ reason, ((posted "a.com".toList postedIp {}).2.check 0 (fun _ => 0)
        (normalizeDomain "A.com:443".toList) postedIp).1 = .blocked reason := by
  have hpost : (posted "a.com".toList postedIp {}).1.status = 200 := by decide
  refine ⟨hpost, ?_⟩
  exact (blacklisted_until_removed_iff "a.com".toList (by decide) postedIp {} hpost []).mpr
    (.inl (by decide)) 0 (by simp) "A.com:443".toList (by decide) 0 fun _ => 0

/-- Posted for `A.com`, the address is let through to `a.com`. -/
theorem posted_upper_case_not_blocked :
    (posted "A.com".toList postedIp {}).1.status = 200 ∧
      normalizeDomain "a.com" = normalizeDomain "A.com" ∧
      ((posted "A.com".toList postedIp {}).2.check 0 (fun _ => 0)
        (normalizeDomain "a.com".toList) postedIp).1 = .allowed := by
  decide +kernel

end PxxlEdge
