import PxxlEdge.Core.Registry
import PxxlEdge.Lib.Run

/-!
The maintenance of the certificates of domains.

A pass comes to every domain of a route with TLS.  If the certificate files of a domain
need renewal, `certbot` is started for it, and how that ended is written to the
registry of certificates.  Records are also written by reading the status of a
domain and by resyncs through the API.
-/

namespace PxxlEdge

open RustStd

/-! ### Records -/

structure CertConfig where
  certDir : Text
  renewBeforeDays : ℕ := 30
  maxPerRun : ℕ := 25
  retryAfterMs : ℕ := 60 * 60 * 1000

inductive CertFiles where
  | missing
  | unreadable (error : Text)
  | notPem (error : Text)
  | empty
  | notX509 (error : Text)
  | certificate (issuer subject : Text) (dnsNames : List Text) (notBefore notAfter : ℤ)
deriving DecidableEq, Repr

structure CertWorld where
  now : ℕ
  table : RouteTable
  pointsToProxy : Text → Except Text Bool
  files : Text → CertFiles
  loads : Bool := true
  saves : Bool := true

structure DomainCertificateRecord where
  domain : Text
  status : Text
  reason : Text
  dedicated : Bool
  renewalRequired : Bool
  certPath : Option Text
  keyPath : Option Text
  issuer : Option Text := none
  subject : Option Text := none
  sanDomains : List Text := []
  notBeforeUnixMs : Option ℤ := none
  notAfterUnixMs : Option ℤ := none
  lastCheckedUnixMs : ℕ
  lastAttemptUnixMs : Option ℕ := none
  lastIssuedUnixMs : Option ℕ := none
  lastError : Option Text := none
deriving DecidableEq, Repr

def joinPath (dir file : Text) : Text :=
  if dir = [] ∨ dir.getLast? = some '/' then dir ++ file else dir ++ '/' :: file

def safeDomainCertName (domain : Text) : Text :=
  domain.map fun ch => if ch.isAlphanum ∨ ch = '.' ∨ ch = '-' then ch.toLower else '_'

def domainCertificatePath (certDir domain : Text) : Text :=
  joinPath (joinPath (joinPath certDir "domains") (safeDomainCertName domain)) "fullchain.pem"

def domainPrivateKeyPath (certDir domain : Text) : Text :=
  joinPath (joinPath (joinPath certDir "domains") (safeDomainCertName domain)) "privkey.pem"

section Inspect

variable (cfg : CertConfig) (env : CertWorld)

def missingCertificateRecord (domain : Text) : DomainCertificateRecord where
  domain
  status := "missing"
  reason := "dedicated_certificate_missing"
  dedicated := false
  renewalRequired := true
  certPath := some (domainCertificatePath cfg.certDir domain)
  keyPath := some (domainPrivateKeyPath cfg.certDir domain)
  lastCheckedUnixMs := env.now

def errorCertificateRecord (domain error : Text) : DomainCertificateRecord :=
  { missingCertificateRecord cfg env domain with
    status := "error"
    reason := "certificate_inspection_failed"
    lastError := some error }

def renewBeforeMs : ℤ := cfg.renewBeforeDays * 24 * 60 * 60 * 1000

def parsedCertificateRecord (domain issuer subject : Text) (dnsNames : List Text)
    (notBefore notAfter : ℤ) : DomainCertificateRecord :=
  let record : DomainCertificateRecord :=
    { domain
      status := "valid"
      reason := "dedicated_sni_certificate"
      dedicated := true
      renewalRequired := false
      certPath := some (domainCertificatePath cfg.certDir domain)
      keyPath := some (domainPrivateKeyPath cfg.certDir domain)
      issuer := some issuer
      subject := some subject
      sanDomains := dnsNames.map Text.toAsciiLowercase
      notBeforeUnixMs := some (notBefore * 1000)
      notAfterUnixMs := some (notAfter * 1000)
      lastCheckedUnixMs := env.now }
  if ¬ record.sanDomains.any fun name => name.eqIgnoreAsciiCase domain then
    { record with
      status := "invalid", reason := "domain_not_in_certificate", renewalRequired := true }
  else if notAfter * 1000 ≤ env.now then
    { record with status := "expired", reason := "certificate_expired", renewalRequired := true }
  else if notAfter * 1000 - env.now ≤ renewBeforeMs cfg then
    { record with
      status := "expiring_soon"
      reason := "certificate_expiring_before_renew_window"
      renewalRequired := true }
  else record

def recordOfFiles (domain : Text) : CertFiles → DomainCertificateRecord
  | .missing => missingCertificateRecord cfg env domain
  | .unreadable error =>
    errorCertificateRecord cfg env domain ("failed_to_read_certificate: " ++ error)
  | .notPem error =>
    errorCertificateRecord cfg env domain ("failed_to_parse_pem: " ++ error)
  | .empty => errorCertificateRecord cfg env domain "certificate_file_empty"
  | .notX509 error =>
    errorCertificateRecord cfg env domain ("failed_to_parse_x509: " ++ error)
  | .certificate issuer subject dnsNames notBefore notAfter =>
    parsedCertificateRecord cfg env domain issuer subject dnsNames notBefore notAfter

def inspectDomainCertificate (domain : Text) : Option DomainCertificateRecord :=
  let domain := normalizeDomain domain
  if domain = [] then none
  else some (recordOfFiles cfg env domain (env.files (domainCertificatePath cfg.certDir domain)))

end Inspect

/-! ### The registry of certificates -/

abbrev CertificateRegistry := Map Text DomainCertificateRecord

section Records

variable (cfg : CertConfig) (env : CertWorld)

def CertWorld.rewrite (change : CertificateRegistry → CertificateRegistry)
    (registry : CertificateRegistry) : CertificateRegistry :=
  if env.saves then change (if env.loads then registry else ∅) else registry

def upsertRecord (record : DomainCertificateRecord) (registry : CertificateRegistry) :
    CertificateRegistry :=
  registry.insert (normalizeDomain record.domain) record

def markAttempt (error : Option Text) (registry : CertificateRegistry) (domain : Text) :
    CertificateRegistry :=
  let domain := normalizeDomain domain
  if domain = [] then registry
  else
    let record := (registry.lookup domain).getD (missingCertificateRecord cfg env domain)
    let record :=
      { record with
        lastAttemptUnixMs := some env.now, lastCheckedUnixMs := env.now, lastError := error }
    let record :=
      if error.isSome then
        { record with
          status := "error", reason := "certificate_issue_failed", renewalRequired := true }
      else record
    registry.insert domain record

def markCertificateAttempt (domains : List Text) (error : Option Text) :
    CertificateRegistry → CertificateRegistry :=
  env.rewrite fun registry => domains.foldl (markAttempt cfg env error) registry

def refreshRecord (registry : CertificateRegistry) (domain : Text) : CertificateRegistry :=
  let domain := normalizeDomain domain
  if domain = [] then registry
  else
    let record := (inspectDomainCertificate cfg env domain).getD
      (missingCertificateRecord cfg env domain)
    registry.insert domain
      { record with lastAttemptUnixMs := some env.now, lastIssuedUnixMs := some env.now }

def refreshCertificateRecords (domains : List Text) : CertificateRegistry → CertificateRegistry :=
  env.rewrite fun registry => domains.foldl (refreshRecord cfg env) registry

def sortedNames (names : List Text) : List Text :=
  (names.insertionSort fun s t => Text.isLe s t = true).destutter (· ≠ ·)

def statusDomains (domain : Text) : List Text :=
  match findDomain env.table (normalizeDomain domain) with
  | none => [normalizeDomain domain]
  | some route => sortedNames <|
      route.domain :: if routeAllowsWwwAlias route.domain route.rules.wwwAlias then
        ["www." ++ route.domain] else []

def inspectInto (registry : CertificateRegistry) (domain : Text) : CertificateRegistry :=
  match inspectDomainCertificate cfg env domain with
  | some record => upsertRecord record registry
  | none => registry

def certificateStatus (filter : Option Text) (registry : CertificateRegistry) :
    CertificateRegistry :=
  match filter with
  | none => registry
  | some domain =>
    let domains := statusDomains env domain
    if domains.any fun domain => (inspectDomainCertificate cfg env domain).isSome then
      env.rewrite (fun registry => domains.foldl (inspectInto cfg env) registry) registry
    else registry

end Records

/-! ### Resyncs -/

section Resync

variable (cfg : CertConfig) (env : CertWorld)

def isCertificateDomain (domain : Text) : Bool :=
  !(domain == [] || domain == "localhost" || domain.endsWith ".local" || domain.endsWith ".test" ||
    domain.contains "*" || (parseIp domain).isSome)

def certificateName (requested : Text) : Text :=
  ((findDomain env.table requested).map Route.domain).getD requested

def certificateDomains (requested : Text) : List Text :=
  let www := "www." ++ certificateName env requested
  let aliased := (findDomain env.table requested).any fun route =>
    routeAllowsWwwAlias route.domain route.rules.wwwAlias
  let pointed := (env.pointsToProxy www).toOption.getD false
  sortedNames (certificateName env requested :: if aliased && pointed then [www] else [])

def DomainCertificateRecord.reusable (record : DomainCertificateRecord) : Bool :=
  record.dedicated && !record.renewalRequired

structure CertificateIssue where
  name : Text
  domains : List Text
deriving DecidableEq, Repr

def startResync (registry : CertificateRegistry) (domain : Text) :
    CertificateRegistry × Option CertificateIssue :=
  let requested := normalizeDomain domain
  if !isCertificateDomain requested then (registry, none)
  else
    let domains := certificateDomains env requested
    let records := domains.map (inspectDomainCertificate cfg env)
    if records.all fun record => record.any DomainCertificateRecord.reusable then
      let registry := records.reduceOption.foldl
        (fun registry record => env.rewrite (upsertRecord record) registry) registry
      (certificateStatus cfg env (some (certificateName env requested)) registry, none)
    else
      (markCertificateAttempt cfg env domains none registry,
        some ⟨certificateName env requested, domains⟩)

inductive CertbotOutcome where
  /-- A directory cannot be made: nothing is recorded. -/
  | noDirectory
  /-- It cannot be run, times out or fails, or its certificate cannot be installed. -/
  | failed (error : Text)
  | issued
deriving DecidableEq, Repr

def finishResync (issue : CertificateIssue) (outcome : CertbotOutcome)
    (registry : CertificateRegistry) : CertificateRegistry :=
  match outcome with
  | .noDirectory => registry
  | .failed error => markCertificateAttempt cfg env issue.domains (some error) registry
  | .issued =>
    certificateStatus cfg env (some issue.name)
      (refreshCertificateRecords cfg env issue.domains registry)

end Resync

/-! ### Runs -/

inductive PassStage where
  | idle
  /-- It is about to issue a certificate for a domain. -/
  | resync (domain : Text)
  /-- `certbot` runs. -/
  | certbot (issue : CertificateIssue)
deriving DecidableEq, Repr

structure MaintenancePass where
  rest : List Text
  attempted : ℕ := 0
  stage : PassStage := .idle
deriving DecidableEq, Repr

structure CertMaintenance where
  registry : CertificateRegistry := ∅
  pass : Option MaintenancePass := none
  /-- The resyncs for which `certbot` runs. -/
  resyncs : List CertificateIssue := []
  /-- When the last failed attempt of a domain was recorded. -/
  failures : Map Text ℕ := ∅

inductive CertAct where
  /-- A pass starts. -/
  | beginPass (env : CertWorld)
  /-- The pass comes to its next domain. -/
  | check (env : CertWorld)
  /-- The pass starts to issue. -/
  | issue (env : CertWorld)
  /-- `certbot` ends, for the pass. -/
  | finish (env : CertWorld) (outcome : CertbotOutcome)
  /-- A resync through the API starts. -/
  | resync (env : CertWorld) (domain : Text)
  /-- `certbot` ends, for a resync. -/
  | finishResync (env : CertWorld) (index : ℕ) (outcome : CertbotOutcome)
  | status (env : CertWorld) (filter : Option Text)

def routeDomains (route : Route) : List Text :=
  if route.tls then
    route.domain :: if routeAllowsWwwAlias route.domain route.rules.wwwAlias then
      ["www." ++ route.domain] else []
  else []

namespace CertMaintenance

variable (cfg : CertConfig) (env : CertWorld) (s : CertMaintenance)

def beginPass : CertMaintenance :=
  if s.pass.isSome ∨ cfg.maxPerRun = 0 then s
  else { s with pass := some { rest := env.table.routes.flatMap routeDomains } }

def next : Option Text :=
  match s.pass with
  | some ⟨domain :: _, attempted, .idle⟩ => if cfg.maxPerRun ≤ attempted then none else some domain
  | _ => none

def skip : CertMaintenance :=
  { s with pass := s.pass.map fun pass => { pass with rest := pass.rest.tail } }

def visit (domain : Text) : CertMaintenance :=
  let ensure : CertMaintenance :=
    { s.skip with pass := s.skip.pass.map fun pass => { pass with stage := .resync domain } }
  if domain = [] then s.skip
  else
    match env.pointsToProxy domain with
    | .error _ => s.skip
    | .ok false => s.skip
    | .ok true =>
      match inspectDomainCertificate cfg env domain with
      | none => ensure
      | some record =>
        if !record.renewalRequired then
          { s.skip with registry := env.rewrite (upsertRecord record) s.registry }
        else
          match record.lastAttemptUnixMs with
          | some lastAttempt =>
            if env.now - lastAttempt < cfg.retryAfterMs then s.skip else ensure
          | none => ensure

def check : CertMaintenance :=
  match s.pass with
  | some ⟨_, _, .idle⟩ =>
    match s.next cfg with
    | some domain => s.visit cfg env (normalizeDomain domain)
    | none => { s with pass := none }
  | _ => s

def issue : CertMaintenance :=
  match s.pass with
  | some ⟨rest, attempted, .resync domain⟩ =>
    let (registry, issue) := startResync cfg env s.registry domain
    { s with
      registry
      pass := some ⟨rest, attempted + 1, issue.elim .idle .certbot⟩ }
  | _ => s

def noted (issue : CertificateIssue) (outcome : CertbotOutcome) : Map Text ℕ :=
  match outcome with
  | .failed _ =>
    if env.saves then
      ((issue.domains.map normalizeDomain).filter fun domain => domain ≠ []).foldl
        (fun failures domain => failures.insert domain env.now) s.failures
    else s.failures
  | _ => s.failures

def finish (outcome : CertbotOutcome) : CertMaintenance :=
  match s.pass with
  | some ⟨rest, attempted, .certbot issue⟩ =>
    { s with
      registry := PxxlEdge.finishResync cfg env issue outcome s.registry
      pass := some ⟨rest, attempted, .idle⟩
      failures := s.noted env issue outcome }
  | _ => s

def resync (domain : Text) : CertMaintenance :=
  let (registry, issue) := startResync cfg env s.registry domain
  { s with registry, resyncs := s.resyncs ++ issue.toList }

def finishResync (index : ℕ) (outcome : CertbotOutcome) : CertMaintenance :=
  match s.resyncs[index]? with
  | some issue =>
    { s with
      registry := PxxlEdge.finishResync cfg env issue outcome s.registry
      resyncs := s.resyncs.eraseIdx index
      failures := s.noted env issue outcome }
  | none => s

def step (s : CertMaintenance) : CertAct → CertMaintenance
  | .beginPass env => s.beginPass cfg env
  | .check env => s.check cfg env
  | .issue env => s.issue cfg env
  | .finish env outcome => s.finish cfg env outcome
  | .resync env domain => s.resync cfg env domain
  | .finishResync env index outcome => s.finishResync cfg env index outcome
  | .status env filter => { s with registry := certificateStatus cfg env filter s.registry }

/-! ### What a pass waits for -/

def NeedsRenewal (domain : Text) : CertFiles → Prop
  | .certificate _ _ dnsNames _ notAfter =>
    (∀ name ∈ dnsNames, Text.eqIgnoreAsciiCase name.toAsciiLowercase domain = false) ∨
      notAfter * 1000 - env.now ≤ renewBeforeMs cfg
  | _ => True

def Due (domain : Text) : Prop :=
  domain ≠ [] ∧ env.pointsToProxy domain = .ok true ∧
    (normalizeDomain domain ≠ [] → NeedsRenewal cfg env (normalizeDomain domain)
      (env.files (domainCertificatePath cfg.certDir (normalizeDomain domain))))

def RestedFor (domain : Text) : Prop :=
  ∀ failed, s.failures.lookup domain = some failed → cfg.retryAfterMs ≤ env.now - failed

def Spaced (s : CertMaintenance) : CertAct → Prop
  | .check env => ∀ domain, s.next cfg ≠ none →
      (s.check cfg env).pass.map MaintenancePass.stage = some (.resync domain) →
        s.RestedFor cfg env domain
  | _ => True

def ComesLate (s : CertMaintenance) : CertAct → Prop
  | .check env => ∀ domain, s.next cfg = some domain → Due cfg env (normalizeDomain domain) →
      s.RestedFor cfg env (normalizeDomain domain)
  | _ => True

variable {cfg env s}

lemma lastAttempt_recordOfFiles (domain : Text) (files : CertFiles) :
    (recordOfFiles cfg env domain files).lastAttemptUnixMs = none := by
  cases files with
  | certificate issuer subject dnsNames notBefore notAfter =>
    rw [recordOfFiles, parsedCertificateRecord]
    dsimp only
    split_ifs <;> rfl
  | _ => rfl

variable {record : DomainCertificateRecord} {domain : Text}

lemma lastAttempt_inspect (h : inspectDomainCertificate cfg env domain = some record) :
    record.lastAttemptUnixMs = none := by
  rw [inspectDomainCertificate] at h
  split at h
  · cases h
  · obtain rfl := Option.some.inj h
    exact lastAttempt_recordOfFiles _ _

lemma renewBeforeMs_nonneg (cfg : CertConfig) : 0 ≤ renewBeforeMs cfg := by
  rw [renewBeforeMs]
  positivity

lemma renewalRequired_recordOfFiles (domain : Text) (files : CertFiles) :
    (recordOfFiles cfg env domain files).renewalRequired = true ↔
      NeedsRenewal cfg env domain files := by
  cases files with
  | certificate issuer subject dnsNames notBefore notAfter =>
    have hcovered : ((dnsNames.map Text.toAsciiLowercase).any fun name =>
        name.eqIgnoreAsciiCase domain) = true ↔
        ¬ ∀ name ∈ dnsNames, Text.eqIgnoreAsciiCase name.toAsciiLowercase domain = false := by
      simp
    rw [recordOfFiles, parsedCertificateRecord, NeedsRenewal]
    dsimp only
    split_ifs with hnames hexpired hsoon
    · have hnonneg := renewBeforeMs_nonneg cfg
      exact iff_of_true rfl (.inr (by omega))
    · exact iff_of_true rfl (.inr hsoon)
    · exact iff_of_false (by simp) (not_or.mpr ⟨hcovered.mp hnames, hsoon⟩)
    · exact iff_of_true rfl (.inl (not_not.mp fun h => hnames (hcovered.mpr h)))
  | _ => exact iff_of_true rfl trivial

lemma renewalRequired_inspect (h : inspectDomainCertificate cfg env domain = some record) :
    record.renewalRequired = true ↔
      (normalizeDomain domain ≠ [] → NeedsRenewal cfg env (normalizeDomain domain)
        (env.files (domainCertificatePath cfg.certDir (normalizeDomain domain)))) := by
  rw [inspectDomainCertificate] at h
  split at h
  · cases h
  · next hne =>
    obtain rfl := Option.some.inj h
    rw [renewalRequired_recordOfFiles]
    exact (imp_iff_right hne).symm

lemma normalizeDomain_of_inspect
    (h : inspectDomainCertificate cfg env domain = none) : normalizeDomain domain = [] := by
  rw [inspectDomainCertificate] at h
  split at h
  · assumption
  · cases h

lemma stage_visit {pass : MaintenancePass} (hpass : s.pass = some pass)
    (hidle : pass.stage = .idle) {domain d : Text} :
    (s.visit cfg env domain).pass.map MaintenancePass.stage = some (.resync d) ↔
      Due cfg env domain ∧ d = domain := by
  have hskip : s.skip.pass.map MaintenancePass.stage = some .idle := by
    rw [skip, hpass, Option.map_some, Option.map_some, hidle]
  have hnever : ¬ s.skip.pass.map MaintenancePass.stage = some (.resync d) := by
    rw [hskip]
    nofun
  have hensure : ((s.skip.pass.map fun pass => { pass with stage := .resync domain }).map
      MaintenancePass.stage = some (.resync d)) ↔ d = domain := by
    rw [skip, hpass]
    simp [eq_comm]
  rw [visit, Due]
  dsimp only
  split
  · next hempty => exact iff_of_false hnever fun h => h.1.1 hempty
  · next hdomain =>
    split
    · next hdns => exact iff_of_false hnever fun h => by rw [hdns] at h; cases h.1.2.1
    · next hdns => exact iff_of_false hnever fun h => by rw [hdns] at h; cases h.1.2.1
    · next hdns =>
      split
      · next hnone =>
        rw [hensure]
        exact (and_iff_right ⟨hdomain, hdns,
          fun h => absurd (normalizeDomain_of_inspect hnone) h⟩).symm
      · next record hrecord =>
        have hrenewal := renewalRequired_inspect hrecord
        split
        · next hvalid =>
          refine iff_of_false hnever fun h => ?_
          rw [hrenewal.mpr h.1.2.2] at hvalid
          cases hvalid
        · next hdue =>
          -- the record has no attempt: the interval is never compared
          rw [lastAttempt_inspect hrecord]
          rw [Bool.not_eq_true', Bool.not_eq_false] at hdue
          dsimp only
          rw [hensure]
          exact (and_iff_right ⟨hdomain, hdns, hrenewal.mp hdue⟩).symm

lemma exists_pass_of_next (h : s.next cfg = some domain) :
    ∃ pass, s.pass = some pass ∧ pass.stage = .idle := by
  rw [next] at h
  split at h
  · next hpass => exact ⟨_, hpass, rfl⟩
  · cases h

lemma check_of_next (h : s.next cfg = some domain) :
    s.check cfg env = s.visit cfg env (normalizeDomain domain) := by
  obtain ⟨⟨rest, attempted, stage⟩, hpass, rfl⟩ := exists_pass_of_next h
  rw [check, hpass]
  dsimp only
  rw [h]

lemma spaced_iff (act : CertAct) : s.Spaced cfg act ↔ s.ComesLate cfg act := by
  cases act with
  | check env =>
    constructor
    · intro h domain hnext hdue
      obtain ⟨pass, hpass, hidle⟩ := exists_pass_of_next hnext
      refine h (normalizeDomain domain) (by rw [hnext]; nofun) ?_
      rw [check_of_next hnext, stage_visit hpass hidle]
      exact ⟨hdue, rfl⟩
    · intro h d hnext hstage
      obtain ⟨domain, hdomain⟩ := Option.ne_none_iff_exists'.mp hnext
      obtain ⟨pass, hpass, hidle⟩ := exists_pass_of_next hdomain
      rw [check_of_next hdomain, stage_visit hpass hidle] at hstage
      obtain ⟨hdue, rfl⟩ := hstage
      exact h domain hdomain hdue
  | _ => exact Iff.rfl

end CertMaintenance

/-- **Maintenance waits after a failed attempt exactly if its passes do**: in every run of
passes, resyncs and status reads, in any interleaving and with any names, files and clock. -/
theorem maintenance_spaced_iff (cfg : CertConfig) (s : CertMaintenance) (acts : List CertAct) :
    Run.Along (CertMaintenance.step cfg) (CertMaintenance.Spaced cfg) s acts ↔
      Run.Along (CertMaintenance.step cfg) (CertMaintenance.ComesLate cfg) s acts :=
  ⟨fun h => h.mono fun _ act => (CertMaintenance.spaced_iff act).mp,
    fun h => h.mono fun _ act => (CertMaintenance.spaced_iff act).mpr⟩

def certificateless (now : ℕ) : CertWorld where
  now
  table := .new [{ id := "r", domain := "a.io", source := .api, paths := [] }]
  pointsToProxy _ := .ok true
  files _ := .missing

def sampleCertConfig : CertConfig := { certDir := "/data/certs" }

def failedThenNextPass : List CertAct :=
  [.beginPass (certificateless 0), .check (certificateless 0), .issue (certificateless 0),
    .finish (certificateless 1000) (.failed "too many failed authorizations"),
    .check (certificateless 1000), .beginPass (certificateless 2000)]

/-- One second after the failure is recorded, the next pass starts `certbot` again. -/
theorem maintenance_retries_at_once :
    ¬ Run.Along (CertMaintenance.step sampleCertConfig) (CertMaintenance.Spaced sampleCertConfig) {}
        (failedThenNextPass ++ [.check (certificateless 2000)]) ∧
      (Run.run (CertMaintenance.step sampleCertConfig) {} (failedThenNextPass ++
        [.check (certificateless 2000), .issue (certificateless 2000)])).pass =
          some ⟨[], 1, .certbot ⟨"a.io", ["a.io".toList]⟩⟩ := by
  refine ⟨fun h => ?_, by decide⟩
  have hfailed : (Run.run (CertMaintenance.step sampleCertConfig) {}
      failedThenNextPass).failures.lookup "a.io".toList = some 1000 := by
    decide
  have hearly : ¬ sampleCertConfig.retryAfterMs ≤ (certificateless 2000).now - 1000 := by decide
  refine hearly ((Run.along_concat.mp h).2 "a.io" ?_ ?_ 1000 hfailed)
  · decide
  · decide

end PxxlEdge
