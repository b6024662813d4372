import PxxlEdge.Core.Published
import PxxlEdge.Lib.History
import PxxlEdge.Lib.Run
import PxxlEdge.Lib.SortedTexts
import Mathlib.Data.List.ReduceOption

/-!
The certificate of the TLS listener: which domains it is issued for, and the loop that issues it
again when they change (`src/main.rs`).

Each tick observes the files and the domains.  What reading the files and issuing a certificate
end with is given with the tick.
-/

namespace PxxlEdge

open RustStd Run History List

/-! ### The domains -/

def maxCertDomains : ℕ := 100

def safeCertificateDomain (domain : Text) : Bool :=
  domain ≠ [] && domain.len ≤ 253 && !domain.asBytes.any fun byte => byte ≤ 0x20 || byte == 0x7f

def Route.certificateDomains (route : Route) : List Text :=
  [route.domain].filter safeCertificateDomain ++
    if routeAllowsWwwAlias route.domain route.rules.wwwAlias then
      ["www." ++ route.domain].filter safeCertificateDomain
    else []

def collectedDomains (localSubjectAltNames : List Text) (table : RouteTable) : List Text :=
  localSubjectAltNames ++ table.routes.flatMap Route.certificateDomains

def RouteTable.certificateDomains (table : RouteTable) (localSubjectAltNames : List Text) :
    List Text :=
  (sortDedup (collectedDomains localSubjectAltNames table)).take maxCertDomains

/-- **Configured names.**  The certificate is for all of them exactly if fewer than 100 of the
names that are collected stand before each of them in the order. -/
theorem configured_names_certified_iff (names : List Text) (table : RouteTable) :
    (∀ name ∈ names, name ∈ table.certificateDomains names) ↔
      ∀ name ∈ names, {domain ∈ (collectedDomains names table).toFinset |
        domain.Before name}.card < maxCertDomains := by
  refine forall₂_congr fun name hname => ?_
  rw [RouteTable.certificateDomains, mem_take_sortDedup_iff]
  exact and_iff_right (mem_append_left _ hname)

def hundredRoutes : RouteTable :=
  RouteTable.new ((range 100).map fun n =>
    { id := [], domain := [Char.ofNat (97 + n / 10), Char.ofNat (97 + n % 10)], source := .api })

/-- The only configured name gives way to a hundred routes. -/
theorem configured_name_displaced :
    "localhost".toList ∉ hundredRoutes.certificateDomains ["localhost"] := by
  have hnew (l) (h : (l.map dedupeKey).Nodup) : (RouteTable.new l).routes = l :=
    lastByKey_of_nodup h
  rw [RouteTable.certificateDomains, collectedDomains, hundredRoutes, hnew _ (by decide +kernel)]
  decide +kernel

/-! ### The loop -/

def tlsReloadMaxAttempts : ℕ := 10

structure TlsStatus where
  lastError : Option Text := none
  lastErrorStage : Option Text := none
  lastDomains : List Text := []
  exhaustedDomains : List Text := []

namespace TlsStatus

def markSuccess (domains : List Text) (_ : TlsStatus) : TlsStatus := { lastDomains := domains }

def markError (stage error : Text) (domains : List Text) (status : TlsStatus) : TlsStatus :=
  { status with lastError := some error, lastErrorStage := some stage, lastDomains := domains }

def markExhausted (domains : List Text) (status : TlsStatus) : TlsStatus :=
  { status with exhaustedDomains := domains }

end TlsStatus

structure Reloader (Config : Type) where
  tlsConfig : Config
  tlsStatus : TlsStatus := {}
  currentDomains : List Text
  pendingDomains : Option (List Text) := none
  exhaustedDomains : Option (List Text) := none
  attempts : ℕ := 0
  currentCertFingerprint : Text

structure Tick (Config : Type) where
  fingerprint : Text
  fromFiles : Except Text Config
  domains : List Text
  regenerated : Except Text (Except Text Config)
  newFingerprint : Text

def Tick.installs {Config : Type} (t : Tick Config) : Bool :=
  t.regenerated.toOption.any fun config => config.isOk

structure Regeneration where
  domains : List Text
  observed : List Text
  installed : Bool
  deriving DecidableEq

namespace Reloader

variable {Config : Type}

def reloadFiles (s : Reloader Config) (t : Tick Config) : Reloader Config :=
  if t.fingerprint = s.currentCertFingerprint then s
  else
    match t.fromFiles with
    | .ok config =>
      { s with
        tlsConfig := config
        currentCertFingerprint := t.fingerprint
        tlsStatus := s.tlsStatus.markSuccess s.currentDomains }
    | .error error =>
      { s with tlsStatus := s.tlsStatus.markError "file_reload" error s.currentDomains }

def observe (s : Reloader Config) (domains : List Text) : Reloader Config :=
  if domains ≠ s.currentDomains ∧ s.pendingDomains ≠ some domains ∧
      s.exhaustedDomains ≠ some domains then
    { s with pendingDomains := some domains, attempts := 0 }
  else s

def regenerate (s : Reloader Config) (t : Tick Config) (domains : List Text) : Reloader Config :=
  match t.regenerated with
  | .ok (.ok config) =>
    { tlsConfig := config
      tlsStatus := s.tlsStatus.markSuccess domains
      currentDomains := domains
      currentCertFingerprint := t.newFingerprint }
  | .ok (.error error) =>
    { s with
      attempts := s.attempts + 1
      tlsStatus := s.tlsStatus.markError "server_config" error domains }
  | .error error =>
    { s with
      attempts := s.attempts + 1
      tlsStatus := s.tlsStatus.markError "regenerate" error domains }

def attempt (s : Reloader Config) (t : Tick Config) : Reloader Config × Option Regeneration :=
  match s.pendingDomains with
  | none => (s, none)
  | some domains =>
    if tlsReloadMaxAttempts ≤ s.attempts then
      ({ s with
          exhaustedDomains := some domains
          tlsStatus := s.tlsStatus.markExhausted domains
          pendingDomains := none }, none)
    else (s.regenerate t domains, some ⟨domains, t.domains, t.installs⟩)

def tick (s : Reloader Config) (t : Tick Config) : Reloader Config × Option Regeneration :=
  ((s.reloadFiles t).observe t.domains).attempt t

def step (s : Reloader Config) (t : Tick Config) : Reloader Config := (s.tick t).1

def regenerations (s : Reloader Config) (ticks : List (Tick Config)) : List Regeneration :=
  (trace step (fun s t => (s.tick t).2) s ticks).reduceOption

structure InstallsStale (s : Reloader Config) (t : Tick Config) : Prop where
  pending : ∃ domains ≠ t.domains, s.pendingDomains = some domains
  settled : t.domains = s.currentDomains ∨ s.exhaustedDomains = some t.domains
  attempts : s.attempts < tlsReloadMaxAttempts
  installs : t.installs = true

/-! ### One tick -/

section Tick

variable {s : Reloader Config} {t : Tick Config}

lemma reloadFiles_domains (s : Reloader Config) (t : Tick Config) :
    (s.reloadFiles t).currentDomains = s.currentDomains ∧
      (s.reloadFiles t).pendingDomains = s.pendingDomains ∧
      (s.reloadFiles t).exhaustedDomains = s.exhaustedDomains ∧
      (s.reloadFiles t).attempts = s.attempts := by
  rw [reloadFiles]
  split
  · exact ⟨rfl, rfl, rfl, rfl⟩
  · split <;> exact ⟨rfl, rfl, rfl, rfl⟩

lemma tick_cases (s : Reloader Config) (t : Tick Config) :
    (s.pendingDomains = none ∧ s.tick t = (s.reloadFiles t, none)) ∨
      (∃ domains, s.pendingDomains = some domains ∧ tlsReloadMaxAttempts ≤ s.attempts ∧
        (s.tick t).2 = none ∧ (s.tick t).1.pendingDomains = none ∧
        (s.tick t).1.exhaustedDomains = some domains ∧ (s.tick t).1.attempts = s.attempts) ∨
      ∃ s' : Reloader Config, ∃ domains, s'.pendingDomains = some domains ∧
        s.tick t = (s'.regenerate t domains, some ⟨domains, t.domains, t.installs⟩) ∧
        ((domains = t.domains ∧ s'.attempts = 0 ∧ s.currentDomains ≠ domains ∧
            s.pendingDomains ≠ some domains ∧ s.exhaustedDomains ≠ some domains) ∨
          (s.pendingDomains = some domains ∧ s'.attempts = s.attempts ∧
            s.attempts < tlsReloadMaxAttempts ∧ (t.domains = s.currentDomains ∨
              domains = t.domains ∨ s.exhaustedDomains = some t.domains))) := by
  obtain ⟨hcurrent, hpending, hexhausted, hattempts⟩ := reloadFiles_domains s t
  rw [tick, observe, hcurrent, hpending, hexhausted]
  split_ifs with h
  · exact .inr (.inr ⟨_, t.domains, rfl, rfl, .inl ⟨rfl, rfl, Ne.symm h.1, h.2⟩⟩)
  rw [attempt, hpending, hattempts]
  cases hdomains : s.pendingDomains with
  | none => exact .inl ⟨rfl, rfl⟩
  | some domains =>
    dsimp only
    split_ifs with hmax
    · exact .inr (.inl ⟨domains, rfl, hmax, rfl, rfl, rfl, rfl⟩)
    · refine .inr (.inr ⟨_, domains, hpending.trans hdomains, rfl,
        .inr ⟨rfl, hattempts, not_le.mp hmax, ?_⟩⟩)
      rw [hdomains, ne_eq, ne_eq, Option.some.injEq] at h
      tauto

lemma observed_iff :
    (∀ r ∈ (s.tick t).2, r.installed = true → r.domains = r.observed) ↔ ¬ s.InstallsStale t := by
  rcases tick_cases s t with ⟨hnone, htick⟩ | ⟨domains, -, hmax, hnothing, -⟩ |
    ⟨s', domains, -, htick, ⟨rfl, -, hcurrent, -, hexhausted⟩ | ⟨hpending, -, hleft, hknown⟩⟩
  · rw [htick]
    refine iff_of_true (by simp) fun h => ?_
    obtain ⟨domains, -, hdomains⟩ := h.pending
    exact absurd (hnone.symm.trans hdomains) (by simp)
  · rw [hnothing]
    exact iff_of_true (by simp) fun h => absurd h.attempts (not_lt.mpr hmax)
  · rw [htick]
    exact iff_of_true (by simp) fun h => h.settled.elim (fun h => hcurrent h.symm) hexhausted
  · rw [htick]
    simp only [Option.mem_some_iff, forall_eq']
    constructor
    · rintro hobserved ⟨⟨domains', hne, hdomains'⟩, -, -, hinstalls⟩
      rw [hpending, Option.some.injEq] at hdomains'
      exact hne (hdomains' ▸ hobserved hinstalls)
    · intro hstale hinstalls
      by_contra hne
      exact hstale ⟨⟨domains, hne, hpending⟩, by tauto, hleft, hinstalls⟩

end Tick

/-! ### Whole runs -/

def failedFor (domains : List Text) (r : Regeneration) : Bool :=
  r.domains = domains ∧ r.installed = false

def failures (s : Reloader Config) (domains : List Text) : ℕ :=
  if s.pendingDomains = some domains then s.attempts
  else if s.pendingDomains = none ∧ s.exhaustedDomains = some domains then tlsReloadMaxAttempts
  else 0

structure Counts (s : Reloader Config) (history : List Regeneration) : Prop where
  attempts : s.attempts ≤ tlsReloadMaxAttempts
  failures : ∀ domains, trailing (failedFor domains) history ≤ s.failures domains

lemma failures_le {s : Reloader Config} {history : List Regeneration} (h : Counts s history)
    (domains : List Text) : s.failures domains ≤ tlsReloadMaxAttempts := by
  rw [Reloader.failures]
  split_ifs
  · exact h.attempts
  · exact le_rfl
  · exact Nat.zero_le _

lemma regenerate_cases (s : Reloader Config) (t : Tick Config) (domains : List Text) :
    (t.installs = true ∧ (s.regenerate t domains).attempts = 0) ∨
      (t.installs = false ∧ (s.regenerate t domains).attempts = s.attempts + 1 ∧
        (s.regenerate t domains).pendingDomains = s.pendingDomains) := by
  rw [regenerate, Tick.installs]
  match t.regenerated with
  | .ok (.ok config) => exact .inl ⟨rfl, rfl⟩
  | .ok (.error error) => exact .inr ⟨rfl, rfl, rfl⟩
  | .error error => exact .inr ⟨rfl, rfl, rfl⟩

lemma Counts.regenerate {s : Reloader Config} {history : List Regeneration} {domains : List Text}
    (hpending : s.pendingDomains = some domains) (hleft : s.attempts < tlsReloadMaxAttempts)
    (hlast : trailing (failedFor domains) history ≤ s.attempts) (t : Tick Config) :
    Counts (s.regenerate t domains) (history ++ [⟨domains, t.domains, t.installs⟩]) := by
  rcases regenerate_cases s t domains with ⟨hinstalls, hzero⟩ | ⟨hfails, hattempts, hsame⟩
  · refine ⟨hzero ▸ Nat.zero_le _, fun domains' => ?_⟩
    rw [trailing_concat_of_neg (by simp [failedFor, hinstalls])]
    exact Nat.zero_le _
  · refine ⟨by omega, fun domains' => ?_⟩
    by_cases hdomains : domains = domains'
    · subst hdomains
      rw [trailing_concat_of_pos (by simp [failedFor, hfails]), Reloader.failures,
        if_pos (hsame.trans hpending), hattempts]
      omega
    · rw [trailing_concat_of_neg (by simp [failedFor, hdomains])]
      exact Nat.zero_le _

lemma Counts.tick {s : Reloader Config} {history : List Regeneration} (h : Counts s history)
    (t : Tick Config) : Counts (s.step t) (history ++ (s.tick t).2.toList) := by
  rw [step]
  rcases tick_cases s t with ⟨-, htick⟩ |
    ⟨domains, hpending, -, hnothing, hnone, hexhausted, hsame⟩ |
    ⟨s', domains, hpending, htick, hfresh | hwaiting⟩
  · obtain ⟨-, hpending, hexhausted, hattempts⟩ := reloadFiles_domains s t
    rw [htick]
    refine ⟨hattempts ▸ h.attempts, fun domains => ?_⟩
    simpa [Reloader.failures, hpending, hexhausted, hattempts] using h.failures domains
  · rw [hnothing]
    refine ⟨hsame ▸ h.attempts, fun domains' => ?_⟩
    have hlast := h.failures domains'
    by_cases hdomains : domains = domains'
    · have := failures_le h domains'
      simp [Reloader.failures, hnone, hexhausted, hdomains]
      omega
    · rw [Reloader.failures, hpending] at hlast
      simp [hdomains] at hlast
      simp [hlast]
  · obtain ⟨-, hzero, -, hother, hexhausted⟩ := hfresh
    rw [htick]
    refine Counts.regenerate hpending (by rw [hzero]; decide) ?_ t
    simpa [Reloader.failures, hother, hexhausted, hzero] using h.failures domains
  · obtain ⟨hwait, hattempts, hleft, -⟩ := hwaiting
    rw [htick]
    refine Counts.regenerate hpending (by omega) ?_ t
    simpa [Reloader.failures, hwait, hattempts] using h.failures domains

lemma counts_run {s : Reloader Config} (h : Counts s []) (ticks : List (Tick Config)) :
    Counts (run step s ticks) (s.regenerations ticks) := by
  induction ticks using reverseRecOn with
  | nil => exact h
  | append_singleton ticks t ih =>
    have htick := ih.tick t
    rw [regenerations, trace_append, reduceOption_append, run_append]
    cases hmade : ((run step s ticks).tick t).2 with
    | none => simpa [trace, hmade, regenerations] using htick
    | some r => simpa [trace, hmade, regenerations] using htick

def start (tlsConfig : Config) (currentDomains : List Text) (fingerprint : Text) :
    Reloader Config :=
  { tlsConfig, currentDomains, currentCertFingerprint := fingerprint }

end Reloader

/-- **The reloader.**  In every run of ticks, whatever they observe and however they end, each
certificate that is installed is for the domains observed in its tick exactly if no tick installs
stale ones; and no more than ten failed attempts for one set come one after the other. -/
theorem installed_for_observed_iff {Config : Type} (config : Config) (domains : List Text)
    (fingerprint : Text) (ticks : List (Tick Config)) :
    ((∀ r ∈ (Reloader.start config domains fingerprint).regenerations ticks,
        r.installed = true → r.domains = r.observed) ↔
      Along Reloader.step (fun s t => ¬ s.InstallsStale t)
        (Reloader.start config domains fingerprint) ticks) ∧
      ∀ n set, trailing (Reloader.failedFor set)
        ((Reloader.start config domains fingerprint).regenerations (ticks.take n)) ≤
          tlsReloadMaxAttempts := by
  constructor
  · simp only [← Reloader.observed_iff]
    rw [← forall_mem_trace_iff (g := fun s t => (Reloader.tick s t).2)
      (P := fun made => ∀ r ∈ made, r.installed = true → r.domains = r.observed)]
    simp only [Reloader.regenerations, reduceOption_mem_iff]
    constructor
    · rintro h _ hmade r rfl
      exact h r hmade
    · exact fun h r hr => h _ hr r rfl
  · intro n set
    have hcounts := Reloader.counts_run (s := Reloader.start config domains fingerprint)
      ⟨Nat.zero_le _, fun _ => Nat.zero_le _⟩ (ticks.take n)
    exact (hcounts.failures set).trans (Reloader.failures_le hcounts set)

/-- The new domains are observed while issuing fails, and the old ones when it succeeds. -/
theorem stale_domains_installed :
    (Reloader.start () ["a.io".toList] []).regenerations
        [⟨[], .ok (), ["b.io".toList], .error "rate limited".toList, []⟩,
          ⟨[], .ok (), ["a.io".toList], .ok (.ok ()), []⟩] =
      [⟨["b.io".toList], ["b.io".toList], false⟩, ⟨["b.io".toList], ["a.io".toList], true⟩] := by
  decide

end PxxlEdge
