import PxxlEdge.Lib.LastByKey
import PxxlEdge.Lib.Iter

/-!
The certificates of the TLS listener (`crates/tls/src/lib.rs`): one directory per domain
beside a fallback pair, read at the start and again when the files have changed
(`run_tls_reloader`).

Reading PEM files and building keys is `rustls`, the parameter `Pki`.
-/

namespace PxxlEdge

open RustStd

inductive PemFile where
  | unopenable (source : Text)
  | unreadable (source : Text)
  | bytes (data : List UInt8)
  deriving DecidableEq

inductive TlsError where
  | read (path source : Text)
  | pem (source : Text)
  | missingPrivateKey
  | rustls (source : Text)
  deriving DecidableEq

structure Pki (Cert Key Certified : Type) where
  certs : List UInt8 → Except Text (List Cert)
  privateKey : List UInt8 → Except Text (Option Key)
  fromDer : List Cert → Key → Except Text Certified

section Load

variable {Cert Key Certified : Type} (pki : Pki Cert Key Certified)

def loadCerts (path : Text) (file : PemFile) : Except TlsError (List Cert) :=
  match file with
  | .unopenable source => .error (.read path source)
  | .unreadable source => .error (.read path source)
  | .bytes data => (pki.certs data).mapError .pem

def loadPrivateKey (path : Text) (file : PemFile) : Except TlsError Key :=
  match file with
  | .unopenable source => .error (.read path source)
  | .unreadable source => .error (.pem source)
  | .bytes data => do
      match ← (pki.privateKey data).mapError .pem with
      | some key => .ok key
      | none => .error .missingPrivateKey

structure CertificatePair where
  certPath : Text
  cert : PemFile
  keyPath : Text
  key : PemFile
  deriving DecidableEq

def certifiedKeyFromPaths (pair : CertificatePair) : Except TlsError Certified := do
  let certs ← loadCerts pki pair.certPath pair.cert
  let key ← loadPrivateKey pki pair.keyPath pair.key
  (pki.fromDer certs key).mapError .rustls

structure CertificateEntry where
  name : Option Text
  isDir : Bool
  fullchain : Option PemFile
  privkey : Option PemFile
  deriving DecidableEq

abbrev Listing := Option (List (Option CertificateEntry))

def Listing.entries (listing : Listing) : List CertificateEntry :=
  (listing.getD []).reduceOption

def CertificateEntry.pair (domainCertsDir : Text) (entry : CertificateEntry) :
    Option (Text × CertificatePair) :=
  if entry.isDir then
    match entry.name, entry.fullchain, entry.privkey with
    | some domain, some cert, some key =>
      let path := domainCertsDir ++ "/" ++ domain
      some (domain, ⟨path ++ "/fullchain.pem", cert, path ++ "/privkey.pem", key⟩)
    | _, _, _ => none
  else none

def loadEntry (domainCertsDir : Text) (byName : Map Text Certified) (entry : CertificateEntry) :
    Except TlsError (Map Text Certified) :=
  match entry.pair domainCertsDir with
  | none => .ok byName
  | some (domain, pair) => do
      let key ← certifiedKeyFromPaths pki pair
      .ok (byName.insert domain.toAsciiLowercase key)

structure DomainCertificateResolver (Certified : Type) where
  fallback : Certified
  byName : Map Text Certified

namespace DomainCertificateResolver

def load (domainCertsDir : Text) (listing : Listing) (fallback : Certified) :
    Except TlsError (DomainCertificateResolver Certified) := do
  let byName ← listing.entries.foldlM (loadEntry pki domainCertsDir) ∅
  .ok ⟨fallback, byName⟩

def resolve (resolver : DomainCertificateResolver Certified) (serverName : Option Text) :
    Option Certified :=
  (serverName.bind fun name => resolver.byName.lookup name.toAsciiLowercase).or
    (some resolver.fallback)

end DomainCertificateResolver

def serverConfigWithDomainCerts (domainCertsDir : Text) (bundle : CertificatePair)
    (listing : Listing) : Except TlsError (DomainCertificateResolver Certified) := do
  let fallbackKey ← certifiedKeyFromPaths pki bundle
  DomainCertificateResolver.load pki domainCertsDir listing fallbackKey

/-! ### What the directories are for -/

def CertificateEntry.usableKey (domainCertsDir : Text) (entry : CertificateEntry) :
    Option (Text × Certified) := do
  let (domain, pair) ← entry.pair domainCertsDir
  let key ← (certifiedKeyFromPaths pki pair).toOption
  some (domain.toAsciiLowercase, key)

def certificateFor (domainCertsDir : Text) (listing : Listing) (fallback : Certified)
    (serverName : Option Text) : Certified :=
  ((serverName.bind fun name =>
    lastWith Prod.fst (listing.entries.filterMap (CertificateEntry.usableKey pki domainCertsDir))
      name.toAsciiLowercase).map Prod.snd).getD fallback

def AllUsable (domainCertsDir : Text) (listing : Listing) : Prop :=
  ∀ entry ∈ listing.entries, ∀ domain pair, entry.pair domainCertsDir = some (domain, pair) →
    ∃ key, certifiedKeyFromPaths pki pair = .ok key

/-! ### The loop -/

variable {pki} {domainCertsDir : Text}

lemma loadEntry_eq_ok {byName byName' : Map Text Certified} {entry : CertificateEntry} :
    loadEntry pki domainCertsDir byName entry = .ok byName' ↔
      (entry.pair domainCertsDir = none ∧ byName' = byName) ∨
      ∃ domain pair key, entry.pair domainCertsDir = some (domain, pair) ∧
        certifiedKeyFromPaths pki pair = .ok key ∧
        byName' = byName.insert domain.toAsciiLowercase key := by
  rw [loadEntry]
  cases hpair : entry.pair domainCertsDir with
  | none => simp [eq_comm]
  | some found =>
    obtain ⟨domain, pair⟩ := found
    dsimp only
    cases hkey : certifiedKeyFromPaths pki pair with
    | error error => simp [bind, Except.bind, hkey]
    | ok key =>
      rw [ok_bind]
      simp [hkey, eq_comm]

lemma exists_loadEntry_iff (byName : Map Text Certified) (entry : CertificateEntry) :
    (∃ byName', loadEntry pki domainCertsDir byName entry = .ok byName') ↔
      ∀ domain pair, entry.pair domainCertsDir = some (domain, pair) →
        ∃ key, certifiedKeyFromPaths pki pair = .ok key := by
  simp only [loadEntry_eq_ok]
  constructor
  · rintro ⟨byName', ⟨hnone, -⟩ | ⟨domain, pair, key, hpair, hkey, -⟩⟩ domain' pair' hpair'
    · rw [hnone] at hpair'
      cases hpair'
    · rw [hpair] at hpair'
      cases hpair'
      exact ⟨key, hkey⟩
  · intro h
    cases hpair : entry.pair domainCertsDir with
    | none => exact ⟨byName, .inl ⟨rfl, rfl⟩⟩
    | some found =>
      obtain ⟨key, hkey⟩ := h found.1 found.2 hpair
      exact ⟨_, .inr ⟨found.1, found.2, key, rfl, hkey, rfl⟩⟩

lemma lookup_of_foldlM {entries : List CertificateEntry} {byName byName' : Map Text Certified}
    (h : entries.foldlM (loadEntry pki domainCertsDir) byName = .ok byName') (name : Text) :
    byName'.lookup name =
      ((lastWith Prod.fst (entries.filterMap (CertificateEntry.usableKey pki domainCertsDir))
        name).map Prod.snd).or (byName.lookup name) := by
  induction entries generalizing byName with
  | nil =>
    obtain rfl : byName = byName' := Except.ok.inj h
    rfl
  | cons entry entries ih =>
    obtain ⟨byName₁, hentry, hrest⟩ := foldlM_eq_ok_cons.mp h
    rw [ih hrest]
    rcases loadEntry_eq_ok.mp hentry with ⟨hnone, rfl⟩ | ⟨domain, pair, key, hpair, hkey, rfl⟩
    · have hskip : entry.usableKey pki domainCertsDir = none := by
        rw [CertificateEntry.usableKey, hnone]
        rfl
      rw [List.filterMap_cons_none hskip]
    · have hadd : entry.usableKey pki domainCertsDir = some (domain.toAsciiLowercase, key) := by
        rw [CertificateEntry.usableKey, hpair, Option.bind_eq_bind, Option.bind_some]
        simp [hkey, Except.toOption]
      rw [List.filterMap_cons_some hadd, ← List.singleton_append, lastWith_append,
        Option.map_or, Option.or_assoc]
      congr 1
      -- the new key stands under its own name alone
      by_cases hname : name = domain.toAsciiLowercase
      · subst hname
        simp [lastWith]
      · rw [AList.lookup_insert_ne hname]
        simp [lastWith, Ne.symm hname]

theorem exists_load_iff (listing : Listing) (fallback : Certified) :
    (∃ resolver, DomainCertificateResolver.load pki domainCertsDir listing fallback =
      .ok resolver) ↔ AllUsable pki domainCertsDir listing := by
  rw [AllUsable, ← exists_foldlM_eq_ok exists_loadEntry_iff (b := ∅),
    DomainCertificateResolver.load]
  cases listing.entries.foldlM (loadEntry pki domainCertsDir) ∅ with
  | error error => simp [bind, Except.bind]
  | ok byName => simp [bind, Except.bind]

lemma resolve_of_load {listing : Listing} {fallback : Certified}
    {resolver : DomainCertificateResolver Certified}
    (h : DomainCertificateResolver.load pki domainCertsDir listing fallback = .ok resolver)
    (serverName : Option Text) :
    resolver.resolve serverName =
      some (certificateFor pki domainCertsDir listing fallback serverName) := by
  rw [DomainCertificateResolver.load] at h
  cases hloop : listing.entries.foldlM (loadEntry pki domainCertsDir) ∅ with
  | error error =>
    rw [hloop] at h
    cases h
  | ok byName =>
    rw [hloop, ok_bind] at h
    obtain rfl := Except.ok.inj h
    rw [DomainCertificateResolver.resolve, certificateFor]
    cases serverName with
    | none => rfl
    | some name =>
      rw [Option.bind_some, Option.bind_some, lookup_of_foldlM hloop, AList.lookup_empty,
        Option.or_none]
      generalize lastWith Prod.fst _ name.toAsciiLowercase = own
      cases own with
      | none => rfl
      | some found => rfl

variable (pki domainCertsDir) in
/-- **The resolver serves every name its certificate exactly if no directory holds a pair that
cannot be used**: one such pair takes the certificates of all other domains with it. -/
theorem dedicated_certificates_served_iff (listing : Listing) (fallback : Certified) :
    (∃ resolver, DomainCertificateResolver.load pki domainCertsDir listing fallback =
        .ok resolver ∧
      ∀ serverName, resolver.resolve serverName =
        some (certificateFor pki domainCertsDir listing fallback serverName)) ↔
      AllUsable pki domainCertsDir listing := by
  rw [← exists_load_iff listing fallback]
  constructor
  · rintro ⟨resolver, hload, -⟩
    exact ⟨resolver, hload⟩
  · rintro ⟨resolver, hload⟩
    exact ⟨resolver, hload, resolve_of_load hload⟩

end Load

/-! ### One broken directory -/

def oneItemPki : Pki (List UInt8) (List UInt8) (List UInt8) where
  certs := fun data => .ok (if data = [] then [] else [data])
  privateKey := fun data => .ok (if data = [] then none else some data)
  fromDer := fun certs _ =>
    match certs with
    | [] => .error "NoCertificatesPresented"
    | cert :: _ => .ok cert

def emptyKeyListing : Listing :=
  some
    [some ⟨some "a.com", true, some (.bytes [1]), some (.bytes [2])⟩,
      some ⟨some "b.com", true, some (.bytes [3]), some (.bytes [])⟩]

/-- The first domain has a usable pair, and no resolver serves it. -/
theorem empty_key_removes_other :
    certificateFor oneItemPki "/certs/domains".toList emptyKeyListing [0]
        (some "a.com".toList) = [1] ∧
      ¬ ∃ resolver, DomainCertificateResolver.load oneItemPki "/certs/domains".toList
          emptyKeyListing [0] = .ok resolver ∧
        ∀ serverName, resolver.resolve serverName =
          some (certificateFor oneItemPki "/certs/domains".toList emptyKeyListing [0]
            serverName) := by
  refine ⟨by decide, ?_⟩
  rintro ⟨resolver, hload, -⟩
  have herror : DomainCertificateResolver.load oneItemPki "/certs/domains".toList
      emptyKeyListing [0] = .error .missingPrivateKey := rfl
  rw [herror] at hload
  cases hload

end PxxlEdge
