import PxxlEdge.Common.Validate
import PxxlEdge.Control.Certificates
import PxxlEdge.Tls.Resolver

/-!
The directories of certificates: the names that the API gives them (`safe_domain_cert_name`), and
the names under which the TLS listener looks them up.
-/

namespace PxxlEdge

open RustStd List

def LiesIn (dir path : Text) : Prop :=
  ∃ names : List Text, path = names.foldl joinPath dir ∧
    ∀ name ∈ names, '/' ∉ name ∧ name ≠ "." ∧ name ≠ ".."

/-! ### Names -/

lemma not_mem_safeDomainCertName (domain : Text) : '/' ∉ safeDomainCertName domain := by
  rw [safeDomainCertName, mem_map]
  rintro ⟨c, -, hc⟩
  split_ifs at hc with hsafe
  · obtain rfl := Text.eq_of_toLower_eq (k := '/') (by decide) hc
    exact absurd hsafe (by decide)
  · cases hc

lemma getLast?_safeDomainCertName (domain : Text) :
    (safeDomainCertName (normalizeDomain domain)).getLast? ≠ some '.' := by
  intro hlast
  rw [safeDomainCertName, getLast?_map, Option.map_eq_some_iff] at hlast
  obtain ⟨c, hc, hdot⟩ := hlast
  have hends : (normalizeDomain domain).endsWith "." = false := by
    rw [normalizeDomain, ← Text.trimEndMatches_toAsciiLowercase (by decide) (by decide)]
    exact Text.endsWith_trimEndMatches '.' _
  obtain ⟨init, hinit⟩ := getLast?_eq_some_iff.mp hc
  split_ifs at hdot
  · obtain rfl := Text.eq_of_toLower_eq (k := '.') (by decide) hdot
    have hsuffix : (normalizeDomain domain).endsWith "." = true :=
      isSuffixOf_iff_suffix.mpr ⟨init, hinit.symm⟩
    rw [hsuffix] at hends
    cases hends
  · cases hdot

lemma liesIn_domains {certDir domain file : Text} (hfile : '/' ∉ file ∧ file ≠ "." ∧ file ≠ "..") :
    LiesIn (joinPath certDir "domains") (joinPath (joinPath (joinPath certDir "domains")
      (safeDomainCertName (normalizeDomain domain))) file) := by
  refine ⟨[safeDomainCertName (normalizeDomain domain), file], rfl, ?_⟩
  have hlast := getLast?_safeDomainCertName domain
  rw [forall_mem_cons, forall_mem_singleton]
  refine ⟨⟨not_mem_safeDomainCertName _, ?_, ?_⟩, hfile⟩
  · intro hdot
    exact hlast (hdot ▸ rfl)
  · intro hdots
    exact hlast (hdots ▸ rfl)

section Valid

variable {domain : Text} (h : validateDomainName domain = .ok ())

include h

lemma safeDomainCertName_of_valid :
    safeDomainCertName (normalizeDomain domain) = normalizeDomain domain := by
  have hascii : ∀ n < 128, Char.ofNat n = '.' ∨ IsLabelChar (Char.ofNat n) →
      safeDomainCertName [Char.ofNat n] = [(Char.ofNat n).toLower] := by
    decide
  refine (map_congr_left fun c hc => ?_).trans (map_id _)
  have hlabel := isLabelChar_of_validateDomainName h hc
  have hlt : c.toNat < 128 := by
    rcases hlabel with rfl | hlabel
    · decide
    · rw [IsLabelChar] at hlabel
      omega
  have hsafe := hascii c.toNat hlt (by rwa [Char.ofNat_toNat])
  obtain ⟨c', -, rfl⟩ := mem_map.mp hc
  rw [Char.ofNat_toNat, Text.toLower_toLower] at hsafe
  exact singleton_inj.mp hsafe

lemma joinPath_valid (certDir file : Text) :
    joinPath (joinPath (joinPath certDir "domains")
        (safeDomainCertName (normalizeDomain domain))) file =
      joinPath certDir "domains" ++ "/" ++ normalizeDomain domain ++ "/" ++ file := by
  have hjoin : ∀ {dir : Text} {c : Char} (name : Text), dir.getLast? = some c → c ≠ '/' →
      joinPath dir name = dir ++ "/" ++ name := by
    intro dir c name hlast hc
    rw [joinPath, if_neg, append_assoc]
    · rfl
    · rintro (rfl | hslash)
      · cases hlast
      · exact hc (Option.some.inj (hlast.symm.trans hslash))
  have hdomains : (joinPath certDir "domains").getLast? = some 's' := by
    rw [joinPath]
    split_ifs <;> simp
  obtain ⟨c, hc⟩ := Option.ne_none_iff_exists'.mp
    (mt getLast?_eq_none_iff.mp (ne_nil_of_validateDomainName h))
  have hslash : c ≠ '/' := by
    rintro rfl
    have hmem := safeDomainCertName_of_valid h ▸ mem_of_getLast? hc
    exact not_mem_safeDomainCertName _ hmem
  rw [safeDomainCertName_of_valid h, hjoin _ hdomains (by decide), hjoin file _ hslash]
  rw [getLast?_append, hc]
  rfl

end Valid

/-! ### The lookup -/

lemma lastWith_eq_some_of_unique {α κ : Type} [DecidableEq κ] {key : α → κ} {l : List α} {x : α}
    (hx : x ∈ l) (hunique : ∀ y ∈ l, key y = key x → y = x) :
    lastWith key l (key x) = some x := by
  have hfilter : x ∈ l.filter fun y => key y = key x := mem_filter.mpr ⟨hx, by simp⟩
  obtain ⟨y, hy⟩ := Option.ne_none_iff_exists'.mp
    (mt getLast?_eq_none_iff.mp (ne_nil_of_mem hfilter))
  obtain ⟨hmem, hkey⟩ := mem_filter.mp (mem_of_getLast? hy)
  rw [lastWith, hy, hunique y hmem (of_decide_eq_true hkey)]

lemma name_of_usableKey {Cert Key Certified : Type} {pki : Pki Cert Key Certified} {dir : Text}
    {entry : CertificateEntry} {found : Text × Certified}
    (h : entry.usableKey pki dir = some found) :
    entry.name.map Text.toAsciiLowercase = some found.1 := by
  rw [CertificateEntry.usableKey, Option.bind_eq_bind, Option.bind_eq_some_iff] at h
  obtain ⟨⟨name, pair⟩, hpair, hfound⟩ := h
  obtain ⟨key, -, hkey⟩ := Option.bind_eq_some_iff.mp hfound
  obtain rfl := Option.some.inj hkey
  rw [CertificateEntry.pair] at hpair
  split_ifs at hpair
  split at hpair
  · next hname _ _ =>
    cases hpair
    rw [hname, Option.map_some]
  · cases hpair

def ownEntry (domain : Text) (fullchain privkey : PemFile) : CertificateEntry :=
  ⟨some (safeDomainCertName (normalizeDomain domain)), true, some fullchain, some privkey⟩

def ServesOwn {Cert Key Certified : Type} (pki : Pki Cert Key Certified) (certDir domain : Text)
    (fullchain privkey : PemFile) (resolver : DomainCertificateResolver Certified) : Prop :=
  ∃ key, certifiedKeyFromPaths pki ⟨domainCertificatePath certDir (normalizeDomain domain),
      fullchain, domainPrivateKeyPath certDir (normalizeDomain domain), privkey⟩ = .ok key ∧
    ∀ serverName : Text, serverName.toAsciiLowercase = normalizeDomain domain →
      resolver.resolve (some serverName) = some key

lemma servesOwn_of_load {Cert Key Certified : Type} {pki : Pki Cert Key Certified}
    {certDir domain : Text} {listing : Listing} {fallback : Certified}
    {resolver : DomainCertificateResolver Certified} {fullchain privkey : PemFile}
    (hload : DomainCertificateResolver.load pki (joinPath certDir "domains") listing fallback =
      .ok resolver)
    (h : validateDomainName domain = .ok ())
    (hentry : ownEntry domain fullchain privkey ∈ listing.entries)
    (hunique : ∀ entry ∈ listing.entries, entry.name.map Text.toAsciiLowercase =
      some (normalizeDomain domain) → entry = ownEntry domain fullchain privkey) :
    ServesOwn pki certDir domain fullchain privkey resolver := by
  have hlower : (normalizeDomain domain).toAsciiLowercase = normalizeDomain domain := by
    rw [normalizeDomain, Text.toAsciiLowercase_toAsciiLowercase]
  have hpair : (ownEntry domain fullchain privkey).pair (joinPath certDir "domains") =
      some (normalizeDomain domain, ⟨domainCertificatePath certDir (normalizeDomain domain),
        fullchain, domainPrivateKeyPath certDir (normalizeDomain domain), privkey⟩) := by
    rw [domainCertificatePath, domainPrivateKeyPath, joinPath_valid h, joinPath_valid h, ownEntry,
      safeDomainCertName_of_valid h, CertificateEntry.pair]
    simp
  obtain ⟨key, hkey⟩ := (exists_load_iff listing fallback).mp ⟨resolver, hload⟩ _ hentry _ _ hpair
  refine ⟨key, hkey, fun serverName hname => ?_⟩
  have husable : (ownEntry domain fullchain privkey).usableKey pki (joinPath certDir "domains") =
      some (normalizeDomain domain, key) := by
    rw [CertificateEntry.usableKey, hpair, Option.bind_eq_bind, Option.bind_some]
    simp [hkey, Except.toOption, hlower]
  have hlast : lastWith Prod.fst (listing.entries.filterMap
      (CertificateEntry.usableKey pki (joinPath certDir "domains"))) (normalizeDomain domain) =
      some (normalizeDomain domain, key) := by
    refine lastWith_eq_some_of_unique (x := (normalizeDomain domain, key))
      (mem_filterMap.mpr ⟨_, hentry, husable⟩) fun found hfound hsame => ?_
    obtain ⟨entry, hmem, hused⟩ := mem_filterMap.mp hfound
    rw [hunique entry hmem ((name_of_usableKey hused).trans (congrArg some hsame)),
      husable] at hused
    exact (Option.some.inj hused).symm
  rw [resolve_of_load hload, certificateFor, Option.bind_some, hname, hlast]
  rfl

/-- **Directories of certificates.**  Whatever text a domain is taken from, the files named for it
lie in the directory of the domains.  The directory of a valid domain is called like the domain
in its normal form, so two domains never share one, and a resolver serves the domain's own pair
under every spelling of this name, if no other directory is called like it. -/
theorem certificate_directories_own :
    (∀ certDir domain : Text,
        LiesIn (joinPath certDir "domains")
          (domainCertificatePath certDir (normalizeDomain domain)) ∧
        LiesIn (joinPath certDir "domains")
          (domainPrivateKeyPath certDir (normalizeDomain domain))) ∧
      (∀ domain, validateDomainName domain = .ok () →
        safeDomainCertName (normalizeDomain domain) = normalizeDomain domain) ∧
      (∀ domain domain', validateDomainName domain = .ok () → validateDomainName domain' = .ok () →
        safeDomainCertName (normalizeDomain domain) = safeDomainCertName (normalizeDomain domain') →
          normalizeDomain domain = normalizeDomain domain') ∧
      ∀ {Cert Key Certified : Type} (pki : Pki Cert Key Certified) (certDir domain : Text)
        (listing : Listing) (fallback : Certified) (resolver : DomainCertificateResolver Certified)
        (fullchain privkey : PemFile),
        DomainCertificateResolver.load pki (joinPath certDir "domains") listing fallback =
          .ok resolver → validateDomainName domain = .ok () →
        ownEntry domain fullchain privkey ∈ listing.entries →
        (∀ entry ∈ listing.entries, entry.name.map Text.toAsciiLowercase =
          some (normalizeDomain domain) → entry = ownEntry domain fullchain privkey) →
        ServesOwn pki certDir domain fullchain privkey resolver := by
  refine ⟨fun certDir domain => ⟨liesIn_domains (by decide), liesIn_domains (by decide)⟩,
    fun domain h => safeDomainCertName_of_valid h, fun domain domain' h h' hsame => ?_,
    fun pki certDir domain listing fallback resolver fullchain privkey hload h hentry hunique =>
      servesOwn_of_load hload h hentry hunique⟩
  rwa [safeDomainCertName_of_valid h, safeDomainCertName_of_valid h'] at hsame

end PxxlEdge
