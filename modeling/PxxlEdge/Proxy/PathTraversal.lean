import PxxlEdge.Common.CanonicalPath
import PxxlEdge.Proxy.Handle

/-!
The firewall against path traversal.  `canonicalize_path` decodes a path up to four
times before it drops the segments `..`; the firewall looks for marks in the path as it
was sent.
-/

namespace PxxlEdge

open RustStd Http List

def MeetsDots (path : Text) : Prop :=
  ∃ decoded, percentDecodeRounds 4 path = .ok decoded ∧
    "..".toList ∈ (slashed decoded).splitOn '/'

def structuralMarks : List String :=
  ["..", "%2e", "%252e", "%2f", "%252f", "%5c", "%255c", "\\", "//"]

def HasStructuralMark (path : Text) : Prop :=
  containsAny path.toAsciiLowercase structuralMarks = true

lemma hasStructuralMark_iff {path : Text} :
    HasStructuralMark path ↔ ∃ mark ∈ structuralMarks, mark.toList <:+: path.toAsciiLowercase := by
  simp only [HasStructuralMark, containsAny, any_eq_true, Text.contains, decide_eq_true_eq]

/-! ### A path that meets `..` -/

lemma ne_of_meetsDots {path q : Text} (h : canonicalizePath path = .ok q) (hdots : MeetsDots path) :
    path ≠ q := by
  rintro rfl
  obtain ⟨decoded, hdecoded, hmem⟩ := hdots
  have hplain : '%' ∉ path := fun hpercent => lt_irrefl _ (len_solid_lt h hpercent)
  have hcanonical := isCanonical_of_canonicalizePath h
  rw [percentDecodeRounds_of_stable (percentDecodeUtf8_of_not_mem hplain)] at hdecoded
  obtain rfl : path = decoded := Except.ok.inj hdecoded
  rw [slashed_of_isCanonical hcanonical] at hmem
  obtain ⟨segments, b, hsegments, rfl⟩ := hcanonical
  rw [splitOn_joinSegments fun s hs => (hsegments s hs).no_slash] at hmem
  rcases mem_append.mp hmem with hmem | hmem
  · rcases mem_cons.mp hmem with heq | hmem
    · cases heq
    · exact (hsegments _ hmem).ne_dots rfl
  · split at hmem
    · cases mem_singleton.mp hmem
    · cases hmem

/-! ### Encoded dots -/

def HasEncodedDot (bs : List UInt8) : Prop := [37, 50, 101] <:+: bs ∨ [37, 50, 69] <:+: bs

lemma HasEncodedDot.of_suffix {bs bs' : List UInt8} (h : HasEncodedDot bs) (hsuffix : bs <:+ bs') :
    HasEncodedDot bs' :=
  h.imp (fun h => h.trans hsuffix.isInfix) fun h => h.trans hsuffix.isInfix

lemma all_hexValue_lt : ∀ b, (hexValue b).all (fun v => v < 16) = true :=
  Text.forall_byte (by decide +kernel)

lemma hexValue_eq_two : ∀ b, hexValue b = some 2 → b = 50 := Text.forall_byte (by decide +kernel)

lemma hexValue_eq_fourteen : ∀ b, hexValue b = some 14 → b = 101 ∨ b = 69 :=
  Text.forall_byte (by decide +kernel)

lemma toNat_lt_of_hexValue {b v : UInt8} (h : hexValue b = some v) : v.toNat < 16 := by
  have hv := all_hexValue_lt b
  rw [h, Option.all_some, decide_eq_true_eq] at hv
  exact UInt8.lt_iff_toNat_lt.mp hv

lemma digits_of_dot {h l high low : UInt8} (hh : hexValue h = some high)
    (hl : hexValue l = some low)
    (hdot : ((high <<< 4) ||| low) = 46) : h = 50 ∧ (l = 101 ∨ l = 69) := by
  have hnibbles : ∀ n < 16, ∀ m < 16,
      ((UInt8.ofNat n <<< 4) ||| UInt8.ofNat m) = 46 → n = 2 ∧ m = 14 := by decide +kernel
  obtain ⟨hhigh, hlow⟩ := hnibbles high.toNat (toNat_lt_of_hexValue hh) low.toNat
    (toNat_lt_of_hexValue hl) (by rwa [UInt8.ofNat_toNat, UInt8.ofNat_toNat])
  obtain rfl : high = 2 := UInt8.toNat_inj.mp hhigh
  obtain rfl : low = 14 := UInt8.toNat_inj.mp hlow
  exact ⟨hexValue_eq_two h hh, hexValue_eq_fourteen l hl⟩

lemma head_of_dot {bs out : List UInt8} (h : PercentDecodes bs (46 :: out)) :
    HasEncodedDot bs ∨ ∃ bs', bs = 46 :: bs' ∧ PercentDecodes bs' out := by
  generalize hout : 46 :: out = dotted at h
  cases h with
  | nil => cases hout
  | literal hb h =>
    cases hout
    exact .inr ⟨_, rfl, h⟩
  | encoded hh hl h =>
    obtain ⟨hdot, -⟩ := List.cons.inj hout
    obtain ⟨rfl, rfl | rfl⟩ := digits_of_dot hh hl hdot.symm
    · exact .inl (.inl (prefix_append [37, 50, 101] _).isInfix)
    · exact .inl (.inr (prefix_append [37, 50, 69] _).isInfix)

lemma PercentDecodes.dots {bs out : List UInt8} (h : PercentDecodes bs out)
    (hdots : [46, 46] <:+: out) : [46, 46] <:+: bs ∨ HasEncodedDot bs := by
  induction h with
  | nil => simp at hdots
  | @literal b bs out hb h ih =>
    rcases infix_cons_iff.mp hdots with hdots | hdots
    · obtain ⟨rfl, rest, rfl⟩ := cons_prefix_cons.mp hdots
      rcases head_of_dot h with hencoded | ⟨bs', rfl, -⟩
      · exact .inr (hencoded.of_suffix (suffix_cons _ _))
      · exact .inl (prefix_append [46, 46] bs').isInfix
    · exact (ih hdots).imp (fun h => h.trans (suffix_cons _ _).isInfix)
        fun h => h.of_suffix (suffix_cons _ _)
  | @encoded h l high low bs out hh hl hbs ih =>
    rcases infix_cons_iff.mp hdots with hdots | hdots
    · obtain ⟨hdot, -⟩ := cons_prefix_cons.mp hdots
      have hdecodes := PercentDecodes.encoded hh hl hbs
      rw [← hdot] at hdecodes
      rcases head_of_dot hdecodes with hencoded | ⟨bs', hbs', -⟩
      · exact .inr hencoded
      · cases (List.cons.inj hbs').1
    · have hsuffix : bs <:+ 37 :: h :: l :: bs := suffix_append [37, h, l] bs
      exact (ih hdots).imp (fun h => h.trans hsuffix.isInfix) fun h => h.of_suffix hsuffix

lemma dots_of_slashed {decoded : Text} (h : ".." <:+: slashed decoded) :
    ".." <:+: decoded := by
  have hdot : ∀ c : Char, (if c = '\\' then '/' else c) = '.' → c = '.' := by
    intro c hc
    split at hc
    · cases hc
    · exact hc
  obtain ⟨front, back, heq⟩ := h
  obtain ⟨_, back', rfl, hfront, -⟩ := map_eq_append_iff.mp heq.symm
  obtain ⟨front', dots, rfl, -, hdots⟩ := map_eq_append_iff.mp hfront
  obtain ⟨c, _, rfl, hc, hrest⟩ := map_eq_cons_iff.mp hdots
  obtain ⟨d, _, rfl, hd, hnil⟩ := map_eq_cons_iff.mp hrest
  rw [hdot c hc, hdot d hd, map_eq_nil_iff.mp hnil]
  exact ⟨front', back', rfl⟩

lemma isInfix_toAsciiLowercase {t s : Text} (h : t <:+: s) :
    t.toAsciiLowercase <:+: s.toAsciiLowercase := h.map Char.toLower

lemma hasStructuralMark_of_decoded_once {path decoded : Text}
    (hround : percentDecodeUtf8 path = .ok decoded)
    (hstable : percentDecodeUtf8 decoded = .ok decoded) (hdots : MeetsDots path) :
    HasStructuralMark path := by
  obtain ⟨decoded', hdecoded', hmem⟩ := hdots
  obtain rfl : decoded = decoded' := by
    have hdecoded : percentDecodeRounds 4 path = .ok decoded :=
      percentDecodeRounds_succ.mpr ⟨decoded, hround, percentDecodeRounds_of_stable hstable 3⟩
    exact Except.ok.inj (hdecoded.symm.trans hdecoded')
  have hinfix : "..".toList <:+: decoded := dots_of_slashed (Text.isInfix_of_mem_splitOn hmem)
  have hbytes : [46, 46] <:+: decoded.asBytes := by
    obtain ⟨front, back, rfl⟩ := hinfix
    rw [Text.asBytes_append, Text.asBytes_append]
    exact ⟨_, _, rfl⟩
  rw [hasStructuralMark_iff]
  rcases (percentDecodeUtf8_eq_ok.mp hround).dots hbytes with hplain | hlower | hupper
  · have hin : "..".toList <:+: path := Text.isInfix_of_asBytes (by simp) (by decide) hplain
    exact ⟨"..", by decide, isInfix_toAsciiLowercase hin⟩
  · have hin : "%2e".toList <:+: path := Text.isInfix_of_asBytes (by simp) (by decide) hlower
    exact ⟨"%2e", by decide, isInfix_toAsciiLowercase hin⟩
  · have hin : "%2E".toList <:+: path := Text.isInfix_of_asBytes (by simp) (by decide) hupper
    exact ⟨"%2e", by decide, isInfix_toAsciiLowercase hin⟩

/-! ### The firewall -/

section Firewall

variable {G : Grammar} {req : Request G} {rules : DomainRules} {ctx : ProxyRequestContext}

lemma firstMet_cons_eq_some_self {α : Type} {c : Bool} {a : α} {rows : List (Bool × α)}
    (h : a ∉ rows.map Prod.snd) : firstMet ((c, a) :: rows) = some a ↔ c = true := by
  cases c with
  | true => simp [firstMet]
  | false =>
    refine iff_of_false ?_ (by simp)
    intro hmet
    rw [firstMet, find?_cons_of_neg (by simp)] at hmet
    obtain ⟨row, hrow, rfl⟩ := Option.map_eq_some_iff.mp hmet
    exact h (mem_map_of_mem (mem_of_find?_eq_some hrow))

lemma hasStructuralMark_of_containsAny {path : Text}
    (h : containsAny path.toAsciiLowercase ["../", "..\\", "%2e%2e", "%252e%252e"] = true) :
    HasStructuralMark path := by
  simp only [containsAny, any_cons, any_nil, Bool.or_eq_true, Text.contains,
    decide_eq_true_eq, Bool.or_false] at h
  rw [hasStructuralMark_iff]
  rcases h with h | h | h | h
  · exact ⟨"..", by decide, List.IsInfix.trans ⟨[], _, rfl⟩ h⟩
  · exact ⟨"..", by decide, List.IsInfix.trans ⟨[], _, rfl⟩ h⟩
  · exact ⟨"%2e", by decide, List.IsInfix.trans ⟨[], _, rfl⟩ h⟩
  · exact ⟨"%252e", by decide, List.IsInfix.trans ⟨[], _, rfl⟩ h⟩

/-- **Path traversal.**  Of the paths that `canonicalize_path` accepts and that meet `..`, the
firewall blocks exactly those that have a mark; all paths that are decoded in one round have
one. -/
theorem traversal_blocked_iff (req : Request G) (rules : DomainRules) (ctx : ProxyRequestContext)
    (henabled : rules.waf.enabled = true) (hblock : rules.waf.blockPathTraversal = true)
    (hpath : canonicalizePath req.uri.path = .ok ctx.path) (hdots : MeetsDots req.uri.path) :
    (staticWafRejectionReason req rules ctx = some "waf_path_traversal".toList ↔
        HasStructuralMark req.uri.path) ∧
      ∀ decoded, percentDecodeUtf8 req.uri.path = .ok decoded →
        percentDecodeUtf8 decoded = .ok decoded →
          staticWafRejectionReason req rules ctx = some "waf_path_traversal".toList := by
  have hreason : staticWafRejectionReason req rules ctx = some "waf_path_traversal".toList ↔
      HasStructuralMark req.uri.path := by
    rw [staticWafRejectionReason, if_pos henabled, staticWafChecks,
      firstMet_cons_eq_some_self (by simp only [map_cons, map_nil]; decide), hblock,
      Bool.true_and, Bool.or_eq_true,
      pathHadStructuralNormalization, bne_iff_ne.mpr (ne_of_meetsDots hpath hdots), Bool.true_and]
    exact ⟨fun h => h.elim hasStructuralMark_of_containsAny id, .inr⟩
  exact ⟨hreason, fun decoded hround hstable =>
    hreason.mpr (hasStructuralMark_of_decoded_once hround hstable hdots)⟩

end Firewall

def traversalRules : DomainRules := { waf := { enabled := true, blockPathTraversal := true } }

def traversalContext (req : Request .http1) (path : Text) : ProxyRequestContext :=
  targetContext sampleWorld sampleConnection req "a.io" path

def onceEncodedRequest : Request .http1 := sampleRequest "/a/%2e./secret" (by decide) []

/-- A path with one encoded dot is blocked. -/
theorem traversal_blocked_iff_once :
    canonicalizePath onceEncodedRequest.uri.path = .ok "/secret".toList ∧
      staticWafRejectionReason onceEncodedRequest traversalRules
        (traversalContext onceEncodedRequest "/secret") = some "waf_path_traversal".toList := by
  have hpath : canonicalizePath onceEncodedRequest.uri.path = .ok "/secret".toList := by
    decide +kernel
  have hdots : MeetsDots onceEncodedRequest.uri.path :=
    ⟨"/a/../secret".toList, by decide +kernel, by decide +kernel⟩
  exact ⟨hpath, (traversal_blocked_iff onceEncodedRequest traversalRules
    (traversalContext onceEncodedRequest "/secret") rfl rfl hpath hdots).2
      "/a/../secret".toList (by decide +kernel) (by decide +kernel)⟩

def deepEncodedRequest : Request .http1 :=
  sampleRequest "/a/%25252e%25252e/secret" (by decide) []

/-- Dots that are encoded three times lead out of their directory, and the firewall does not
see them. -/
theorem deep_dots_not_blocked :
    canonicalizePath deepEncodedRequest.uri.path = .ok "/secret".toList ∧
      MeetsDots deepEncodedRequest.uri.path ∧
      staticWafRejectionReason deepEncodedRequest traversalRules
        (traversalContext deepEncodedRequest "/secret") = none :=
  ⟨by decide +kernel, ⟨"/a/../secret".toList, by decide +kernel, by decide +kernel⟩,
    by decide +kernel⟩

end PxxlEdge
