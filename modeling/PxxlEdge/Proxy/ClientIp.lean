import PxxlEdge.Lib.Http
import PxxlEdge.Lib.IpAddr

/-!
The client address that blocking, rate limiting and allow lists work with: the
address of the peer, or, behind a trusted proxy, the one its headers name.
-/

namespace PxxlEdge

open RustStd Http

def isPublicClientIp : IpAddr → Bool
  | .v4 ip =>
    !ip.isPrivate && !ip.isLoopback && !ip.isLinkLocal && !ip.isBroadcast &&
      !ip.isDocumentation && !ip.isUnspecified
  | .v6 ip =>
    let uniqueLocal := ip.s₀ &&& 0xfe00 == 0xfc00
    let linkLocal := ip.s₀ &&& 0xffc0 == 0xfe80
    !ip.isLoopback && !ip.isMulticast && !ip.isUnspecified && !uniqueLocal && !linkLocal

def publicOnly (ip : IpAddr) : Option IpAddr := if isPublicClientIp ip then some ip else none

def parseForwardedIpValue (value : Text) : Option IpAddr :=
  let value := ((value.trim.trimMatches '"').trimMatches '[').trimMatches ']'
  if value = [] ∨ value.eqIgnoreAsciiCase "unknown" ∨ value.startsWith "_" then none
  else
    match parseIp value with
    | some ip => publicOnly ip
    | none =>
      match Text.rsplitOnce ':' value with
      | some (host, _) =>
        (parseIp ((host.trim.trimMatches '[').trimMatches ']')).bind publicOnly
      | none => none

def parseXForwardedFor (value : Text) : Option IpAddr :=
  (value.splitOn ',').findSome? parseForwardedIpValue

def parseForwardedHeader (value : Text) : Option IpAddr :=
  (value.splitOn ',').findSome? fun segment =>
    (segment.splitOn ';').findSome? fun pair => do
      let (name, rawValue) ← Text.splitOnce '=' (Text.trim pair)
      if name.trim.eqIgnoreAsciiCase "for" then parseForwardedIpValue rawValue else none

variable (G : Grammar)

def headerIp (headers : HeaderMap) (name : Text) (parse : Text → Option IpAddr) :
    Option IpAddr := do
  let value ← headers.get name
  let text ← G.toStr value
  parse text

def singleIpHeaders : List Text := ["cf-connecting-ip", "x-real-ip", "true-client-ip"]

def forwardedClientIp (headers : HeaderMap) : Option IpAddr :=
  (singleIpHeaders.findSome? fun name => headerIp G headers name parseForwardedIpValue) <|>
    headerIp G headers "x-forwarded-for" parseXForwardedFor <|>
    headerIp G headers "forwarded" parseForwardedHeader

structure TrustedClientIpConfig where
  cidrs : List IpNet := []
deriving DecidableEq, Repr

def TrustedClientIpConfig.trustedPeer (trusted : TrustedClientIpConfig) (peer : IpAddr) : Bool :=
  trusted.cidrs.any fun network => network.contains peer

def resolveEffectiveClientIp (headers : HeaderMap) (peer : Option IpAddr)
    (trusted : TrustedClientIpConfig) : Option IpAddr := do
  let peer ← peer
  if trusted.trustedPeer peer then forwardedClientIp G headers <|> some peer else some peer

/-! ### What a list of forwarded addresses yields -/

lemma parseForwardedIpValue_ws {ws : Text} (h : ∀ c ∈ ws, Text.isWhitespace c = true) (t : Text) :
    parseForwardedIpValue (ws ++ t) = parseForwardedIpValue t := by
  rw [parseForwardedIpValue, parseForwardedIpValue, Text.trim_append_of_all_ws h]

lemma parseXForwardedFor_append {ws t : Text} (hws : ∀ c ∈ ws, Text.isWhitespace c = true)
    (ht : ',' ∉ t) (list : Text) :
    parseXForwardedFor (list ++ ',' :: (ws ++ t)) =
      (parseXForwardedFor list <|> parseForwardedIpValue t) := by
  have hcomma : ',' ∉ ws ++ t := by
    rw [List.mem_append, not_or]
    exact ⟨fun h => by simpa [Text.isWhitespace] using hws _ h, ht⟩
  rw [parseXForwardedFor, List.splitOn_append_cons_self, List.findSome?_append,
    List.splitOn_eq_singleton hcomma, ← parseXForwardedFor]
  simp [parseForwardedIpValue_ws hws]

def appendedList (client : Option HeaderValue) (separator address : HeaderValue) : HeaderValue :=
  match client with
  | some list => list ++ separator ++ address
  | none => address

def appendedIp (client : Option HeaderValue) (a : IpAddr) : Option IpAddr :=
  match client with
  | some list => (G.toStr list).map fun l => (parseXForwardedFor l).getD a
  | none => some a

lemma headerIp_appendedList {headers : HeaderMap} {client : Option HeaderValue}
    {separator address : HeaderValue} {ws t : Text} {a : IpAddr}
    (hxff : headers.get "x-forwarded-for" = some (appendedList client separator address))
    (hsep : G.toStr separator = some (',' :: ws)) (hws : ∀ c ∈ ws, Text.isWhitespace c = true)
    (haddr : G.toStr address = some t) (ht : ',' ∉ t) (ha : parseForwardedIpValue t = some a) :
    headerIp G headers "x-forwarded-for" parseXForwardedFor = appendedIp G client a := by
  rw [headerIp, hxff]
  cases client with
  | none =>
    have hone : parseXForwardedFor t = some a := by
      rw [parseXForwardedFor, List.splitOn_eq_singleton ht]
      simp [ha]
    simp [appendedList, appendedIp, haddr, hone]
  | some list =>
    change (G.toStr (list ++ separator ++ address)).bind parseXForwardedFor = _
    rw [G.toStr_append, G.toStr_append, hsep, haddr, appendedIp]
    cases G.toStr list with
    | none => rfl
    | some l =>
      have happ := parseXForwardedFor_append hws ht l
      rw [ha] at happ
      cases hl : parseXForwardedFor l with
      | none => simpa [hl] using happ
      | some ip => simpa [hl] using happ

/-- **The client address behind an appending proxy.**  A trusted peer appends its
client's public address `a` to the `X-Forwarded-For` list its client sent, and no
other header names an address.  The client address is then the first public
address of the list the client sent; it is `a` when that list has none, and the
address of the peer when the list is not text. -/
theorem resolve_appended (headers : HeaderMap) (trusted : TrustedClientIpConfig) (peer a : IpAddr)
    (client : Option HeaderValue) (separator address : HeaderValue) (ws t : Text)
    (htrusted : trusted.trustedPeer peer = true)
    (hsingle : ∀ n ∈ singleIpHeaders, headers.get n = none)
    (hforwarded : headers.get "forwarded" = none)
    (hxff : headers.get "x-forwarded-for" = some (appendedList client separator address))
    (hsep : G.toStr separator = some (',' :: ws)) (hws : ∀ c ∈ ws, Text.isWhitespace c = true)
    (haddr : G.toStr address = some t) (ht : ',' ∉ t) (ha : parseForwardedIpValue t = some a) :
    resolveEffectiveClientIp G headers (some peer) trusted =
        some ((appendedIp G client a).getD peer) ∧
      (resolveEffectiveClientIp G headers (some peer) trusted = some a ↔
        ∀ list, client = some list →
          (G.toStr list = none → peer = a) ∧
          ∀ ip, (G.toStr list).bind parseXForwardedFor = some ip → ip = a) := by
  have hskip : ∀ (n : Text) (parse : Text → Option IpAddr), headers.get n = none →
      headerIp G headers n parse = none := by
    intro n parse hn
    simp [headerIp, hn]
  have hfirst : (singleIpHeaders.findSome? fun name =>
      headerIp G headers name parseForwardedIpValue) = none :=
    List.findSome?_eq_none_iff.mpr fun n hn => hskip n _ (hsingle n hn)
  have hresolve : resolveEffectiveClientIp G headers (some peer) trusted =
      some ((appendedIp G client a).getD peer) := by
    change (if trusted.trustedPeer peer = true then _ else _) = _
    rw [if_pos htrusted, forwardedClientIp, hfirst, hskip _ _ hforwarded,
      headerIp_appendedList G hxff hsep hws haddr ht ha]
    cases appendedIp G client a <;> rfl
  refine ⟨hresolve, ?_⟩
  rw [hresolve, Option.some.injEq]
  cases client with
  | none => simp [appendedIp]
  | some list =>
    cases hl : G.toStr list with
    | none => simp [appendedIp, hl]
    | some l =>
      cases hip : parseXForwardedFor l with
      | none => simp [appendedIp, hl, hip]
      | some ip => simp [appendedIp, hl, hip]

def appendedHeaders (client : HeaderValue) : HeaderMap :=
  ⟨[("x-forwarded-for",
    appendedList (some client) (.fromStatic ", ") (.fromStatic "1.1.1.1"))]⟩

def trustedNet : TrustedClientIpConfig := ⟨[⟨.v4 ⟨10, 88, 0, 0⟩, 24⟩]⟩

theorem resolve_appended_private_entry :
    trustedNet.trustedPeer (.v4 ⟨10, 88, 0, 31⟩) = true ∧
      resolveEffectiveClientIp .http1 (appendedHeaders (.fromStatic "10.0.0.7"))
        (some (.v4 ⟨10, 88, 0, 31⟩)) trustedNet = some (.v4 ⟨1, 1, 1, 1⟩) := by
  refine ⟨by decide, ?_⟩
  have h := (resolve_appended .http1 (appendedHeaders (.fromStatic "10.0.0.7")) trustedNet
    (.v4 ⟨10, 88, 0, 31⟩) (.v4 ⟨1, 1, 1, 1⟩) (some (.fromStatic "10.0.0.7")) (.fromStatic ", ")
    (.fromStatic "1.1.1.1") " ".toList "1.1.1.1".toList (by decide) (by decide) (by decide) rfl
    (by decide) (List.forall_mem_singleton.mpr (by decide)) (by decide) (by decide)
    (by decide)).1
  rw [h]
  decide

/-- A client that sends a public address of its own choice is taken for it. -/
theorem client_chooses_address :
    trustedNet.trustedPeer (.v4 ⟨10, 88, 0, 31⟩) = true ∧
      parseForwardedIpValue "1.1.1.1" = some (.v4 ⟨1, 1, 1, 1⟩) ∧
      resolveEffectiveClientIp .http1 (appendedHeaders (.fromStatic "8.8.8.8"))
        (some (.v4 ⟨10, 88, 0, 31⟩)) trustedNet = some (.v4 ⟨8, 8, 8, 8⟩) := by
  decide

end PxxlEdge
