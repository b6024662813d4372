import PxxlEdge.Lib.Http
import PxxlEdge.Lib.IpAddr

/-!
URLs, as the `url` crate gives them to a program: a parser, which is a
parameter, and the record it returns.  A host is a name, an IPv4 address or an
IPv6 address, whatever the text it was written as; as a string, an IPv6 host
stands in brackets.
-/

namespace RustStd

open Http

inductive Host where
  | domain (name : Text)
  | ipv4 (ip : Ipv4Addr)
  | ipv6 (ip : Ipv6Addr)
deriving DecidableEq, Repr

structure Url where
  scheme : Text
  username : Text := []
  password : Option Text := none
  host : Option Host := none
  port : Option ℕ := none
  fragment : Option Text := none
deriving DecidableEq, Repr

def Url.portOrKnownDefault (u : Url) : Option ℕ :=
  u.port.orElse fun _ =>
    if u.scheme = "http" ∨ u.scheme = "ws" then some 80
    else if u.scheme = "https" ∨ u.scheme = "wss" then some 443
    else if u.scheme = "ftp" then some 21
    else none

structure UrlParser where
  parse : Text → Except Text Url
  ipv6Text : Ipv6Addr → Text

namespace UrlParser

variable (U : UrlParser)

def hostStr (u : Url) : Option Text :=
  u.host.map fun
    | .domain name => name
    | .ipv4 ip => ip.display
    | .ipv6 ip => '[' :: U.ipv6Text ip ++ "]"

def normalHost (host : Text) : Text := (host.trimEndMatches '.').toAsciiLowercase

end UrlParser

lemma toDigits_octet_lower : ∀ n < 256, (Nat.toDigits 10 n).map Char.toLower = Nat.toDigits 10 n ∧
    '.' ∉ Nat.toDigits 10 n := by
  decide +kernel

lemma normalHost_display (ip : Ipv4Addr) : UrlParser.normalHost ip.display = ip.display := by
  have hlower := fun (x : UInt8) => (toDigits_octet_lower _ x.toNat_lt).1
  have htrim : ip.display.trimEndMatches '.' = ip.display := by
    rw [Text.trimEndMatches, List.rdropWhile_eq_self_iff]
    intro hne hdot
    -- the last character is a digit of the last octet
    have hnil : Nat.toDigits 10 ip.d.toNat ≠ [] := (toDigits_octet _ ip.d.toNat_lt).1
    have hlast : ip.display.getLast hne = (Nat.toDigits 10 ip.d.toNat).getLast hnil := by
      simp [Ipv4Addr.display, List.getLast_cons, hnil]
    rw [hlast, beq_iff_eq] at hdot
    exact (toDigits_octet_lower _ ip.d.toNat_lt).2 (hdot ▸ List.getLast_mem hnil)
  rw [UrlParser.normalHost, htrim, Text.toAsciiLowercase]
  simp [Ipv4Addr.display, hlower]

lemma parseIp_normalHost_ipv4 (ip : Ipv4Addr) :
    parseIp (UrlParser.normalHost ip.display) = some (.v4 ip) := by
  rw [normalHost_display, parseIp_display_v4]

lemma normalHost_bracket (t : Text) :
    UrlParser.normalHost ('[' :: t ++ "]") = '[' :: t.toAsciiLowercase ++ "]" := by
  have htrim : Text.trimEndMatches '.' ('[' :: t ++ "]") = '[' :: t ++ "]" := by
    rw [Text.trimEndMatches, List.rdropWhile_eq_self_iff]
    intro hne
    simp
  rw [UrlParser.normalHost, htrim]
  simp [Text.toAsciiLowercase]

lemma parseIp_normalHost_ipv6 (t : Text) :
    parseIp (UrlParser.normalHost ('[' :: t ++ "]")) = none := by
  rw [normalHost_bracket]
  exact parseIp_bracket _

/-! ### A parser that runs -/

def parseHostText (t : Text) : Option (Host × Text) :=
  match t with
  | '[' :: rest => do
      let (inner, after) ← Text.splitOnce ']' rest
      match parseIp inner with
      | some (.v6 ip) => some (.ipv6 ip, after)
      | _ => none
  | _ =>
    let name : Text := t.takeWhile (· != ':')
    if name = [] then none
    else
      match parseIp name with
      | some (.v4 ip) => some (.ipv4 ip, t.dropWhile (· != ':'))
      | _ => some (.domain name.toAsciiLowercase, t.dropWhile (· != ':'))

def parsePortText : Text → Option (Option ℕ)
  | [] => some none
  | ':' :: digits =>
    if digits ≠ [] ∧ digits.all Char.isDigit then
      some (some (digits.foldl (fun n c => n * 10 + (c.toNat - 48)) 0))
    else none
  | _ => none

def UrlParser.basic : UrlParser where
  ipv6Text := Ipv6Addr.display
  parse s :=
    match splitScheme s with
    | none => .error "relative URL without a base"
    | some (scheme, rest) =>
      let authority := rest.takeWhile fun c => c != '/' && c != '?' && c != '#'
      let (user, server) := (Text.rsplitOnce '@' authority).getD ([], authority)
      match parseHostText server with
      | none => .error "empty host"
      | some (host, after) =>
        match parsePortText after with
        | none => .error "invalid port number"
        | some port =>
          .ok
            { scheme := scheme.toAsciiLowercase
              username := user.takeWhile (· != ':')
              password := (Text.splitOnce ':' user).map Prod.snd
              host := some host
              port
              fragment := (Text.splitOnce '#' rest).map Prod.snd }

example : UrlParser.basic.parse "http://[::1]:8080/x" =
    .ok { scheme := "http", host := some (.ipv6 ⟨0, 0, 0, 0, 0, 0, 0, 1⟩), port := some 8080 } := by
  decide

end RustStd
