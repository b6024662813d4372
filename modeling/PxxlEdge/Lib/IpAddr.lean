import PxxlEdge.Lib.Text

/-!
Internet addresses, as `std::net` has them: the address types with their
classification predicates, the text form (`Display`) and its parser
(`FromStr`), and CIDR networks.
-/

namespace RustStd

/-! ### Addresses and their classes -/

structure Ipv4Addr where
  a : UInt8
  b : UInt8
  c : UInt8
  d : UInt8
deriving DecidableEq, Repr

namespace Ipv4Addr

def isPrivate (ip : Ipv4Addr) : Bool :=
  ip.a == 10 || (ip.a == 172 && 16 ≤ ip.b && ip.b ≤ 31) || (ip.a == 192 && ip.b == 168)

def isLoopback (ip : Ipv4Addr) : Bool := ip.a == 127

def isLinkLocal (ip : Ipv4Addr) : Bool := ip.a == 169 && ip.b == 254

def isMulticast (ip : Ipv4Addr) : Bool := 224 ≤ ip.a && ip.a ≤ 239

def isBroadcast (ip : Ipv4Addr) : Bool := ip == ⟨255, 255, 255, 255⟩

def isUnspecified (ip : Ipv4Addr) : Bool := ip == ⟨0, 0, 0, 0⟩

def isDocumentation (ip : Ipv4Addr) : Bool :=
  (ip.a == 192 && ip.b == 0 && ip.c == 2) || (ip.a == 198 && ip.b == 51 && ip.c == 100) ||
    (ip.a == 203 && ip.b == 0 && ip.c == 113)

def toNat (ip : Ipv4Addr) : ℕ :=
  ((ip.a.toNat * 256 + ip.b.toNat) * 256 + ip.c.toNat) * 256 + ip.d.toNat

def display (ip : Ipv4Addr) : Text :=
  Nat.toDigits 10 ip.a.toNat ++ '.' :: (Nat.toDigits 10 ip.b.toNat ++
    '.' :: (Nat.toDigits 10 ip.c.toNat ++ '.' :: Nat.toDigits 10 ip.d.toNat))

end Ipv4Addr

structure Ipv6Addr where
  s₀ : UInt16
  s₁ : UInt16
  s₂ : UInt16
  s₃ : UInt16
  s₄ : UInt16
  s₅ : UInt16
  s₆ : UInt16
  s₇ : UInt16
deriving DecidableEq, Repr

namespace Ipv6Addr

def segments (ip : Ipv6Addr) : List UInt16 :=
  [ip.s₀, ip.s₁, ip.s₂, ip.s₃, ip.s₄, ip.s₅, ip.s₆, ip.s₇]

def ofSegments (l : List UInt16) : Ipv6Addr :=
  ⟨l.getD 0 0, l.getD 1 0, l.getD 2 0, l.getD 3 0, l.getD 4 0, l.getD 5 0, l.getD 6 0,
    l.getD 7 0⟩

def isLoopback (ip : Ipv6Addr) : Bool := ip == ⟨0, 0, 0, 0, 0, 0, 0, 1⟩

def isUnspecified (ip : Ipv6Addr) : Bool := ip == ⟨0, 0, 0, 0, 0, 0, 0, 0⟩

def isMulticast (ip : Ipv6Addr) : Bool := ip.s₀ &&& 0xff00 == 0xff00

def toIpv4Mapped (ip : Ipv6Addr) : Option Ipv4Addr :=
  if ip.s₀ == 0 && ip.s₁ == 0 && ip.s₂ == 0 && ip.s₃ == 0 && ip.s₄ == 0 && ip.s₅ == 0xffff then
    some ⟨(ip.s₆ >>> 8).toUInt8, ip.s₆.toUInt8, (ip.s₇ >>> 8).toUInt8, ip.s₇.toUInt8⟩
  else none

def toNat (ip : Ipv6Addr) : ℕ := ip.segments.foldl (fun n s => n * 65536 + s.toNat) 0

def longestZeroes (l : List UInt16) : ℕ × ℕ :=
  (l.zipIdx.foldl
    (fun (acc : (ℕ × ℕ) × (ℕ × ℕ)) p =>
      if p.1 = 0 then
        let current := if acc.2.2 = 0 then (p.2, 1) else (acc.2.1, acc.2.2 + 1)
        (if acc.1.2 < current.2 then current else acc.1, current)
      else (acc.1, (0, 0)))
    ((0, 0), (0, 0))).1

def fmtSubslice (l : List UInt16) : Text :=
  [':'].intercalate (l.map fun s => Nat.toDigits 16 s.toNat)

def display (ip : Ipv6Addr) : Text :=
  match ip.toIpv4Mapped with
  | some ip₄ => "::ffff:".toList ++ ip₄.display
  | none =>
    let z := longestZeroes ip.segments
    if 1 < z.2 then
      fmtSubslice (ip.segments.take z.1) ++ "::".toList ++
        fmtSubslice (ip.segments.drop (z.1 + z.2))
    else fmtSubslice ip.segments

end Ipv6Addr

inductive IpAddr where
  | v4 (ip : Ipv4Addr)
  | v6 (ip : Ipv6Addr)
deriving DecidableEq, Repr

def IpAddr.display : IpAddr → Text
  | .v4 ip => ip.display
  | .v6 ip => ip.display

/-! ### Networks -/

structure IpNet where
  addr : IpAddr
  prefixLen : ℕ
deriving DecidableEq, Repr

def IpNet.contains (net : IpNet) (ip : IpAddr) : Bool :=
  match net.addr, ip with
  | .v4 n, .v4 x => n.toNat / 2 ^ (32 - net.prefixLen) == x.toNat / 2 ^ (32 - net.prefixLen)
  | .v6 n, .v6 x => n.toNat / 2 ^ (128 - net.prefixLen) == x.toNat / 2 ^ (128 - net.prefixLen)
  | _, _ => false

/-! ### The parser -/

def readNumber (radix maxDigits : ℕ) (allowZeroPrefix : Bool) (s : Text) :
    Option (ℕ × Text) :=
  let ds := s.takeWhile fun c => (toDigit radix c).isSome
  if maxDigits < ds.length ∨ ds = [] then none
  else if !allowZeroPrefix ∧ ds.head? = some '0' ∧ 1 < ds.length then none
  else some (ds.foldl (fun n c => n * radix + (toDigit radix c).getD 0) 0, s.drop ds.length)

def readSeparated {α : Type} (first : Bool) (sep : Char) (inner : Text → Option (α × Text))
    (s : Text) : Option (α × Text) :=
  if first then inner s
  else match s with
    | [] => none
    | c :: rest => if c == sep then inner rest else none

def readOctet (s : Text) : Option (UInt8 × Text) := do
  let (n, rest) ← readNumber 10 3 false s
  if n < 256 then some (UInt8.ofNat n, rest) else none

def readIpv4 (s : Text) : Option (Ipv4Addr × Text) := do
  let (a, s) ← readSeparated true '.' readOctet s
  let (b, s) ← readSeparated false '.' readOctet s
  let (c, s) ← readSeparated false '.' readOctet s
  let (d, s) ← readSeparated false '.' readOctet s
  some (⟨a, b, c, d⟩, s)

def readGroups : (remaining : ℕ) → (first : Bool) → Text → List UInt16 × Bool × Text
  | 0, _, s => ([], false, s)
  | r + 1, first, s =>
    match (if 1 ≤ r then readSeparated first ':' readIpv4 s else none) with
    | some (ip, s') =>
      ([UInt16.ofNat (ip.a.toNat * 256 + ip.b.toNat),
        UInt16.ofNat (ip.c.toNat * 256 + ip.d.toNat)], true, s')
    | none =>
      match readSeparated first ':' (readNumber 16 4 true) s with
      | some (g, s') =>
        let rest := readGroups r false s'
        (UInt16.ofNat g :: rest.1, rest.2.1, rest.2.2)
      | none => ([], false, s)

def readIpv6 (s : Text) : Option (Ipv6Addr × Text) :=
  let head := readGroups 8 true s
  if head.1.length = 8 then some (.ofSegments head.1, head.2.2)
  else if head.2.1 then none
  else match head.2.2 with
    | ':' :: ':' :: s' =>
      let tail := readGroups (8 - (head.1.length + 1)) true s'
      let zeroes := List.replicate (8 - head.1.length - tail.1.length) 0
      some (.ofSegments (head.1 ++ zeroes ++ tail.1), tail.2.2)
    | _ => none

def parseIp (s : Text) : Option IpAddr :=
  match readIpv4 s with
  | some (ip, rest) => if rest = [] then some (.v4 ip) else none
  | none =>
    match readIpv6 s with
    | some (ip, rest) => if rest = [] then some (.v6 ip) else none
    | none => none

/-! ### What the parser reads and refuses -/

lemma readNumber_of_toDigit_eq_none {radix maxDigits : ℕ} {z : Bool} {c : Char} {s : Text}
    (h : toDigit radix c = none) : readNumber radix maxDigits z (c :: s) = none := by
  simp [readNumber, h]

lemma readIpv4_of_toDigit_eq_none {c : Char} {s : Text} (h : toDigit 10 c = none) :
    readIpv4 (c :: s) = none := by
  simp [readIpv4, readSeparated, readOctet, readNumber_of_toDigit_eq_none h]

theorem parseIp_bracket (s : Text) : parseIp ('[' :: s) = none := by
  have h10 : toDigit 10 '[' = none := by decide
  have h16 : toDigit 16 '[' = none := by decide
  have hg : readGroups 8 true ('[' :: s) = ([], false, '[' :: s) := by
    simp [readGroups, readSeparated, readIpv4_of_toDigit_eq_none h10,
      readNumber_of_toDigit_eq_none h16]
  rw [parseIp, readIpv4_of_toDigit_eq_none h10]
  simp [readIpv6, hg]

lemma toDigits_octet : ∀ n < 256, Nat.toDigits 10 n ≠ [] ∧ (Nat.toDigits 10 n).length ≤ 3 ∧
    ((Nat.toDigits 10 n).head? = some '0' → (Nat.toDigits 10 n).length ≤ 1) ∧
    ((Nat.toDigits 10 n).all fun c => (toDigit 10 c).isSome) = true ∧
    (Nat.toDigits 10 n).foldl (fun m c => m * 10 + (toDigit 10 c).getD 0) 0 = n := by
  decide +kernel

lemma readOctet_toDigits (x : UInt8) {rest : Text}
    (hrest : ∀ c, rest.head? = some c → toDigit 10 c = none) :
    readOctet (Nat.toDigits 10 x.toNat ++ rest) = some (x, rest) := by
  obtain ⟨hne, hlen, hzero, hall, hval⟩ := toDigits_octet x.toNat x.toNat_lt
  have htake : (Nat.toDigits 10 x.toNat ++ rest).takeWhile (fun c => (toDigit 10 c).isSome)
      = Nat.toDigits 10 x.toNat := by
    rw [List.takeWhile_append_of_pos (List.all_eq_true.mp hall)]
    cases rest with
    | nil => simp
    | cons c rest => simp [hrest c rfl]
  have hnum : readNumber 10 3 false (Nat.toDigits 10 x.toNat ++ rest) = some (x.toNat, rest) := by
    rw [readNumber, htake, if_neg (by push Not; exact ⟨hlen, hne⟩), if_neg, hval,
      List.drop_left]
    rintro ⟨-, h0, h1⟩
    exact absurd (hzero h0) (by omega)
  simp [readOctet, hnum, x.toNat_lt]

theorem parseIp_display_v4 (ip : Ipv4Addr) : parseIp ip.display = some (.v4 ip) := by
  have hdot : ∀ (t : Text) (c : Char), ('.' :: t).head? = some c → toDigit 10 c = none := by
    intro t c hc
    obtain rfl : '.' = c := by simpa using hc
    decide
  have hread : readIpv4 ip.display = some (ip, []) := by
    have hlast : readOctet (Nat.toDigits 10 ip.d.toNat ++ []) = some (ip.d, []) :=
      readOctet_toDigits ip.d (by simp)
    rw [List.append_nil] at hlast
    simp [readIpv4, readSeparated, Ipv4Addr.display, readOctet_toDigits _ (hdot _), hlast]
  simp [parseIp, hread]

example : parseIp "2606:4700:4700::1111" =
    some (.v6 ⟨0x2606, 0x4700, 0x4700, 0, 0, 0, 0, 0x1111⟩) := by decide

example : parseIp "::ffff:10.0.0.1" =
    some (.v6 ⟨0, 0, 0, 0, 0, 0xffff, 0x0a00, 1⟩) := by decide

example : (Ipv6Addr.mk 0x2606 0x4700 0 0 1 0 0 0x1111).display = "2606:4700::1:0:0:1111" := by
  decide

end RustStd
