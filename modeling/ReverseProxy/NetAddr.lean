/-
IP addresses and socket addresses: what `std::net` reads and what it writes.

`readIpv4Addr`, `readIpv6Addr` and `readSocketAddr` follow the parser of the
Rust standard library read by read: four decimal octets without leading
zeros; up to eight hexadecimal groups with at most one `::` and an optional
IPv4 tail; `ip:port` or `[ip%scope]:port`.  `Ipv4Addr.toText` and
`Ipv6Addr.toText` are the `Display` instances, with the longest run of zero
groups compressed and the IPv4-mapped form written out.

An `Ipv6Addr` carries the proof that it has eight groups.
-/
import ReverseProxy.AddrParser

open Text AddrParser

namespace NetAddr

/-- An IPv4 address: its four octets. -/
structure Ipv4Addr where
  a : UInt8
  b : UInt8
  c : UInt8
  d : UInt8
  deriving DecidableEq, Repr

/-- An IPv6 address: eight 16-bit groups. -/
structure Ipv6Addr where
  segments : List UInt16
  length_segments : segments.length = 8
  deriving DecidableEq, Repr

/-- `std::net::IpAddr`. -/
inductive IpAddr where
  | v4 (addr : Ipv4Addr)
  | v6 (addr : Ipv6Addr)
  deriving DecidableEq, Repr

/-- `std::net::SocketAddr`; the flow label is always zero when parsed. -/
inductive SocketAddr where
  | v4 (ip : Ipv4Addr) (port : UInt16)
  | v6 (ip : Ipv6Addr) (port : UInt16) (scopeId : UInt32)
  deriving DecidableEq, Repr

/-- `SocketAddr::ip`. -/
def SocketAddr.ip : SocketAddr → IpAddr
  | .v4 ip _ => .v4 ip
  | .v6 ip _ _ => .v6 ip

/-- `SocketAddr::port`. -/
def SocketAddr.port : SocketAddr → UInt16
  | .v4 _ port => port
  | .v6 _ port _ => port

/-- `SocketAddr::set_port`. -/
def SocketAddr.setPort (port : UInt16) : SocketAddr → SocketAddr
  | .v4 ip _ => .v4 ip port
  | .v6 ip _ scopeId => .v6 ip port scopeId

@[simp] theorem SocketAddr.ip_setPort (sa : SocketAddr) (port : UInt16) :
    (sa.setPort port).ip = sa.ip := by cases sa <;> rfl

/-! ### Reading -/

/-- One octet: one to three decimal digits, no leading zero. -/
def readOctet : Parser UInt8 := do
  let n ← readNumber 10 256 (some 3) false
  pure (UInt8.ofNat n)

/-- `Parser::read_ipv4_addr`. -/
def readIpv4Addr : Parser Ipv4Addr := do
  let a ← readOctet
  readGivenChar '.'
  let b ← readOctet
  readGivenChar '.'
  let c ← readOctet
  readGivenChar '.'
  let d ← readOctet
  pure ⟨a, b, c, d⟩

/-- One group of an IPv6 address: one to four hexadecimal digits. -/
def readGroup : Parser UInt16 := do
  let n ← readNumber 16 65536 (some 4) true
  pure (UInt16.ofNat n)

/-- `Parser::read_separator`: the first element has no separator before it. -/
def readSeparator {α : Type} (sep : Char) (first : Bool) (inner : Parser α) : Parser α :=
  if first then inner else do
    readGivenChar sep
    inner

/-- The two groups of an IPv4 address inside an IPv6 address. -/
def Ipv4Addr.groups (v4 : Ipv4Addr) : List UInt16 :=
  [UInt16.ofNat (v4.a.toNat * 256 + v4.b.toNat), UInt16.ofNat (v4.c.toNat * 256 + v4.d.toNat)]

/-- `read_groups` with `n` slots left: the groups read, whether they end in an
embedded IPv4 address, and the rest.  The loop never fails, it just stops. -/
def readGroups : ℕ → Bool → Str → List UInt16 × Bool × Str
  | 0, _, s => ([], false, s)
  | n + 1, first, s =>
    -- an IPv4 address takes two slots
    match if 0 < n then readSeparator ':' first readIpv4Addr s else none with
    | some (v4, t) => (v4.groups, true, t)
    | none =>
      match readSeparator ':' first readGroup s with
      | some (g, t) => (g :: (readGroups n false t).1, (readGroups n false t).2)
      | none => ([], false, s)

theorem length_readGroups_le (n : ℕ) : ∀ (first : Bool) (s : Str),
    (readGroups n first s).1.length ≤ n := by
  induction n with
  | zero => exact fun _ _ => le_refl 0
  | succ n ih =>
    intro first s
    rw [readGroups]
    split
    · rename_i v4 t heq
      have hn : 0 < n := by
        by_contra hn
        rw [if_neg hn] at heq
        exact absurd heq (by simp)
      rw [Ipv4Addr.groups, List.length_cons, List.length_singleton]
      omega
    · split
      · rw [List.length_cons]
        exact Nat.succ_le_succ (ih _ _)
      · exact Nat.zero_le _

/-- Eight groups from the part before a `::` and the part after it. -/
def expandGroups (head tail : List UInt16) (h : head.length + tail.length ≤ 8) : Ipv6Addr where
  segments := head ++ List.replicate (8 - head.length - tail.length) 0 ++ tail
  length_segments := by
    simp only [List.length_append, List.length_replicate]
    omega

theorem segments_expandGroups (head tail : List UInt16) (h : head.length + tail.length ≤ 8) :
    (expandGroups head tail h).segments
      = head ++ List.replicate (8 - head.length - tail.length) 0 ++ tail := rfl

/-- The part of `Parser::read_ipv6_addr` after a head of fewer than eight
groups: `::` and at most seven groups in all. -/
def readTail (head : List UInt16) (hlen : head.length < 8) : Parser Ipv6Addr := do
  readGivenChar ':'
  readGivenChar ':'
  fun s =>
    let tail := readGroups (8 - (head.length + 1)) true s
    some (expandGroups head tail.1 (by
      have : tail.1.length ≤ 8 - (head.length + 1) := length_readGroups_le _ true s
      omega), tail.2.2)

/-- `Parser::read_ipv6_addr`. -/
def readIpv6Addr : Parser Ipv6Addr := fun s =>
  let head := readGroups 8 true s
  if h : head.1.length = 8 then some (⟨head.1, h⟩, head.2.2)
  else if head.2.1 then none
  else readTail head.1 (lt_of_le_of_ne (length_readGroups_le 8 true s) h) head.2.2

/-- `Parser::read_ip_addr`. -/
def readIpAddr : Parser IpAddr := fun s =>
  ((readIpv4Addr s).map fun x => (IpAddr.v4 x.1, x.2)).or
    ((readIpv6Addr s).map fun x => (IpAddr.v6 x.1, x.2))

/-- `Parser::read_port`. -/
def readPort : Parser UInt16 := do
  readGivenChar ':'
  let n ← readNumber 10 65536 none true
  pure (UInt16.ofNat n)

/-- `Parser::read_scope_id`. -/
def readScopeId : Parser UInt32 := do
  readGivenChar '%'
  let n ← readNumber 10 (2 ^ 32) none true
  pure (UInt32.ofNat n)

/-- `read_scope_id().unwrap_or(0)`. -/
def readScopeIdOrZero : Parser UInt32 := fun s => (readScopeId s).or (some (0, s))

/-- `Parser::read_socket_addr_v4`. -/
def readSocketAddrV4 : Parser SocketAddr := do
  let ip ← readIpv4Addr
  let port ← readPort
  pure (.v4 ip port)

/-- `Parser::read_socket_addr_v6`. -/
def readSocketAddrV6 : Parser SocketAddr := do
  readGivenChar '['
  let ip ← readIpv6Addr
  let scopeId ← readScopeIdOrZero
  readGivenChar ']'
  let port ← readPort
  pure (.v6 ip port scopeId)

/-- `Parser::read_socket_addr`. -/
def readSocketAddr : Parser SocketAddr := fun s => (readSocketAddrV4 s).or (readSocketAddrV6 s)

/-- `str::parse::<IpAddr>`. -/
def IpAddr.parse (s : Str) : Option IpAddr := parseWith readIpAddr s

/-- `str::parse::<Ipv6Addr>`. -/
def Ipv6Addr.parse (s : Str) : Option Ipv6Addr := parseWith readIpv6Addr s

/-- `str::parse::<SocketAddr>`. -/
def SocketAddr.parse (s : Str) : Option SocketAddr := parseWith readSocketAddr s

/-! ### Writing -/

/-- A number in decimal, as `{}` writes it. -/
def decimal (n : ℕ) : Str := Nat.toDigits 10 n

/-- A number in lower-case hexadecimal, as `{:x}` writes it. -/
def hex (n : ℕ) : Str := Nat.toDigits 16 n

/-- `Display` for `Ipv4Addr`. -/
def Ipv4Addr.toText (v4 : Ipv4Addr) : Str :=
  decimal v4.a.toNat ++ '.' :: decimal v4.b.toNat ++ '.' :: decimal v4.c.toNat
    ++ '.' :: decimal v4.d.toNat

/-- A run of groups. -/
structure Span where
  start : ℕ
  len : ℕ
  deriving DecidableEq, Repr

/-- The search for the longest run of zero groups, `current` being the run
that ends at position `i`. -/
def longestZeros : List UInt16 → ℕ → Span → Span → Span
  | [], _, longest, _ => longest
  | g :: gs, i, longest, current =>
    if g = 0 then
      let current : Span := ⟨if current.len = 0 then i else current.start, current.len + 1⟩
      longestZeros gs (i + 1) (if longest.len < current.len then current else longest) current
    else longestZeros gs (i + 1) longest ⟨0, 0⟩

/-- `fmt_subslice`: groups in hexadecimal, with colons between them. -/
def fmtSubslice : List UInt16 → Str
  | [] => []
  | g :: gs => hex g.toNat ++ gs.flatMap fun h => ':' :: hex h.toNat

/-- `Ipv6Addr::to_ipv4_mapped`. -/
def Ipv6Addr.toIpv4Mapped (v6 : Ipv6Addr) : Option Ipv4Addr :=
  match v6.segments with
  | [0, 0, 0, 0, 0, 0xffff, ab, cd] =>
    some ⟨UInt8.ofNat (ab.toNat / 256), UInt8.ofNat ab.toNat, UInt8.ofNat (cd.toNat / 256),
      UInt8.ofNat cd.toNat⟩
  | _ => none

/-- `Display` for `Ipv6Addr`. -/
def Ipv6Addr.toText (v6 : Ipv6Addr) : Str :=
  match v6.toIpv4Mapped with
  | some v4 => "::ffff:".toList ++ v4.toText
  | none =>
    let zeroes := longestZeros v6.segments 0 ⟨0, 0⟩ ⟨0, 0⟩
    if 1 < zeroes.len then
      fmtSubslice (v6.segments.take zeroes.start) ++ "::".toList
        ++ fmtSubslice (v6.segments.drop (zeroes.start + zeroes.len))
    else fmtSubslice v6.segments

/-- `Display` for `IpAddr`. -/
def IpAddr.toText : IpAddr → Str
  | .v4 addr => addr.toText
  | .v6 addr => addr.toText

end NetAddr
