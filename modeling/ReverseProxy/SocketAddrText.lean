/-
The text `addr:port` of a socket address.

A server builds the address it binds by writing a colon and a port after a
configured address text and parsing the result.  `SocketAddr.parse_port`:
whether that parses, and to which IP, does not depend on the port, and the
port read is the port written.  So the IP of `addr` is well defined
(`bindIp`).

The IPv4 reader never looks past a colon.  The IPv6 reader does, but the
closing bracket stops it, and the last colon of the text is the one before
the port.
-/
import ReverseProxy.NetAddrText

open Text AddrParser

namespace NetAddr

/-! ### Where the readers stop -/

theorem readOctet_stopsAt {c : Char} (hc : toDigit 10 c = none) (hz : c ≠ '0') :
    StopsAt c readOctet :=
  (readNumber_stopsAt hc hz 256 (some 3) false).bind fun _ => StopsAt.pure c _

theorem readIpv4Addr_stopsAt {c : Char} (hc : toDigit 10 c = none) (hz : c ≠ '0')
    (hdot : c ≠ '.') : StopsAt c readIpv4Addr := by
  have hoctet := readOctet_stopsAt hc hz
  have hsep : StopsAt c (readGivenChar '.') := readGivenChar_stopsAt hdot.symm
  exact hoctet.bind fun _ => hsep.bind fun _ => hoctet.bind fun _ => hsep.bind fun _ =>
    hoctet.bind fun _ => hsep.bind fun _ => hoctet.bind fun _ => StopsAt.pure c _

theorem readSeparator_stopsAt {α : Type} {c : Char} {p : Parser α} (hp : StopsAt c p)
    (hc : c ≠ ':') (first : Bool) : StopsAt c (readSeparator ':' first p) := by
  cases first with
  | true => exact hp
  | false => exact (readGivenChar_stopsAt hc.symm).bind fun _ => hp

section bracket

/-! The closing bracket stops every reader of an IPv6 address. -/

theorem readIpv4Addr_bracket : StopsAt ']' readIpv4Addr :=
  readIpv4Addr_stopsAt (by decide) (by decide) (by decide)

theorem readGroup_bracket : StopsAt ']' readGroup :=
  (readNumber_stopsAt (by decide) (by decide) 65536 (some 4) true).bind
    fun _ => StopsAt.pure _ _

theorem readGroups_bracket (n : ℕ) : ∀ (first : Bool) (s r : Str),
    readGroups n first (s ++ ']' :: r)
      = ((readGroups n first s).1, (readGroups n first s).2.1,
          (readGroups n first s).2.2 ++ ']' :: r) := by
  induction n with
  | zero => exact fun _ _ _ => rfl
  | succ n ih =>
    intro first s r
    have hv4 := readSeparator_stopsAt readIpv4Addr_bracket (by decide) first s r
    have hgroup := readSeparator_stopsAt readGroup_bracket (by decide) first s r
    have hif : (if 0 < n then readSeparator ':' first readIpv4Addr (s ++ ']' :: r) else none)
        = (if 0 < n then readSeparator ':' first readIpv4Addr s else none).map
            fun x => (x.1, x.2 ++ ']' :: r) := by
      split
      · exact hv4
      · rfl
    rw [readGroups, readGroups, hif, hgroup]
    -- an embedded IPv4 address ends the loop, a group goes on with it
    rcases (if 0 < n then readSeparator ':' first readIpv4Addr s else none) with _ | ⟨v4, t⟩
    · simp only [Option.map_none]
      rcases readSeparator ':' first readGroup s with _ | ⟨g, t⟩
      · rfl
      · simp only [Option.map_some]
        rw [ih false t r]
    · rfl

theorem readTail_bracket (head : List UInt16) (hlen : head.length < 8) :
    StopsAt ']' (readTail head hlen) := by
  have hcolon : StopsAt ']' (readGivenChar ':') := readGivenChar_stopsAt (by decide)
  refine hcolon.bind fun _ => hcolon.bind fun _ => ?_
  intro s r
  simp only [readGroups_bracket, Option.map_some]

theorem readIpv6Addr_bracket : StopsAt ']' readIpv6Addr := by
  intro s r
  simp only [readIpv6Addr, readGroups_bracket]
  split
  · rfl
  · split
    · rfl
    · exact readTail_bracket _ _ _ r

theorem readScopeIdOrZero_bracket : StopsAt ']' readScopeIdOrZero := by
  intro s r
  have hscope : StopsAt ']' readScopeId :=
    (readGivenChar_stopsAt (by decide)).bind fun _ =>
      (readNumber_stopsAt (by decide) (by decide) (2 ^ 32) none true).bind fun _ =>
        StopsAt.pure _ _
  rw [readScopeIdOrZero, readScopeIdOrZero, hscope s r]
  rcases readScopeId s with _ | ⟨x, t⟩
  · rfl
  · rfl

/-- The inside of the brackets: an address and a scope. -/
def readBracketed : Parser (Ipv6Addr × UInt32) := do
  let ip ← readIpv6Addr
  let scopeId ← readScopeIdOrZero
  pure (ip, scopeId)

theorem readBracketed_eq_some {s t : Str} {ip : Ipv6Addr} {scopeId : UInt32} :
    readBracketed s = some ((ip, scopeId), t) ↔
      ∃ r, readIpv6Addr s = some (ip, r) ∧ readScopeIdOrZero r = some (scopeId, t) := by
  simp only [readBracketed, bind_eq_some, pure_eq_some, Prod.mk.injEq]
  constructor
  · rintro ⟨ip, r, hip, scopeId, t, hscope, ⟨rfl, rfl⟩, rfl⟩
    exact ⟨r, hip, hscope⟩
  · rintro ⟨r, hip, hscope⟩
    exact ⟨ip, r, hip, scopeId, t, hscope, ⟨rfl, rfl⟩, rfl⟩

theorem readBracketed_bracket : StopsAt ']' readBracketed :=
  readIpv6Addr_bracket.bind fun _ => readScopeIdOrZero_bracket.bind fun _ => StopsAt.pure _ _

/-- What stands inside the brackets is given back unread or made of characters
other than `]`. -/
theorem readBracketed_readsOnly : ReadsOnly (fun c => AddrChar c ∨ c = '%') readBracketed := by
  have hip := readIpv6Addr_readsOnly.mono (Q := fun c => AddrChar c ∨ c = '%') fun _ => Or.inl
  refine hip.bind fun ip => ReadsOnly.bind (fun s x t h => ?_) fun _ => ReadsOnly.pure _ _
  have hscope : ReadsOnly (fun c => AddrChar c ∨ c = '%') readScopeId :=
    ((readGivenChar_readsOnly '%').mono fun _ => Or.inr).bind fun _ =>
      ((readNumber_readsOnly 10 (2 ^ 32) none true).mono fun _ hc =>
        Or.inl (Or.inl (toDigit_isSome_mono (by omega) hc))).bind fun _ => ReadsOnly.pure _ _
  rw [readScopeIdOrZero] at h
  rcases hs : readScopeId s with _ | ⟨y, r⟩
  · rw [hs, Option.none_or, Option.some_inj, Prod.mk.injEq] at h
    exact ⟨[], h.2, by simp⟩
  · rw [hs, Option.some_or, Option.some_inj, Prod.mk.injEq] at h
    rw [← h.2]
    exact hscope s y r hs

end bracket

/-! ### The port -/

theorem readPort_decimal (port : UInt16) :
    readPort (':' :: decimal port.toNat) = some (port, []) := by
  have hnum : readNumber 10 65536 none true (Nat.toDigits 10 port.toNat ++ [])
      = some (port.toNat, []) :=
    readNumber_toDigits (by omega) (by omega) port.toNat_lt rfl true (by simp)
  rw [List.append_nil] at hnum
  rw [readPort, bind_apply, readGivenChar_self, Option.bind_some, bind_apply, decimal, hnum]
  show some (UInt16.ofNat port.toNat, []) = some (port, [])
  rw [UInt16.ofNat_toNat]

theorem colon_not_mem_decimal (n : ℕ) : ':' ∉ decimal n := not_mem_decimal (by decide) n

/-- A port that ends the input is a colon and digits. -/
theorem readPort_eq_nil {s : Str} {port : UInt16} (h : readPort s = some (port, [])) :
    ∃ q, s = ':' :: q ∧ ':' ∉ q := by
  obtain ⟨_, q, hcolon, hnum⟩ := bind_eq_some.mp h
  refine ⟨q, readGivenChar_eq_some.mp hcolon, fun hmem => ?_⟩
  have hreads : ReadsOnly (fun c => (toDigit 10 c).isSome) (do
      let n ← readNumber 10 65536 none true
      pure (UInt16.ofNat n) : Parser UInt16) :=
    (readNumber_readsOnly 10 65536 none true).bind fun _ => ReadsOnly.pure _ _
  obtain ⟨v, hv, hdigits⟩ := hreads q port [] hnum
  rw [List.append_nil] at hv
  rw [hv] at hmem
  exact absurd (hdigits ':' hmem) (by decide)

/-- An IPv4 socket address: an address and a port. -/
theorem readSocketAddrV4_eq_some {s t : Str} {sa : SocketAddr} :
    readSocketAddrV4 s = some (sa, t) ↔
      ∃ r ip port, readIpv4Addr s = some (ip, r) ∧ readPort r = some (port, t) ∧
        sa = .v4 ip port := by
  simp only [readSocketAddrV4, bind_eq_some, pure_eq_some]
  constructor
  · rintro ⟨ip, r, hip, port, t, hport, rfl, rfl⟩
    exact ⟨r, ip, port, hip, hport, rfl⟩
  · rintro ⟨r, ip, port, hip, hport, rfl⟩
    exact ⟨ip, r, hip, port, t, hport, rfl, rfl⟩

/-- `addr:port` as an IPv4 socket address: `addr` is an IPv4 address. -/
theorem readSocketAddrV4_port {a : Str} {port : UInt16} {sa : SocketAddr} :
    readSocketAddrV4 (a ++ ':' :: decimal port.toNat) = some (sa, []) ↔
      ∃ ip, readIpv4Addr a = some (ip, []) ∧ sa = .v4 ip port := by
  have hstop : StopsAt ':' readIpv4Addr :=
    readIpv4Addr_stopsAt (by decide) (by decide) (by decide)
  rw [readSocketAddrV4_eq_some, hstop a _]
  constructor
  · rintro ⟨r, ip, q, hip, hport, rfl⟩
    obtain ⟨⟨ip', t⟩, hread, heq⟩ := Option.map_eq_some_iff.mp hip
    obtain ⟨rfl, rfl⟩ := Prod.mk.inj heq
    -- a second colon would have to be part of the port
    have ht : t = [] := by
      obtain ⟨d, hd, hcolon⟩ := readPort_eq_nil hport
      cases t with
      | nil => rfl
      | cons c t =>
        rw [List.cons_append, List.cons.injEq] at hd
        rw [← hd.2] at hcolon
        exact absurd hcolon (by simp)
    subst ht
    rw [List.nil_append, readPort_decimal, Option.some_inj, Prod.mk.injEq] at hport
    exact ⟨ip', hread, by rw [hport.1]⟩
  · rintro ⟨ip, hip, rfl⟩
    refine ⟨':' :: decimal port.toNat, ip, port, ?_, readPort_decimal port, rfl⟩
    rw [hip, Option.map_some, List.nil_append]

/-- An IPv6 socket address: brackets around an address and a scope, and a
port. -/
theorem readSocketAddrV6_eq_some {s t : Str} {sa : SocketAddr} :
    readSocketAddrV6 s = some (sa, t) ↔
      ∃ u r ip scopeId port, s = '[' :: u ∧ readBracketed u = some ((ip, scopeId), ']' :: r) ∧
        readPort r = some (port, t) ∧ sa = .v6 ip port scopeId := by
  simp only [readSocketAddrV6, bind_eq_some, pure_eq_some, readGivenChar_eq_some,
    readBracketed_eq_some]
  constructor
  · rintro ⟨_, u, rfl, ip, r, hip, scopeId, r', hscope, _, r'', rfl, port, t, hport, rfl, rfl⟩
    exact ⟨u, r'', ip, scopeId, port, rfl, ⟨r, hip, hscope⟩, hport, rfl⟩
  · rintro ⟨u, r'', ip, scopeId, port, rfl, ⟨r, hip, hscope⟩, hport, rfl⟩
    exact ⟨(), u, rfl, ip, r, hip, scopeId, _, hscope, (), r'', rfl, port, t, hport, rfl, rfl⟩

/-- `addr:port` as an IPv6 socket address: `addr` is an address in brackets. -/
theorem readSocketAddrV6_port {a : Str} {port : UInt16} {sa : SocketAddr} :
    readSocketAddrV6 (a ++ ':' :: decimal port.toNat) = some (sa, []) ↔
      ∃ u ip scopeId, a = '[' :: u ++ [']'] ∧ readBracketed u = some ((ip, scopeId), []) ∧
        sa = .v6 ip port scopeId := by
  rw [readSocketAddrV6_eq_some]
  constructor
  · rintro ⟨s, r, ip, scopeId, q, hopen, hbr, hport, rfl⟩
    obtain ⟨u, rfl, -⟩ := readBracketed_readsOnly s _ _ hbr
    obtain ⟨d, rfl, hcolon⟩ := readPort_eq_nil hport
    -- the last colon of the text is the one before the port
    obtain ⟨ha, rfl⟩ : a = '[' :: u ++ [']'] ∧ decimal port.toNat = d := by
      refine append_cons_inj_of_last (colon_not_mem_decimal _) hcolon ?_
      rw [hopen]
      simp
    rw [readPort_decimal, Option.some_inj, Prod.mk.injEq] at hport
    exact ⟨u, ip, scopeId, ha, readBracketed_bracket.eq_nil_of_rest hbr, by rw [hport.1]⟩
  · rintro ⟨u, ip, scopeId, rfl, hbr, rfl⟩
    refine ⟨u ++ ']' :: ':' :: decimal port.toNat, ':' :: decimal port.toNat, ip, scopeId, port,
      by simp, ?_, readPort_decimal port, rfl⟩
    rw [readBracketed_bracket u _, hbr]
    rfl

theorem SocketAddr.parse_eq_some {s : Str} {sa : SocketAddr} :
    SocketAddr.parse s = some sa ↔ readSocketAddrV4 s = some (sa, []) ∨
      readSocketAddrV4 s = none ∧ readSocketAddrV6 s = some (sa, []) := by
  rw [SocketAddr.parse, parseWith_eq_some, readSocketAddr]
  rcases readSocketAddrV4 s with _ | ⟨x, t⟩
  · simp
  · simp

/-- An address in brackets is no IPv4 socket address. -/
theorem readSocketAddrV4_open (s : Str) : readSocketAddrV4 ('[' :: s) = none := rfl

/-- **Port independence.**  Whether `addr:port` parses, and to which IP, does
not depend on the port, and the port read is the port written. -/
theorem SocketAddr.parse_port {a : Str} {port : UInt16} {sa : SocketAddr}
    (h : SocketAddr.parse (a ++ ':' :: decimal port.toNat) = some sa) :
    sa.port = port ∧ ∀ port' : UInt16,
      SocketAddr.parse (a ++ ':' :: decimal port'.toNat) = some (sa.setPort port') := by
  rcases SocketAddr.parse_eq_some.mp h with h | ⟨-, h⟩
  · obtain ⟨ip, hip, rfl⟩ := readSocketAddrV4_port.mp h
    refine ⟨rfl, fun port' => SocketAddr.parse_eq_some.mpr (Or.inl ?_)⟩
    exact readSocketAddrV4_port.mpr ⟨ip, hip, rfl⟩
  · obtain ⟨u, ip, scopeId, rfl, hbr, rfl⟩ := readSocketAddrV6_port.mp h
    refine ⟨rfl, fun port' => SocketAddr.parse_eq_some.mpr (Or.inr ⟨?_, ?_⟩)⟩
    · exact readSocketAddrV4_open _
    · exact readSocketAddrV6_port.mpr ⟨u, ip, scopeId, rfl, hbr, rfl⟩

/-- The IP that an address text stands for when a port is written after it. -/
def bindIp (a : Str) : Option IpAddr := (SocketAddr.parse (a ++ ':' :: decimal 0)).map (·.ip)

theorem bindIp_eq {a : Str} {port : UInt16} {sa : SocketAddr}
    (h : SocketAddr.parse (a ++ ':' :: decimal port.toNat) = some sa) :
    bindIp a = some sa.ip := by
  have h0 := (SocketAddr.parse_port h).2 0
  rw [bindIp, show decimal 0 = decimal (0 : UInt16).toNat from rfl, h0, Option.map_some,
    SocketAddr.ip_setPort]

end NetAddr
