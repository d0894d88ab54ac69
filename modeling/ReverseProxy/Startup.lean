/-
What startup derives from the text of the configuration.

`run_server` parses `bind_addr:port` for every listener and `setup_tls` looks
at the TLS mode and at the fields that the mode requires.  The validator has
rules of its own for both.

* `Denotes`, `parse_socketText_ip` — the bind addresses that parse, and the IP
  they stand for;
* `neverBails_iff` — when `setup_tls` cannot give up because of the text;
* `startup_checks_iff` — which accepted configurations pass these checks;
* `wildcard_free_iff` — which accepted configurations bind no wildcard address.
-/
import ReverseProxy.BindAddrs
import ReverseProxy.Routing

open Text AddrParser NetAddr Config Validation BindAddrs

namespace Startup

/-! ### Bind addresses -/

/-- `a` is an IPv4 address, or an IPv6 address in brackets, possibly with a
scope. -/
def Denotes (a : Str) (ip : IpAddr) : Prop :=
  (∃ v4, parseWith readIpv4Addr a = some v4 ∧ ip = .v4 v4) ∨
  ∃ inner v6 scopeId, a = '[' :: inner ++ [']'] ∧
    parseWith readBracketed inner = some (v6, scopeId) ∧ ip = .v6 v6

theorem parse_socketText_ip {a : Str} {port : UInt16} {ip : IpAddr} :
    (∃ sa, SocketAddr.parse (socketText a port) = some sa ∧ sa.ip = ip) ↔ Denotes a ip := by
  constructor
  · rintro ⟨sa, hsa, rfl⟩
    rcases SocketAddr.parse_eq_some.mp hsa with h | ⟨-, h⟩
    · obtain ⟨v4, hv4, rfl⟩ := readSocketAddrV4_port.mp h
      exact Or.inl ⟨v4, parseWith_eq_some.mpr hv4, rfl⟩
    · obtain ⟨inner, v6, scopeId, ha, hinner, rfl⟩ := readSocketAddrV6_port.mp h
      exact Or.inr ⟨inner, v6, scopeId, ha, parseWith_eq_some.mpr hinner, rfl⟩
  · rintro (⟨v4, hv4, rfl⟩ | ⟨inner, v6, scopeId, rfl, hinner, rfl⟩)
    · refine ⟨.v4 v4 port, SocketAddr.parse_eq_some.mpr (Or.inl ?_), rfl⟩
      exact readSocketAddrV4_port.mpr ⟨v4, parseWith_eq_some.mp hv4, rfl⟩
    · refine ⟨.v6 v6 port scopeId, SocketAddr.parse_eq_some.mpr (Or.inr ⟨?_, ?_⟩), rfl⟩
      · exact readSocketAddrV4_open _
      · exact readSocketAddrV6_port.mpr
          ⟨inner, v6, scopeId, rfl, parseWith_eq_some.mp hinner, rfl⟩

/-- Every address that startup makes of the listener parses. -/
def BindsParse (l : ListenerConfig) : Prop :=
  ∀ port ∈ ports l, ∃ sa, SocketAddr.parse (socketText l.bindAddr port) = some sa

theorem httpsPort_mem_ports (l : ListenerConfig) : l.httpsPort ∈ ports l :=
  List.mem_append_right _ List.mem_cons_self

theorem bindsParse_iff (l : ListenerConfig) : BindsParse l ↔ ∃ ip, Denotes l.bindAddr ip := by
  constructor
  · intro h
    obtain ⟨sa, hsa⟩ := h l.httpsPort (httpsPort_mem_ports l)
    exact ⟨sa.ip, parse_socketText_ip.mp ⟨sa, hsa, rfl⟩⟩
  · rintro ⟨ip, hip⟩ port -
    obtain ⟨sa, hsa, -⟩ := parse_socketText_ip.mpr hip
    exact ⟨sa, hsa⟩

/-! ### TLS -/

/-- The ways in which `setup_tls` bails out. -/
inductive TlsBail where
  | certPath
  | keyPath
  | acmeDomains
  | acmeCacheDir
  | unknownMode (mode : Str)
  deriving DecidableEq

def TlsBail.toText : TlsBail → Str
  | certPath => "manual TLS mode requires cert_path".toList
  | keyPath => "manual TLS mode requires key_path".toList
  | acmeDomains => "ACME TLS mode requires at least one domain in acme_domains".toList
  | acmeCacheDir => "ACME TLS mode requires acme_cache_dir".toList
  | unknownMode mode =>
    "unknown TLS mode: '".toList ++ mode ++ "', expected 'manual' or 'acme'".toList

inductive TlsMode (σ : Type) where
  | manual (config : σ)
  | acme (defaultConfig : σ)

inductive SetupError where
  | bail (reason : TlsBail)
  | other (text : Str)

/-- `setup_tls`; loading certificates and setting up ACME are left to the TLS
libraries. -/
def setupTls {σ : Type} (buildManual : Str → Str → Except Str σ)
    (setupAcme : TlsConfig → Except Str σ) (tls : TlsConfig) : Except SetupError (TlsMode σ) :=
  if tls.mode = "manual".toList then
    if tls.certPath = [] then .error (.bail .certPath)
    else if tls.keyPath = [] then .error (.bail .keyPath)
    else ((buildManual tls.certPath tls.keyPath).mapError .other).map .manual
  else if tls.mode = "acme".toList then
    if tls.acmeDomains = [] then .error (.bail .acmeDomains)
    else if tls.acmeCacheDir = [] then .error (.bail .acmeCacheDir)
    else ((setupAcme tls).mapError .other).map .acme
  else .error (.bail (.unknownMode tls.mode))

/-- Whatever the libraries answer, `setup_tls` does not bail out. -/
def NeverBails (tls : TlsConfig) : Prop :=
  ∀ (σ : Type) (buildManual : Str → Str → Except Str σ) (setupAcme : TlsConfig → Except Str σ)
    (reason : TlsBail), setupTls buildManual setupAcme tls ≠ .error (.bail reason)

/-- The mode is one of the two, and the fields that it requires are there. -/
def TlsComplete (tls : TlsConfig) : Prop :=
  tls.mode = "manual".toList ∧ tls.certPath ≠ [] ∧ tls.keyPath ≠ [] ∨
  tls.mode = "acme".toList ∧ tls.acmeDomains ≠ [] ∧ tls.acmeCacheDir ≠ []

theorem map_ne_bail {σ τ : Type} (x : Except Str σ) (f : σ → τ) (reason : TlsBail) :
    (x.mapError SetupError.other).map f ≠ .error (.bail reason) := by
  cases x with
  | error text => exact nofun
  | ok a => exact nofun

theorem neverBails_iff (tls : TlsConfig) : NeverBails tls ↔ TlsComplete tls := by
  constructor
  · intro h
    have hunit := h Unit (fun _ _ => .ok ()) (fun _ => .ok ())
    simp only [setupTls] at hunit
    -- each way out but the two last ones is a `bail!`
    split at hunit
    · next hmanual =>
      split at hunit
      · exact absurd rfl (hunit _)
      · next hcert =>
        split at hunit
        · exact absurd rfl (hunit _)
        · next hkey => exact Or.inl ⟨hmanual, hcert, hkey⟩
    · split at hunit
      · next hacme =>
        split at hunit
        · exact absurd rfl (hunit _)
        · next hdomains =>
          split at hunit
          · exact absurd rfl (hunit _)
          · next hcache => exact Or.inr ⟨hacme, hdomains, hcache⟩
      · exact absurd rfl (hunit _)
  · rintro (⟨hmode, hcert, hkey⟩ | ⟨hmode, hdomains, hcache⟩) σ buildManual setupAcme reason
    · rw [setupTls, if_pos hmode, if_neg hcert, if_neg hkey]
      exact map_ne_bail _ _ _
    · rw [setupTls, if_neg (by rw [hmode]; decide), if_pos hmode, if_neg hdomains, if_neg hcache]
      exact map_ne_bail _ _ _

/-! ### Accepted configurations -/

section

variable [Lowercase]

/-- **Validation and startup.**  An accepted configuration passes the checks
that startup makes on its text just when every bind address is one, and every
TLS mode is `manual`, or `acme` with a cache directory. -/
theorem startup_checks_iff (pathExists : Str → Bool) (staticConfig : StaticConfig)
    (dynamicConfig : DynamicConfig) (cli : Bool)
    (h : validate pathExists staticConfig dynamicConfig cli = .ok ()) :
    (∀ l ∈ staticConfig.listeners, BindsParse l ∧ NeverBails l.tls) ↔
    ∀ l ∈ staticConfig.listeners, (∃ ip, Denotes l.bindAddr ip) ∧
      (l.tls.mode = "manual".toList ∨ l.tls.mode = "acme".toList ∧ l.tls.acmeCacheDir ≠ []) := by
  refine forall₂_congr fun l hl => ?_
  rw [bindsParse_iff, neverBails_iff, TlsComplete]
  -- the other required fields are among the rules of the validator
  obtain ⟨hacme, hmanual⟩ := tls_of_validate pathExists h hl
  refine and_congr_right fun _ => or_congr ?_ (and_congr_right fun hmode => ?_)
  · exact ⟨And.left, fun hmode => ⟨hmode, hmanual hmode⟩⟩
  · exact ⟨And.right, fun hcache => ⟨hacme hmode, hcache⟩⟩

end

/-- The sample configuration with another listener. -/
def withListener (l : ListenerConfig) : FullConfig :=
  { Routing.sampleConfig with listeners := [l] }

theorem denotes_sample : Denotes Routing.sampleListener.bindAddr (.v4 ⟨127, 0, 0, 1⟩) :=
  Or.inl ⟨_, rfl, rfl⟩

theorem startup_checks_iff_sample :
    BindsParse Routing.sampleListener ∧ NeverBails Routing.sampleListener.tls := by
  let _ := asciiLowercase
  have hchecks := startup_checks_iff (fun _ => true) Routing.sampleConfig.intoStaticAndDynamic.1
    Routing.sampleConfig.intoStaticAndDynamic.2 false Routing.validate_sampleConfig
  refine hchecks.mpr (fun l hl => ?_) Routing.sampleListener (List.mem_singleton_self _)
  obtain rfl : l = Routing.sampleListener := List.mem_singleton.mp hl
  exact ⟨⟨_, denotes_sample⟩, Or.inl rfl⟩

/-- A host name as bind address, a mode that does not exist, and ACME without
its cache: all three are accepted, and none can be started. -/
theorem startup_checks_fail : letI := asciiLowercase
    let accepted := fun l => validate (fun _ => true) (withListener l).intoStaticAndDynamic.1
      (withListener l).intoStaticAndDynamic.2 false = .ok ()
    let noTls := fun (_ : TlsConfig) => (Except.ok () : Except Str Unit)
    (accepted { Routing.sampleListener with bindAddr := "localhost".toList } ∧
      SocketAddr.parse (socketText "localhost".toList 443) = none) ∧
    (accepted { Routing.sampleListener with tls := { mode := "auto".toList } } ∧
      setupTls (fun _ _ => .ok ()) noTls { mode := "auto".toList }
        = .error (.bail (.unknownMode "auto".toList))) ∧
    let acme : TlsConfig := { mode := "acme".toList, acmeDomains := ["example.com".toList],
                              acmeContact := "mailto:admin@example.com".toList }
    accepted { Routing.sampleListener with tls := acme } ∧
      setupTls (fun _ _ => .ok ()) noTls acme = .error (.bail .acmeCacheDir) := by
  let _ := asciiLowercase
  exact ⟨⟨rfl, rfl⟩, ⟨rfl, rfl⟩, rfl, rfl⟩

/-! ### Wildcard addresses -/

section

variable [Lowercase]

/-- The address `::`. -/
def unspecifiedV6 : Ipv6Addr := ⟨[0, 0, 0, 0, 0, 0, 0, 0], rfl⟩

/-- The address `::ffff:0.0.0.0`. -/
def mappedUnspecified : Ipv6Addr := ⟨[0, 0, 0, 0, 0, 0xffff, 0, 0], rfl⟩

/-- Binding to the address binds to all interfaces. -/
def Wildcard (ip : IpAddr) : Prop :=
  ip = .v4 ⟨0, 0, 0, 0⟩ ∨ ip = .v6 unspecifiedV6 ∨ ip = .v6 mappedUnspecified

omit [Lowercase] in
/-- The IPv4 wildcard has the one spelling that the validator compares with. -/
theorem eq_of_denotes_wildcard {a : Str} (h : Denotes a (.v4 ⟨0, 0, 0, 0⟩)) :
    a = "0.0.0.0".toList := by
  rcases h with ⟨v4, hv4, heq⟩ | ⟨_, _, _, _, _, heq⟩
  · obtain rfl : ⟨0, 0, 0, 0⟩ = v4 := IpAddr.v4.inj heq
    have hread := readIpv4Addr_zero (parseWith_eq_some.mp hv4)
    rw [List.append_nil] at hread
    exact hread
  · cases heq

/-- A spelling of `::` or of `::ffff:0.0.0.0`, in brackets. -/
def SpellsWildcardV6 (a : Str) : Prop :=
  ∃ inner v6 scopeId, a = '[' :: inner ++ [']'] ∧
    parseWith readBracketed inner = some (v6, scopeId) ∧
    (v6 = unspecifiedV6 ∨ v6 = mappedUnspecified)

omit [Lowercase] in
theorem denotes_wildcard_iff {a : Str} (hne : a ≠ "0.0.0.0".toList) :
    (∃ ip, Denotes a ip ∧ Wildcard ip) ↔ SpellsWildcardV6 a := by
  constructor
  · rintro ⟨ip, hip, hwild⟩
    rcases hip with ⟨v4, hv4, rfl⟩ | ⟨inner, v6, scopeId, ha, hinner, rfl⟩
    · rcases hwild with heq | heq | heq
      · exact absurd (eq_of_denotes_wildcard (Or.inl ⟨v4, hv4, heq.symm⟩)) hne
      · cases heq
      · cases heq
    · refine ⟨inner, v6, scopeId, ha, hinner, ?_⟩
      rcases hwild with heq | heq | heq
      · cases heq
      · exact Or.inl (IpAddr.v6.inj heq)
      · exact Or.inr (IpAddr.v6.inj heq)
  · rintro ⟨inner, v6, scopeId, ha, hinner, hv6⟩
    refine ⟨.v6 v6, Or.inr ⟨inner, v6, scopeId, ha, hinner, rfl⟩, Or.inr ?_⟩
    exact hv6.imp (congrArg IpAddr.v6) (congrArg IpAddr.v6)

/-- **Explicit bind addresses.**  An accepted configuration without the
wildcard flags binds no wildcard address just when no bind address is an IPv6
spelling of one. -/
theorem wildcard_free_iff (pathExists : Str → Bool) (staticConfig : StaticConfig)
    (dynamicConfig : DynamicConfig)
    (h : validate pathExists staticConfig dynamicConfig false = .ok ())
    (hflag : staticConfig.allowWildcardBind = false) :
    (∀ l ∈ staticConfig.listeners, ∀ port ∈ ports l, ∀ sa,
      SocketAddr.parse (socketText l.bindAddr port) = some sa → ¬ Wildcard sa.ip) ↔
    ∀ l ∈ staticConfig.listeners, ¬ SpellsWildcardV6 l.bindAddr := by
  have hne : ∀ l ∈ staticConfig.listeners, l.bindAddr ≠ "0.0.0.0".toList := by
    have hrule := ((validate_flag pathExists).mp h).2
    rw [hflag] at hrule
    exact hrule.resolve_left nofun
  refine forall₂_congr fun l hl => ?_
  rw [← denotes_wildcard_iff (hne l hl)]
  constructor
  · rintro hfree ⟨ip, hip, hwild⟩
    obtain ⟨sa, hsa, rfl⟩ := parse_socketText_ip.mpr hip
    exact hfree l.httpsPort (httpsPort_mem_ports l) sa hsa hwild
  · intro hfree port _ sa hsa hwild
    exact hfree ⟨sa.ip, parse_socketText_ip.mp ⟨sa, hsa, rfl⟩, hwild⟩

end

theorem wildcard_free_iff_sample :
    ∃ sa, SocketAddr.parse (socketText Routing.sampleListener.bindAddr 443) = some sa ∧
      ¬ Wildcard sa.ip := by
  let _ := asciiLowercase
  have hfree := wildcard_free_iff (fun _ => true) Routing.sampleConfig.intoStaticAndDynamic.1
    Routing.sampleConfig.intoStaticAndDynamic.2 Routing.validate_sampleConfig rfl
  refine ⟨.v4 ⟨127, 0, 0, 1⟩ 443, rfl, ?_⟩
  refine hfree.mpr (fun l hl => ?_) Routing.sampleListener (List.mem_singleton_self _) 443
    (httpsPort_mem_ports Routing.sampleListener) _ rfl
  obtain rfl : l = Routing.sampleListener := List.mem_singleton.mp hl
  rintro ⟨inner, v6, scopeId, hbracket, -⟩
  have hfirst : some '1' = some '[' := congrArg List.head? hbracket
  exact absurd hfirst (by decide)

/-- Two spellings of the IPv6 wildcard that are accepted without the flags. -/
theorem wildcard_bound : letI := asciiLowercase
    let bound := fun bindAddr =>
      let full := withListener { Routing.sampleListener with bindAddr := bindAddr }
      validate (fun _ => true) full.intoStaticAndDynamic.1 full.intoStaticAndDynamic.2 false
        = .ok () ∧
      full.allowWildcardBind = false ∧
      ∃ sa, SocketAddr.parse (socketText bindAddr 443) = some sa ∧ Wildcard sa.ip
    bound "[::]".toList ∧ bound "[::ffff:0.0.0.0]".toList := by
  let _ := asciiLowercase
  refine ⟨?_, ?_⟩
  · exact ⟨rfl, rfl, _, rfl, Or.inr (Or.inl rfl)⟩
  · exact ⟨rfl, rfl, _, rfl, Or.inr (Or.inr rfl)⟩

end Startup
