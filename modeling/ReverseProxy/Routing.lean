/-
Which host texts are routed to which site.

Four functions have to agree on one notion of host: the validator's grammar
(`isValidHostname`), the duplicate scan over lower-cased hosts, the last-wins
collection of the routing table, and the normalisation of a request host.

* `hostPart_of_isValidUpstream` — the upstreams that the validator accepts;
* `lookup_routingTable` — for an accepted configuration the table is exactly
  the sites under their lower-cased hosts;
* `NamesHost` — the host texts the normalisation takes to a given site host;
* `lookup_host_and_port` — every site is found under its host in any letter
  case, with and without a port, and no site shadows another;
* `lookup_iff_namesHost` — conversely, these are the only texts that are
  routed, up to stray closing brackets.
-/
import ReverseProxy.HostnameGrammar

open Text AddrParser NetAddr Config Validation

namespace Routing

/-! ### The validator's host grammar -/

theorem hostChar_of_isValidHostname {host : Str} (h : isValidHostname host) :
    ∀ c ∈ host, isHostChar c ∨ c = '.' := by
  obtain ⟨labels, -, rfl, hlabels⟩ := Hostname.isHostname_of_isValidHostname h
  intro c hc
  rcases mem_intercalate hc with rfl | ⟨l, hl, hcl⟩
  · exact Or.inr rfl
  · exact Or.inl (Hostname.isHostChar_iff.mpr ((hlabels l hl).chars c hcl))

theorem ne_nil_of_isValidHostname {host : Str} (h : isValidHostname host) : host ≠ [] := by
  rintro rfl
  exact absurd h (by decide)

theorem not_mem_of_isValidHostname {host : Str} (h : isValidHostname host) {c : Char}
    (hc : isHostChar c = false) (hdot : c ≠ '.') : c ∉ host := by
  intro hmem
  rcases hostChar_of_isValidHostname h c hmem with hhost | hhost
  · rw [hc] at hhost
    exact absurd hhost (by decide)
  · exact hdot hhost

/-- The characters of host names, addresses and ports. -/
def UpstreamChar (c : Char) : Prop :=
  isHostChar c ∨ AddrChar c ∨ c = '[' ∨ c = ']' ∨ c = '+'

instance (c : Char) : Decidable (UpstreamChar c) :=
  inferInstanceAs (Decidable (_ ∨ _))

/-- A number has only digits, up to the sign in front. -/
theorem digit_or_plus_of_parseU16 {s : Str} {port : UInt16} (h : parseU16 s = some port) :
    ∀ c ∈ s, (toDigit 10 c).isSome = true ∨ c = '+' := by
  obtain ⟨n, hn, -⟩ := Option.map_eq_some_iff.mp h
  have hdigits := (readNumber_readsOnly 10 65536 none true).of_parseWith hn
  intro c hc
  cases s with
  | nil => exact absurd hc List.not_mem_nil
  | cons d s =>
    by_cases hplus : d = '+'
    · rw [hplus, stripPrefix_cons_self, Option.getD_some] at hdigits
      rcases List.mem_cons.mp hc with rfl | hc
      · exact Or.inr hplus
      · exact Or.inl (hdigits c hc)
    · rw [stripPrefix_eq_none (by simpa using hplus), Option.getD_none] at hdigits
      exact Or.inl (hdigits c hc)

theorem eq_bracketed {s : Str} (hopen : s.head? = some '[') (hclose : s.getLast? = some ']') :
    s = '[' :: (s.drop 1).dropLast ++ [']'] := by
  cases s with
  | nil => cases hopen
  | cons c inner =>
    obtain rfl : c = '[' := Option.some_inj.mp hopen
    have hne : inner ≠ [] := by
      rintro rfl
      cases hclose
    rw [List.getLast?_cons_of_ne_nil hne, List.getLast?_eq_some_getLast hne,
      Option.some_inj] at hclose
    rw [List.drop_one, List.tail_cons, List.cons_append, ← hclose,
      List.dropLast_append_getLast hne]

/-- The host of an upstream: an IPv6 address in brackets, another address or a
host name. -/
def IsHostPart (host : Str) : Prop :=
  (∃ inner ip, host = '[' :: inner ++ [']'] ∧ Ipv6Addr.parse inner = some ip) ∨
    (∃ ip, IpAddr.parse host = some ip) ∨ isValidHostname host = true

/-- **The upstreams that the validator accepts.** -/
theorem hostPart_of_isValidUpstream {upstream : Str} (h : isValidUpstream upstream = true) :
    ∃ hostPart portStr port, upstream = hostPart ++ ':' :: portStr ∧
      parseU16 portStr = some port ∧ IsHostPart hostPart := by
  have hcolon : ':' ∈ upstream := by
    by_contra hno
    rw [isValidUpstream, rfind_eq_none.mpr hno] at h
    exact absurd h Bool.false_ne_true
  obtain ⟨hostPart, portStr, rfl, hlast⟩ := exists_last_of_mem hcolon
  have hport : (hostPart ++ ':' :: portStr).drop (hostPart.length + 1) = portStr := by
    rw [← List.drop_drop, List.drop_left, List.drop_one, List.tail_cons]
  rw [isValidUpstream, rfind_append hostPart hlast] at h
  simp only [List.take_left, hport, Bool.if_false_left, Bool.and_eq_true] at h
  obtain ⟨-, -, h⟩ := h
  split at h
  · exact absurd h Bool.false_ne_true
  · next port hparse =>
    refine ⟨hostPart, portStr, port, rfl, hparse, ?_⟩
    have hhost := ((Bool.and_eq_true _ _).mp h).2
    split at hhost
    · next hbrackets =>
      obtain ⟨ip, hip⟩ := Option.isSome_iff_exists.mp hhost
      exact Or.inl ⟨_, ip, eq_bracketed (beq_iff_eq.mp hbrackets.1) (beq_iff_eq.mp hbrackets.2),
        hip⟩
    · rcases (Bool.or_eq_true _ _).mp hhost with hip | hname
      · exact Or.inr (Or.inl (Option.isSome_iff_exists.mp hip))
      · exact Or.inr (Or.inr hname)

theorem upstreamChar_of_isHostPart {hostPart : Str} (h : IsHostPart hostPart) :
    ∀ c ∈ hostPart, UpstreamChar c := by
  have haddr : ∀ {c}, AddrChar c → UpstreamChar c := fun hc => Or.inr (Or.inl hc)
  intro c hc
  rcases h with ⟨inner, ip, rfl, hip⟩ | ⟨ip, hip⟩ | hname
  · rcases List.mem_cons.mp hc with rfl | hc
    · decide
    · rcases List.mem_append.mp hc with hc | hc
      · exact haddr (readIpv6Addr_readsOnly.of_parseWith hip c hc)
      · rw [List.mem_singleton.mp hc]
        decide
  · exact haddr (IpAddr.addrChar_of_parse hip c hc)
  · rcases hostChar_of_isValidHostname hname c hc with hhost | rfl
    · exact Or.inl hhost
    · exact haddr (by decide)

theorem upstreamChar_of_isValidUpstream {upstream : Str} (h : isValidUpstream upstream) :
    ∀ c ∈ upstream, UpstreamChar c := by
  obtain ⟨hostPart, portStr, port, rfl, hparse, hhost⟩ := hostPart_of_isValidUpstream h
  intro c hc
  rcases List.mem_append.mp hc with hc | hc
  · exact upstreamChar_of_isHostPart hhost c hc
  · rcases List.mem_cons.mp hc with rfl | hc
    · decide
    · rcases digit_or_plus_of_parseU16 hparse c hc with hdigit | hplus
      · exact Or.inr (Or.inl (Or.inl (toDigit_isSome_mono (by omega) hdigit)))
      · exact Or.inr (Or.inr (Or.inr (Or.inr hplus)))

theorem isAscii_of_isValidHostname {host : Str} (h : isValidHostname host) : IsAscii host := by
  intro c hc
  rcases hostChar_of_isValidHostname h c hc with hhost | rfl
  · simp only [isHostChar, Char.isAlphanum, Char.isAlpha, Char.isUpper, Char.isLower, Char.isDigit,
      Bool.or_eq_true, Bool.and_eq_true, decide_eq_true_eq, beq_iff_eq] at hhost
    -- the largest character of the grammar is a lower-case z
    rcases hhost with ((⟨-, hle⟩ | ⟨-, hle⟩) | ⟨-, hle⟩) | rfl
    · exact lt_of_le_of_lt (UInt32.le_iff_toNat_le.mp hle) (by decide)
    · exact lt_of_le_of_lt (UInt32.le_iff_toNat_le.mp hle) (by decide)
    · exact lt_of_le_of_lt (UInt32.le_iff_toNat_le.mp hle) (by decide)
    · decide
  · decide

/-! ### The texts that name a host -/

/-- The request hosts that name a site host: the host in brackets, whatever
follows, or the host itself, or the host with a colon and any text without
one. -/
def NamesHost (h host : Str) : Prop :=
  (∃ inner rest, h = '[' :: inner ++ ']' :: rest ∧ ']' ∉ inner ∧ EqIgnoreAsciiCase inner host) ∨
  EqIgnoreAsciiCase h host ∨
  ∃ name port, h = name ++ ':' :: port ∧ ':' ∉ port ∧ EqIgnoreAsciiCase name host

/-- No opening bracket, but a closing one before the port. -/
def StrayBracket (h : Str) : Prop :=
  h.head? ≠ some '[' ∧ (stripPortFromHost h).getLast? = some ']'

instance (h : Str) : Decidable (StrayBracket h) :=
  inferInstanceAs (Decidable (_ ∧ _))

/-- What a text that is a valid host up to letter case has in common with it. -/
structure LikeHost (name : Str) : Prop where
  isAscii : IsAscii name
  ne_nil : name ≠ []
  no_colon : ':' ∉ name
  no_open : '[' ∉ name
  no_close : ']' ∉ name

theorem LikeHost.head?_ne {name : Str} (h : LikeHost name) (rest : Str) :
    (name ++ rest).head? ≠ some '[' := by
  obtain ⟨c, name', rfl⟩ := List.exists_cons_of_ne_nil h.ne_nil
  intro hc
  rw [List.cons_append, List.head?_cons, Option.some_inj] at hc
  exact h.no_open (hc ▸ List.mem_cons_self)

theorem likeHost {name host : Str} (hvalid : isValidHostname host)
    (h : EqIgnoreAsciiCase name host) : LikeHost name where
  isAscii := h.isAscii_iff.mpr (isAscii_of_isValidHostname hvalid)
  ne_nil := by
    rintro rfl
    exact ne_nil_of_isValidHostname hvalid (List.map_eq_nil_iff.mp h.symm)
  no_colon := fun hc => not_mem_of_isValidHostname hvalid (by decide) (by decide)
    ((h.mem_iff (by decide)).mp hc)
  no_open := fun hc => not_mem_of_isValidHostname hvalid (by decide) (by decide)
    ((h.mem_iff (by decide)).mp hc)
  no_close := fun hc => not_mem_of_isValidHostname hvalid (by decide) (by decide)
    ((h.mem_iff (by decide)).mp hc)

/-! ### Normalising a host -/

section

variable [Lowercase]

theorem normalizeHost_of_strip {h name : Str} (hs : stripPortFromHost h = name)
    (hascii : IsAscii name) (hfirst : name.head? ≠ some '[') (hlast : name.getLast? ≠ some ']') :
    normalizeHost h = name.map Char.toLower := by
  have hfirst' : (name.map Char.toLower).head? ≠ some '[' :=
    fun hd => hfirst ((head?_map_toLower (by decide)).mp hd)
  have hlast' : (name.map Char.toLower).getLast? ≠ some ']' :=
    fun hd => hlast ((getLast?_map_toLower (by decide)).mp hd)
  simp only [normalizeHost]
  rw [hs, Lowercase.toLowercase_ascii name hascii, stripPrefix_eq_none hfirst', Option.getD_none,
    stripSuffix_eq_none hlast', Option.getD_none]

/-- Between brackets only the text up to the first closing one counts. -/
theorem normalizeHost_bracket {inner : Str} (h : ']' ∉ inner) (hascii : IsAscii inner)
    (rest : Str) : normalizeHost ('[' :: inner ++ ']' :: rest) = inner.map Char.toLower := by
  have hascii' : IsAscii ('[' :: inner ++ [']']) := by
    intro c hc
    rcases List.mem_append.mp hc with hc | hc
    · rcases List.mem_cons.mp hc with rfl | hc
      · decide
      · exact hascii c hc
    · rw [List.mem_singleton.mp hc]
      decide
  simp only [normalizeHost]
  rw [stripPortFromHost_bracket h, Lowercase.toLowercase_ascii _ hascii']
  have hmap : ('[' :: inner ++ [']']).map Char.toLower
      = '[' :: (inner.map Char.toLower ++ [']']) := by
    rw [List.map_append, List.map_cons]
    rfl
  rw [hmap, stripPrefix_cons_self, Option.getD_some, stripSuffix_append, Option.getD_some]

/-- Without a closing bracket the opening one stays. -/
theorem normalizeHost_open {inner : Str} (h : ']' ∉ inner) (hascii : IsAscii ('[' :: inner)) :
    normalizeHost ('[' :: inner) = ('[' :: inner).map Char.toLower := by
  have hlast : (inner.map Char.toLower).getLast? ≠ some ']' := by
    intro hd
    exact h (List.mem_of_getLast? ((getLast?_map_toLower (by decide)).mp hd))
  simp only [normalizeHost]
  rw [stripPortFromHost_open h, Lowercase.toLowercase_ascii _ hascii, List.map_cons,
    show Char.toLower '[' = '[' by decide, stripPrefix_cons_self, Option.getD_some,
    stripSuffix_eq_none hlast, Option.getD_none]

theorem normalizeHost_of_namesHost {h host : Str} (hvalid : isValidHostname host)
    (hnames : NamesHost h host) : normalizeHost h = host.map Char.toLower := by
  rcases hnames with ⟨inner, rest, rfl, hclose, heq⟩ | heq | ⟨name, port, rfl, hport, heq⟩
  · rw [normalizeHost_bracket hclose (likeHost hvalid heq).isAscii, heq]
  · have hl := likeHost hvalid heq
    have hfirst : h.head? ≠ some '[' := by simpa using hl.head?_ne []
    have hstrip := stripPortFromHost_noPort hfirst hl.no_colon
    rw [normalizeHost_of_strip hstrip hl.isAscii hfirst
      fun hlast => hl.no_close (List.mem_of_getLast? hlast), heq]
  · have hl := likeHost hvalid heq
    have hstrip := stripPortFromHost_port (hl.head?_ne (':' :: port)) hport
    rw [normalizeHost_of_strip hstrip hl.isAscii (by simpa using hl.head?_ne [])
      fun hlast => hl.no_close (List.mem_of_getLast? hlast), heq]

/-- The other direction.  The cases are the ways through `stripPortFromHost`;
a text that opens a bracket and never closes it keeps the bracket, so no valid
host is left. -/
theorem namesHost_of_normalizeHost {h host : Str} (hvalid : isValidHostname host)
    (hascii : IsAscii h) (hstray : ¬ StrayBracket h)
    (heq : normalizeHost h = host.map Char.toLower) : NamesHost h host := by
  by_cases hfirst : h.head? = some '['
  · obtain ⟨inner, rfl⟩ : ∃ inner, h = '[' :: inner := by
      cases h with
      | nil => simp at hfirst
      | cons c inner => exact ⟨inner, by simpa using hfirst⟩
    by_cases hclose : ']' ∈ inner
    · obtain ⟨name, rest, rfl, hname⟩ := List.eq_append_cons_of_mem hclose
      have hname' : IsAscii name := fun c hc => hascii c (by simp [hc])
      rw [← List.cons_append, normalizeHost_bracket hname hname'] at heq
      exact Or.inl ⟨name, rest, rfl, hname, heq⟩
    · -- the bracket stays, and no valid host has one
      have hopen : '[' ∈ host.map Char.toLower := by
        rw [← heq, normalizeHost_open hclose hascii]
        exact List.mem_cons_self
      rw [mem_map_toLower (by decide)] at hopen
      exact absurd hopen (not_mem_of_isValidHostname hvalid (by decide) (by decide))
  · have hlast : (stripPortFromHost h).getLast? ≠ some ']' := fun hl => hstray ⟨hfirst, hl⟩
    by_cases hcolon : ':' ∈ h
    · -- the port is what follows the last colon
      obtain ⟨name, port, rfl, hport⟩ := exists_last_of_mem hcolon
      have hstrip := stripPortFromHost_port hfirst hport
      have hname : IsAscii name := fun c hc => hascii c (List.mem_append_left _ hc)
      have hhead : name.head? ≠ some '[' := by
        intro hd
        exact hfirst (by rw [List.head?_append, hd]; rfl)
      rw [normalizeHost_of_strip hstrip hname hhead (hstrip ▸ hlast)] at heq
      exact Or.inr (Or.inr ⟨name, port, rfl, hport, heq⟩)
    · have hstrip := stripPortFromHost_noPort hfirst hcolon
      rw [normalizeHost_of_strip hstrip hascii hfirst (hstrip ▸ hlast)] at heq
      exact Or.inr (Or.inl heq)

/-! ### The table of an accepted configuration -/

theorem lookup_routingTable {sites : List SiteConfig} (hsites : ∀ s ∈ sites, SiteAccepted s)
    (hnodup : (hostKeys sites).Nodup) {k : Str} {s : SiteConfig} :
    (buildRoutingTable sites).lookup k = some s ↔ s ∈ sites ∧ k = s.host.map Char.toLower := by
  have hkey : ∀ {s}, s ∈ sites → toLowercase s.host = s.host.map Char.toLower := fun hs =>
    Lowercase.toLowercase_ascii _ (isAscii_of_isValidHostname (hsites _ hs).hostname)
  constructor
  · intro h
    obtain ⟨hs, hk⟩ := lookup_buildRoutingTable_sound h
    exact ⟨hs, hk ▸ hkey hs⟩
  · rintro ⟨hs, rfl⟩
    rw [← hkey hs]
    exact lookup_buildRoutingTable hnodup hs

/-- The sites of all listeners, in order. -/
def allSites (full : FullConfig) : List SiteConfig := full.listeners.flatMap (·.sites)

theorem lookup_eq_some_iff {full : FullConfig}
    (hacc : Accepted full.intoStaticAndDynamic.1) {h : Str} {s : SiteConfig} :
    full.intoStaticAndDynamic.2.lookup h = some s ↔
      s ∈ allSites full ∧ normalizeHost h = s.host.map Char.toLower :=
  lookup_routingTable hacc.sites hacc.hosts_nodup

theorem lookup_of_namesHost {full : FullConfig} (hacc : Accepted full.intoStaticAndDynamic.1)
    {h : Str} {s : SiteConfig} (hs : s ∈ allSites full) (hnames : NamesHost h s.host) :
    full.intoStaticAndDynamic.2.lookup h = some s :=
  (lookup_eq_some_iff hacc).mpr ⟨hs, normalizeHost_of_namesHost (hacc.sites s hs).hostname hnames⟩

/-- **Completeness and unambiguity of routing.**  In an accepted configuration
every site is found under its own host in any letter case, alone or with a
decimal port, and the table has one entry for each site. -/
theorem lookup_host_and_port (pathExists : Str → Bool) (full : FullConfig) (cli : Bool)
    (haccept : validate pathExists full.intoStaticAndDynamic.1 full.intoStaticAndDynamic.2 cli
      = .ok ()) :
    (∀ l ∈ full.listeners, ∀ s ∈ l.sites, ∀ h, EqIgnoreAsciiCase h s.host →
      ∀ p : Str, (∀ c ∈ p, c.isDigit) →
        full.intoStaticAndDynamic.2.lookup h = some s ∧
        full.intoStaticAndDynamic.2.lookup (h ++ ':' :: p) = some s) ∧
    full.intoStaticAndDynamic.2.routingTable.keys.length
      = (full.listeners.map fun l => l.sites.length).sum := by
  have hacc := accepted_of_validate pathExists haccept
  constructor
  · intro l hl s hs h heq p hp
    have hmem : s ∈ allSites full := List.mem_flatMap.mpr ⟨l, hl, hs⟩
    have hport : ':' ∉ p := fun hc => absurd (hp ':' hc) (by decide)
    exact ⟨lookup_of_namesHost hacc hmem (Or.inr (Or.inl heq)),
      lookup_of_namesHost hacc hmem (Or.inr (Or.inr ⟨h, p, rfl, hport, heq⟩))⟩
  · calc (buildRoutingTable (allSites full)).keys.length
        = (allSites full).length := length_keys_buildRoutingTable hacc.hosts_nodup
      _ = (full.listeners.map fun l => l.sites.length).sum := List.length_flatMap

end

def sampleSite : SiteConfig where
  host := "Example.com".toList
  upstream := "127.0.0.1:8080".toList

def sampleListener : ListenerConfig where
  bindAddr := "127.0.0.1".toList
  tls := { mode := "manual".toList, certPath := "/c.pem".toList, keyPath := "/k.pem".toList }
  sites := [sampleSite]

def sampleConfig : FullConfig where
  listeners := [sampleListener]
  rateLimit := { requestsPerSecond := 10, burst := 20 }
  body := { limitBytes := 1024 }

theorem validate_sampleConfig : letI := asciiLowercase
    validate (fun _ => true) sampleConfig.intoStaticAndDynamic.1
      sampleConfig.intoStaticAndDynamic.2 false = .ok () := by
  rfl

def otherSite : SiteConfig where
  host := "api.example.com".toList
  upstream := "127.0.0.1:8081".toList

/-- Two sites behind one listener. -/
def pairConfig : FullConfig :=
  { sampleConfig with listeners := [{ sampleListener with sites := [sampleSite, otherSite] }] }

theorem lookup_host_and_port_sample : letI := asciiLowercase
    pairConfig.intoStaticAndDynamic.2.lookup "EXAMPLE.com".toList = some sampleSite ∧
    pairConfig.intoStaticAndDynamic.2.lookup "API.example.com:8443".toList = some otherSite ∧
    pairConfig.intoStaticAndDynamic.2.routingTable.keys.length = 2 := by
  let _ := asciiLowercase
  have haccept : validate (fun _ => true) pairConfig.intoStaticAndDynamic.1
      pairConfig.intoStaticAndDynamic.2 false = .ok () := rfl
  obtain ⟨hlookup, hlength⟩ := lookup_host_and_port (fun _ => true) pairConfig false haccept
  have hports : ∀ c ∈ "8443".toList, c.isDigit := List.all_eq_true.mp rfl
  have hfirst := hlookup _ (List.mem_singleton_self _) sampleSite List.mem_cons_self
    "EXAMPLE.com".toList (by decide) _ hports
  have hsecond := hlookup _ (List.mem_singleton_self _) otherSite
    (List.mem_cons_of_mem _ (List.mem_singleton_self _)) "API.example.com".toList (by decide) _
    hports
  exact ⟨hfirst.1, hsecond.2, hlength⟩

section

variable [Lowercase]

/-- **Soundness of routing.**  Apart from stray closing brackets, the ASCII
texts that an accepted configuration routes to a site are those that name its
host. -/
theorem lookup_iff_namesHost (pathExists : Str → Bool) (full : FullConfig) (cli : Bool)
    (haccept : validate pathExists full.intoStaticAndDynamic.1 full.intoStaticAndDynamic.2 cli
      = .ok ()) (h : Str) (hascii : IsAscii h) (hstray : ¬ StrayBracket h) (s : SiteConfig) :
    full.intoStaticAndDynamic.2.lookup h = some s ↔
      s ∈ allSites full ∧ NamesHost h s.host := by
  have hacc := accepted_of_validate pathExists haccept
  constructor
  · intro hlookup
    obtain ⟨hs, hnorm⟩ := (lookup_eq_some_iff hacc).mp hlookup
    exact ⟨hs, namesHost_of_normalizeHost (hacc.sites s hs).hostname hascii hstray hnorm⟩
  · rintro ⟨hs, hnames⟩
    exact lookup_of_namesHost hacc hs hnames

end

/-- A text in brackets that both sides hold of. -/
theorem lookup_iff_namesHost_sample : letI := asciiLowercase
    sampleConfig.intoStaticAndDynamic.2.lookup "[EXAMPLE.com]:x".toList = some sampleSite ∧
      sampleSite ∈ allSites sampleConfig ∧
        NamesHost "[EXAMPLE.com]:x".toList sampleSite.host := by
  let _ := asciiLowercase
  have hfound : sampleConfig.intoStaticAndDynamic.2.lookup "[EXAMPLE.com]:x".toList
      = some sampleSite := rfl
  exact ⟨hfound, (lookup_iff_namesHost (fun _ => true) sampleConfig false validate_sampleConfig
    "[EXAMPLE.com]:x".toList (by decide) (by decide) sampleSite).mp hfound⟩

/-- The host up to letter case, alone or with a colon and decimal digits. -/
def HostAndPort (h host : Str) : Prop :=
  EqIgnoreAsciiCase h host ∨
  ∃ name digits, h = name ++ ':' :: digits ∧ EqIgnoreAsciiCase name host ∧
    ∀ c ∈ digits, c.isDigit

/-- Brackets around a host name, and text after them, are routed all the
same. -/
theorem lookup_bracketed_host : letI := asciiLowercase
    validate (fun _ => true) sampleConfig.intoStaticAndDynamic.1
      sampleConfig.intoStaticAndDynamic.2 false = .ok () ∧
    sampleConfig.intoStaticAndDynamic.2.lookup "[example.com] x".toList = some sampleSite ∧
    (∀ c ∈ "[example.com] x".toList, 32 ≤ c.toNat ∧ c.toNat ≤ 126) ∧
    ¬ HostAndPort "[example.com] x".toList sampleSite.host := by
  refine ⟨validate_sampleConfig, by rfl, by simp, ?_⟩
  rintro (heq | ⟨name, digits, hsplit, -, -⟩)
  · exact absurd heq (by decide)
  · have hcolon : ':' ∈ "[example.com] x".toList := by
      rw [hsplit]
      exact List.mem_append_right _ List.mem_cons_self
    exact absurd hcolon (by decide)

end Routing
