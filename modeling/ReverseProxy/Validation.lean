/-
Validation of a configuration.

`validate` collects every violated rule in the order of the source and
accepts when there is none.  The loops with their hash sets are written as
scans that carry the keys seen so far (`scanListeners`, `scanSites`); a scan
reports nothing exactly when the keys are pairwise distinct and every element
passes its own checks.  `Accepted` collects what acceptance means for the
results that follow, and `accepted_of_validate` is the only place where the
rules are unfolded for them.
-/
import ReverseProxy.Config
import ReverseProxy.NetAddr

open Text AddrParser NetAddr Config

namespace Validation

/-! ### Errors -/

inductive ValidationError where
  | noListeners
  | wildcardBindNotAllowed (bindAddr : Str)
  | duplicateHttpsBind (bindAddr : Str) (httpsPort : UInt16)
  | acmeDomainsEmpty (bindAddr : Str)
  | manualCertMissing (bindAddr : Str)
  | certPathNotReadable (bindAddr path reason : Str)
  | keyPathNotReadable (bindAddr path reason : Str)
  | siteHostEmpty (host : Str)
  | siteUpstreamEmpty (host : Str)
  | duplicateSiteHost (host : Str)
  | requestsPerSecondZero (value : UInt32)
  | bodyLimitBytesZero (value : UInt64)
  | duplicateHttpBind (bindAddr : Str) (httpPort : UInt16)
  | httpsAndHttpPortSame (bindAddr : Str) (httpPort httpsPort : UInt16)
  | httpsPortInvalid (bindAddr : Str) (httpsPort : UInt16)
  | httpPortInvalid (bindAddr : Str) (httpPort : UInt16)
  | healthCheckPortConflict (healthCheckPort : UInt16) (bindAddr : Str) (port : UInt16)
  | siteHostContainsPort (host : Str)
  | siteHostInvalid (host : Str)
  | upstreamInvalid (host upstream : Str)
  | upstreamSchemeInvalid (host scheme : Str)
  | acmeContactInvalid (bindAddr : Str)
  | adminKeyPathNotAbsolute (path : Str)
  | adminKeyPathTraversal (path : Str)
  | connectionIdleTimeoutZero (value : UInt64)
  | tlsHandshakeTimeoutZero (value : UInt64)
  | maxConnectionsZero (value : UInt64)
  | maxConnectionsExceedsNofile (maxConnections softLimit reserved : UInt64)
  deriving DecidableEq, Repr

/-- The `Display` texts of the errors. -/
def ValidationError.toText : ValidationError → Str
  | noListeners => "at least one listener must be defined".toList
  | wildcardBindNotAllowed bindAddr => "listener ".toList ++ bindAddr ++
      (": bind_addr is 0.0.0.0 but allow_wildcard_bind is not enabled " ++
        "(config or CLI flag required)").toList
  | duplicateHttpsBind bindAddr port =>
      "duplicate bind_addr:https_port combination: ".toList ++ bindAddr ++ ':' :: decimal port.toNat
  | acmeDomainsEmpty bindAddr =>
      "listener ".toList ++ bindAddr ++ ": ACME mode requires acme_domains to be non-empty".toList
  | manualCertMissing bindAddr =>
      "listener ".toList ++ bindAddr ++ ": manual mode requires both cert_path and key_path".toList
  | certPathNotReadable bindAddr path reason => "listener ".toList ++ bindAddr ++
      ": cert_path '".toList ++ path ++ "' is not readable: ".toList ++ reason
  | keyPathNotReadable bindAddr path reason => "listener ".toList ++ bindAddr ++
      ": key_path '".toList ++ path ++ "' is not readable: ".toList ++ reason
  | siteHostEmpty host => "site '".toList ++ host ++ "': host must be set".toList
  | siteUpstreamEmpty host => "site '".toList ++ host ++ "': upstream must be set".toList
  | duplicateSiteHost host => "duplicate site host '".toList ++ host ++ "' across listeners".toList
  | requestsPerSecondZero value =>
      "rate_limit.requests_per_second must be > 0, got ".toList ++ decimal value.toNat
  | bodyLimitBytesZero value => "body.limit_bytes must be > 0, got ".toList ++ decimal value.toNat
  | duplicateHttpBind bindAddr port =>
      "duplicate bind_addr:http_port combination: ".toList ++ bindAddr ++ ':' :: decimal port.toNat
  | httpsAndHttpPortSame bindAddr httpPort httpsPort => "listener ".toList ++ bindAddr ++
      ": http_port (".toList ++ decimal httpPort.toNat ++ ") and https_port (".toList ++
      decimal httpsPort.toNat ++ ") must differ".toList
  | httpsPortInvalid bindAddr port => "listener ".toList ++ bindAddr ++
      ": https_port must be 1-65535, got ".toList ++ decimal port.toNat
  | httpPortInvalid bindAddr port => "listener ".toList ++ bindAddr ++
      ": http_port must be 0 (disabled) or 1-65535, got ".toList ++ decimal port.toNat
  | healthCheckPortConflict healthCheckPort bindAddr port => "health_check_port ".toList ++
      decimal healthCheckPort.toNat ++ " conflicts with listener ".toList ++ bindAddr ++
      ':' :: decimal port.toNat
  | siteHostContainsPort host =>
      "site '".toList ++ host ++ "': host must not include a port number".toList
  | siteHostInvalid host => "site '".toList ++ host ++
      "': invalid hostname (must be a valid DNS name, not an IP address)".toList
  | upstreamInvalid host upstream => "site '".toList ++ host ++
      "': upstream must be in host:port format with port 1-65535, got '".toList ++ upstream ++
      "'".toList
  | upstreamSchemeInvalid host scheme => "site '".toList ++ host ++
      "': upstream_scheme must be 'http' or 'https', got '".toList ++ scheme ++ "'".toList
  | acmeContactInvalid bindAddr => "listener ".toList ++ bindAddr ++
      (": ACME mode requires acme_contact to be a valid mailto: URI " ++
        "(e.g., \"mailto:admin@example.com\")").toList
  | adminKeyPathNotAbsolute path =>
      "admin_key_path must be an absolute path or empty, got '".toList ++ path ++ "'".toList
  | adminKeyPathTraversal path =>
      "admin_key_path must not contain '..' path traversal: '".toList ++ path ++ "'".toList
  | connectionIdleTimeoutZero value =>
      "connection_idle_timeout_secs must be > 0, got ".toList ++ decimal value.toNat
  | tlsHandshakeTimeoutZero value =>
      "tls_handshake_timeout_secs must be > 0, got ".toList ++ decimal value.toNat
  | maxConnectionsZero value => "max_connections must be > 0, got ".toList ++ decimal value.toNat
  | maxConnectionsExceedsNofile maxConnections softLimit reserved =>
      "max_connections (".toList ++ decimal maxConnections.toNat ++ ") + reserved FDs (".toList ++
      decimal reserved.toNat ++ ") exceeds soft RLIMIT_NOFILE (".toList ++
      decimal softLimit.toNat ++ ("); raise nofile (docker-compose ulimits / systemd " ++
        "LimitNOFILE, e.g. 8192) or lower max_connections").toList

/-- An error when a condition is met. -/
def errorIf (c : Prop) [Decidable c] (e : ValidationError) : List ValidationError :=
  if c then [e] else []

@[simp] theorem errorIf_eq_nil {c : Prop} [Decidable c] {e : ValidationError} :
    errorIf c e = [] ↔ ¬ c := by
  rw [errorIf]
  split <;> simp_all

/-! ### Host names and upstreams -/

def isHostChar (c : Char) : Bool := c.isAlphanum || c == '-'

def isValidLabel (label : Str) : Bool :=
  !label.isEmpty && !(label.head? == some '-' || label.getLast? == some '-') &&
    label.all isHostChar

def isValidHostname (host : Str) : Bool :=
  if host.isEmpty then false
  else if host.contains ':' then false
  else if (IpAddr.parse host).isSome then false
  else if host.head? == some '-' || host.getLast? == some '-' then false
  else if host.contains '.' then (host.splitOn '.').all isValidLabel
  else host.all isHostChar

/-- `str::parse::<u16>`: decimal digits, with an optional plus sign. -/
def parseU16 (s : Str) : Option UInt16 :=
  (parseWith (readNumber 10 65536 none true) ((stripPrefix '+' s).getD s)).map UInt16.ofNat

def isValidUpstream (upstream : Str) : Bool :=
  match rfind ':' upstream with
  | none => false
  | some idx =>
    let hostPart := upstream.take idx
    let portStr := upstream.drop (idx + 1)
    if hostPart.isEmpty then false
    else if "http://".toList.isPrefixOf upstream || "https://".toList.isPrefixOf upstream then false
    else
      match parseU16 portStr with
      | none => false
      | some port =>
        if port = 0 then false
        else if hostPart.head? == some '[' && hostPart.getLast? == some ']' then
          (Ipv6Addr.parse (hostPart.drop 1).dropLast).isSome
        else (IpAddr.parse hostPart).isSome || isValidHostname hostPart

/-! ### The rules -/

section rules

variable [Lowercase] (pathExists : Str → Bool)

/-- The checks of `tls`; a mode that is neither `acme` nor `manual` has
none. -/
def tlsErrors (l : ListenerConfig) : List ValidationError :=
  if l.tls.mode = "acme".toList then
    errorIf (l.tls.acmeDomains = []) (.acmeDomainsEmpty l.bindAddr) ++
    if l.tls.acmeContact = [] ∨ ¬ "mailto:".toList <+: l.tls.acmeContact then
      [.acmeContactInvalid l.bindAddr]
    else
      let email := l.tls.acmeContact.drop 7
      errorIf (email = [] ∨ '@' ∉ email) (.acmeContactInvalid l.bindAddr)
  else if l.tls.mode = "manual".toList then
    if l.tls.certPath = [] ∨ l.tls.keyPath = [] then [.manualCertMissing l.bindAddr]
    else
      errorIf (¬ pathExists l.tls.certPath)
        (.certPathNotReadable l.bindAddr l.tls.certPath "file does not exist".toList) ++
      errorIf (¬ pathExists l.tls.keyPath)
        (.keyPathNotReadable l.bindAddr l.tls.keyPath "file does not exist".toList)
  else []

def ListenerConfig.httpsKey (l : ListenerConfig) : Str × UInt16 := (l.bindAddr, l.httpsPort)

def ListenerConfig.httpKey (l : ListenerConfig) : Str × UInt16 := (l.bindAddr, l.httpPort)

/-- The first loop over the listeners, with the bind keys inserted so far. -/
def scanListeners (allowWildcard : Bool) :
    List (Str × UInt16) → List (Str × UInt16) → List ListenerConfig → List ValidationError
  | _, _, [] => []
  | httpsKeys, httpKeys, l :: ls =>
    errorIf (l.bindAddr = "0.0.0.0".toList ∧ ¬ allowWildcard)
      (.wildcardBindNotAllowed l.bindAddr) ++
    errorIf (ListenerConfig.httpsKey l ∈ httpsKeys) (.duplicateHttpsBind l.bindAddr l.httpsPort) ++
    errorIf (0 < l.httpPort ∧ ListenerConfig.httpKey l ∈ httpKeys)
      (.duplicateHttpBind l.bindAddr l.httpPort) ++
    errorIf (l.httpsPort = 0) (.httpsPortInvalid l.bindAddr l.httpsPort) ++
    errorIf (0 < l.httpPort ∧ l.httpPort = l.httpsPort)
      (.httpsAndHttpPortSame l.bindAddr l.httpPort l.httpsPort) ++
    tlsErrors pathExists l ++
    scanListeners allowWildcard (ListenerConfig.httpsKey l :: httpsKeys)
      -- a disabled HTTP port is not recorded
      (if 0 < l.httpPort then ListenerConfig.httpKey l :: httpKeys else httpKeys) ls

def healthCheckErrors (healthCheckPort : UInt16) (l : ListenerConfig) : List ValidationError :=
  errorIf (healthCheckPort = l.httpsPort)
    (.healthCheckPortConflict healthCheckPort l.bindAddr l.httpsPort) ++
  errorIf (0 < l.httpPort ∧ healthCheckPort = l.httpPort)
    (.healthCheckPortConflict healthCheckPort l.bindAddr l.httpPort)

/-- The loop over the sites of all listeners, with the lower-cased hosts
inserted so far. -/
def scanSites : List Str → List SiteConfig → List ValidationError
  | _, [] => []
  | siteHosts, s :: sites =>
    errorIf (s.host = []) (.siteHostEmpty []) ++
    errorIf (s.upstream = []) (.siteUpstreamEmpty s.host) ++
    errorIf (toLowercase s.host ∈ siteHosts) (.duplicateSiteHost (toLowercase s.host)) ++
    errorIf (':' ∈ s.host) (.siteHostContainsPort s.host) ++
    errorIf (¬ isValidHostname s.host) (.siteHostInvalid s.host) ++
    errorIf (s.upstream ≠ [] ∧ ¬ isValidUpstream s.upstream)
      (.upstreamInvalid s.host s.upstream) ++
    errorIf (s.upstreamScheme ≠ "http".toList ∧ s.upstreamScheme ≠ "https".toList)
      (.upstreamSchemeInvalid s.host s.upstreamScheme) ++
    scanSites (toLowercase s.host :: siteHosts) sites

def adminKeyPathErrors (path : Str) : List ValidationError :=
  if path = [] then []
  else if path.head? ≠ some '/' then [.adminKeyPathNotAbsolute path]
  else errorIf ("..".toList <:+: path) (.adminKeyPathTraversal path)

def validationErrors (staticConfig : StaticConfig) (dynamicConfig : DynamicConfig)
    (cliAllowWildcardBind : Bool) : List ValidationError :=
  errorIf (staticConfig.listeners = []) .noListeners ++
  scanListeners pathExists (staticConfig.allowWildcardBind || cliAllowWildcardBind) [] []
    staticConfig.listeners ++
  (if 0 < staticConfig.healthCheckPort then
    staticConfig.listeners.flatMap (healthCheckErrors staticConfig.healthCheckPort)
  else []) ++
  scanSites [] (staticConfig.listeners.flatMap (·.sites)) ++
  errorIf (dynamicConfig.rateLimit.requestsPerSecond = 0) (.requestsPerSecondZero 0) ++
  errorIf (dynamicConfig.body.limitBytes = 0) (.bodyLimitBytesZero 0) ++
  adminKeyPathErrors staticConfig.adminKeyPath ++
  errorIf (staticConfig.connectionIdleTimeoutSecs = 0)
    (.connectionIdleTimeoutZero staticConfig.connectionIdleTimeoutSecs) ++
  errorIf (staticConfig.tlsHandshakeTimeoutSecs = 0)
    (.tlsHandshakeTimeoutZero staticConfig.tlsHandshakeTimeoutSecs) ++
  errorIf (staticConfig.maxConnections = 0) (.maxConnectionsZero staticConfig.maxConnections)

/-- `pathExists` stands for the file system that `Path::exists` asks. -/
def validate (staticConfig : StaticConfig) (dynamicConfig : DynamicConfig)
    (cliAllowWildcardBind : Bool) : Except (List ValidationError) Unit :=
  let errors := validationErrors pathExists staticConfig dynamicConfig cliAllowWildcardBind
  if errors = [] then .ok () else .error errors

theorem validate_eq_ok {staticConfig : StaticConfig} {dynamicConfig : DynamicConfig} {cli : Bool} :
    validate pathExists staticConfig dynamicConfig cli = .ok () ↔
      validationErrors pathExists staticConfig dynamicConfig cli = [] := by
  rw [validate]
  split <;> simp_all

/-- The configuration's own flag may be counted into the other one. -/
theorem validate_or_flag (staticConfig : StaticConfig) (dynamicConfig : DynamicConfig)
    (cli : Bool) :
    validate pathExists staticConfig dynamicConfig (staticConfig.allowWildcardBind || cli)
      = validate pathExists staticConfig dynamicConfig cli := by
  rw [validate, validate, validationErrors, ← Bool.or_assoc, Bool.or_self, validationErrors]

omit [Lowercase] in
/-- The flag is looked at only for a listener on `0.0.0.0`. -/
theorem scanListeners_flag (allowWildcard : Bool) (ls : List ListenerConfig) :
    ∀ httpsKeys httpKeys : List (Str × UInt16),
    scanListeners pathExists allowWildcard httpsKeys httpKeys ls = [] ↔
      scanListeners pathExists true httpsKeys httpKeys ls = [] ∧
        (allowWildcard = true ∨ ∀ l ∈ ls, l.bindAddr ≠ "0.0.0.0".toList) := by
  induction ls with
  | nil => simp [scanListeners]
  | cons l ls ih =>
    intro httpsKeys httpKeys
    simp only [scanListeners, List.append_eq_nil_iff, errorIf_eq_nil, ih, List.forall_mem_cons]
    cases allowWildcard with
    | true => simp
    | false => tauto

theorem validate_flag {staticConfig : StaticConfig} {dynamicConfig : DynamicConfig} {cli : Bool} :
    validate pathExists staticConfig dynamicConfig cli = .ok () ↔
      validate pathExists staticConfig dynamicConfig true = .ok () ∧
        ((staticConfig.allowWildcardBind || cli) = true ∨
          ∀ l ∈ staticConfig.listeners, l.bindAddr ≠ "0.0.0.0".toList) := by
  rw [validate_eq_ok, validate_eq_ok]
  simp only [validationErrors, List.append_eq_nil_iff, Bool.or_true]
  rw [scanListeners_flag pathExists (staticConfig.allowWildcardBind || cli)]
  tauto

/-! ### What acceptance gives -/

/-- What the loop over the sites checks of one site. -/
structure SiteAccepted (s : SiteConfig) : Prop where
  hostname : isValidHostname s.host
  upstream : isValidUpstream s.upstream
  scheme : s.upstreamScheme = "http".toList ∨ s.upstreamScheme = "https".toList

/-- What the loop over the listeners checks of the ports of one listener. -/
structure PortsAccepted (l : ListenerConfig) : Prop where
  httpsPort_ne : l.httpsPort ≠ 0
  httpPort_ne : 0 < l.httpPort → l.httpPort ≠ l.httpsPort

/-- The rules of `validate` that the results on routing and on binding use. -/
structure Accepted (staticConfig : StaticConfig) : Prop where
  httpsKeys_nodup : (staticConfig.listeners.map ListenerConfig.httpsKey).Nodup
  httpKeys_nodup :
    ((staticConfig.listeners.filter (0 < ·.httpPort)).map ListenerConfig.httpKey).Nodup
  ports : ∀ l ∈ staticConfig.listeners, PortsAccepted l
  healthCheckPort : 0 < staticConfig.healthCheckPort → ∀ l ∈ staticConfig.listeners,
    staticConfig.healthCheckPort ≠ l.httpsPort ∧
      (0 < l.httpPort → staticConfig.healthCheckPort ≠ l.httpPort)
  sites : ∀ s ∈ staticConfig.listeners.flatMap (·.sites), SiteAccepted s
  hosts_nodup : (hostKeys (staticConfig.listeners.flatMap (·.sites))).Nodup

theorem scanSites_eq_nil (sites : List SiteConfig) : ∀ {siteHosts : List Str},
    scanSites siteHosts sites = [] →
      (∀ s ∈ sites, SiteAccepted s) ∧ (hostKeys sites).Nodup ∧
        ∀ k ∈ hostKeys sites, k ∉ siteHosts := by
  induction sites with
  | nil => exact fun _ => ⟨by simp, List.nodup_nil, by simp [hostKeys]⟩
  | cons s sites ih =>
    intro siteHosts h
    simp only [scanSites, List.append_eq_nil_iff, errorIf_eq_nil] at h
    obtain ⟨⟨⟨⟨⟨⟨⟨-, hne⟩, hnew⟩, -⟩, hhost⟩, hup⟩, hscheme⟩, hrest⟩ := h
    obtain ⟨hsites, hnodup, hfresh⟩ := ih hrest
    have hs : SiteAccepted s :=
      { hostname := not_not.mp hhost
        upstream := by simpa [hne] using hup
        scheme := by tauto }
    refine ⟨List.forall_mem_cons.mpr ⟨hs, hsites⟩, ?_, ?_⟩
    · exact List.nodup_cons.mpr ⟨fun hmem => hfresh _ hmem List.mem_cons_self, hnodup⟩
    · refine List.forall_mem_cons.mpr ⟨hnew, fun k hk hseen => ?_⟩
      exact hfresh k hk (List.mem_cons_of_mem _ hseen)

omit [Lowercase] in
/-- Both key sets of the loop at once: `scanListeners` reports nothing only if
the keys of the listeners are new and pairwise distinct. -/
theorem scanListeners_eq_nil {allowWildcard : Bool} (ls : List ListenerConfig) :
    ∀ {httpsKeys httpKeys : List (Str × UInt16)},
    scanListeners pathExists allowWildcard httpsKeys httpKeys ls = [] →
      (∀ l ∈ ls, PortsAccepted l) ∧
      ((ls.map ListenerConfig.httpsKey).Nodup ∧
        ∀ k ∈ ls.map ListenerConfig.httpsKey, k ∉ httpsKeys) ∧
      (((ls.filter (0 < ·.httpPort)).map ListenerConfig.httpKey).Nodup ∧
        ∀ k ∈ (ls.filter (0 < ·.httpPort)).map ListenerConfig.httpKey, k ∉ httpKeys) := by
  induction ls with
  | nil => simp
  | cons l ls ih =>
    intro httpsKeys httpKeys h
    simp only [scanListeners, List.append_eq_nil_iff, errorIf_eq_nil] at h
    obtain ⟨⟨⟨⟨⟨⟨-, hhttps⟩, hhttp⟩, hzero⟩, hsame⟩, -⟩, hrest⟩ := h
    obtain ⟨hports, ⟨hnodup, hfresh⟩, hnodup', hfresh'⟩ := ih hrest
    have hl : PortsAccepted l := ⟨hzero, fun hpos heq => hsame ⟨hpos, heq⟩⟩
    refine ⟨List.forall_mem_cons.mpr ⟨hl, hports⟩, ⟨?_, ?_⟩, ?_⟩
    · -- the later keys are new to a set that holds this one
      exact List.nodup_cons.mpr ⟨fun hmem => hfresh _ hmem List.mem_cons_self, hnodup⟩
    · refine List.forall_mem_cons.mpr ⟨hhttps, fun k hk hseen => ?_⟩
      exact hfresh k hk (List.mem_cons_of_mem _ hseen)
    · -- a listener without HTTP has no key in the second set
      by_cases hpos : 0 < l.httpPort
      · rw [if_pos hpos] at hfresh'
        rw [List.filter_cons_of_pos (by simpa using hpos), List.map_cons]
        refine ⟨List.nodup_cons.mpr ⟨fun hmem => ?_, hnodup'⟩, ?_⟩
        · exact hfresh' _ hmem List.mem_cons_self
        · refine List.forall_mem_cons.mpr ⟨fun hmem => hhttp ⟨hpos, hmem⟩, fun k hk hseen => ?_⟩
          exact hfresh' k hk (List.mem_cons_of_mem _ hseen)
      · rw [if_neg hpos] at hfresh'
        rw [List.filter_cons_of_neg (by simpa using hpos)]
        exact ⟨hnodup', hfresh'⟩

omit [Lowercase] in
theorem tlsErrors_of_scanListeners {allowWildcard : Bool} (ls : List ListenerConfig) :
    ∀ {httpsKeys httpKeys : List (Str × UInt16)},
    scanListeners pathExists allowWildcard httpsKeys httpKeys ls = [] →
      ∀ l ∈ ls, tlsErrors pathExists l = [] := by
  induction ls with
  | nil => exact fun _ l hl => absurd hl List.not_mem_nil
  | cons l ls ih =>
    intro httpsKeys httpKeys h
    simp only [scanListeners, List.append_eq_nil_iff] at h
    exact List.forall_mem_cons.mpr ⟨h.1.2, ih h.2⟩

/-- The required fields of the two modes that the validator knows. -/
theorem tls_of_validate {staticConfig : StaticConfig} {dynamicConfig : DynamicConfig} {cli : Bool}
    (h : validate pathExists staticConfig dynamicConfig cli = .ok ()) {l : ListenerConfig}
    (hl : l ∈ staticConfig.listeners) :
    (l.tls.mode = "acme".toList → l.tls.acmeDomains ≠ []) ∧
      (l.tls.mode = "manual".toList → l.tls.certPath ≠ [] ∧ l.tls.keyPath ≠ []) := by
  rw [validate_eq_ok] at h
  simp only [validationErrors, List.append_eq_nil_iff] at h
  obtain ⟨⟨⟨⟨⟨⟨⟨⟨⟨-, hlisteners⟩, -⟩, -⟩, -⟩, -⟩, -⟩, -⟩, -⟩, -⟩ := h
  have htls := tlsErrors_of_scanListeners pathExists _ hlisteners l hl
  rw [tlsErrors] at htls
  constructor
  · intro hmode
    rw [if_pos hmode, List.append_eq_nil_iff, errorIf_eq_nil] at htls
    exact htls.1
  · intro hmode
    rw [if_neg (by rw [hmode]; decide), if_pos hmode] at htls
    split at htls
    · cases htls
    · next hpaths => exact not_or.mp hpaths

/-- The rate limiter of an accepted configuration refills its buckets. -/
theorem requestsPerSecond_ne_zero_of_validate {staticConfig : StaticConfig}
    {dynamicConfig : DynamicConfig} {cli : Bool}
    (h : validate pathExists staticConfig dynamicConfig cli = .ok ()) :
    dynamicConfig.rateLimit.requestsPerSecond ≠ 0 := by
  rw [validate_eq_ok] at h
  simp only [validationErrors, List.append_eq_nil_iff] at h
  obtain ⟨⟨⟨⟨⟨⟨-, hrate⟩, -⟩, -⟩, -⟩, -⟩, -⟩ := h
  exact errorIf_eq_nil.mp hrate

/-- **Acceptance.**  What an accepted configuration satisfies. -/
theorem accepted_of_validate {staticConfig : StaticConfig} {dynamicConfig : DynamicConfig}
    {cli : Bool} (h : validate pathExists staticConfig dynamicConfig cli = .ok ()) :
    Accepted staticConfig := by
  rw [validate_eq_ok] at h
  simp only [validationErrors, List.append_eq_nil_iff] at h
  obtain ⟨⟨⟨⟨⟨⟨⟨⟨⟨-, hlisteners⟩, hhealth⟩, hsites⟩, -⟩, -⟩, -⟩, -⟩, -⟩, -⟩ := h
  obtain ⟨hports, ⟨hhttps, -⟩, hhttp, -⟩ := scanListeners_eq_nil pathExists _ hlisteners
  obtain ⟨hok, hnodup, -⟩ := scanSites_eq_nil _ hsites
  refine ⟨hhttps, hhttp, hports, fun hpos l hl => ?_, hok, hnodup⟩
  rw [if_pos hpos, List.flatMap_eq_nil_iff] at hhealth
  have hl' := hhealth l hl
  simp only [healthCheckErrors, List.append_eq_nil_iff, errorIf_eq_nil] at hl'
  exact ⟨hl'.1, fun hp heq => hl'.2 ⟨hp, heq⟩⟩

end rules

/-! ### The file descriptor budget -/

def reservedFds : UInt64 := 64

/-- The sum is that of `u64`, which wraps in a release build. -/
def checkFdBudget (maxConnections softLimit : UInt64) : Except Str Unit :=
  if softLimit < maxConnections + reservedFds then
    .error ("max_connections (".toList ++ decimal maxConnections.toNat ++
      ") + reserved FDs (".toList ++ decimal reservedFds.toNat ++
      ") exceeds soft RLIMIT_NOFILE (".toList ++ decimal softLimit.toNat ++ ")".toList)
  else .ok ()

/-- `softNofileLimit` is what `getrlimit` answers; `none` for no limit. -/
def validateNofile (softNofileLimit : Option UInt64) (maxConnections : UInt64) :
    List ValidationError :=
  match softNofileLimit with
  | none => []
  | some softLimit =>
    match checkFdBudget maxConnections softLimit with
    | .ok () => []
    | .error _ => [.maxConnectionsExceedsNofile maxConnections softLimit reservedFds]

end Validation
