/-
The configuration and its routing table.

The data model of `src/config`: a file is parsed into a `FullConfig`, which is
split into the half that is fixed at startup (`StaticConfig`) and the half
that a reload swaps (`DynamicConfig`).  Field defaults are those of the serde
attributes.  Requests are routed by `DynamicConfig.lookup`: the host of the
request is normalised (`normalizeHost`) and looked up in a table keyed by the
lower-cased hosts of the sites.

* `lookup_buildRoutingTable_sound` — an entry of the table is a site under its
  own lower-cased host;
* `lookup_buildRoutingTable`, `length_keys_buildRoutingTable` — when these
  hosts are distinct the table loses no site;
* `stripPortFromHost_*` — the port stripper, one lemma for each way through
  it.
-/
import ReverseProxy.Text

open Text

namespace Config

structure SiteConfig where
  host : Str
  upstream : Str
  upstreamScheme : Str := "http".toList
  upstreamConnectTimeoutSecs : UInt64 := 5
  upstreamRequestTimeoutSecs : UInt64 := 60
  deriving DecidableEq, Repr

structure RateLimitConfig where
  requestsPerSecond : UInt32
  burst : UInt32
  deriving DecidableEq, Repr

structure BodyConfig where
  limitBytes : UInt64
  deriving DecidableEq, Repr

structure TlsConfig where
  mode : Str
  acmeDomains : List Str := []
  acmeCacheDir : Str := []
  acmeDirectory : Str := "production".toList
  acmeContact : Str := []
  certPath : Str := []
  keyPath : Str := []
  deriving DecidableEq, Repr

structure ListenerConfig where
  bindAddr : Str
  httpPort : UInt16 := 80
  httpsPort : UInt16 := 443
  tls : TlsConfig
  sites : List SiteConfig := []
  deriving DecidableEq, Repr

structure LoggingConfig where
  level : Str := "info".toList
  format : Str := "text".toList
  logFilePath : Option Str := none
  deriving DecidableEq, Repr

/-- What is fixed at startup. -/
structure StaticConfig where
  listeners : List ListenerConfig
  allowWildcardBind : Bool := false
  healthCheckPort : UInt16 := 9900
  adminKeyPath : Str := "/etc/reverse-proxy/admin-key".toList
  shutdownTimeoutSecs : UInt64 := 30
  connectionIdleTimeoutSecs : UInt64 := 60
  tlsHandshakeTimeoutSecs : UInt64 := 10
  maxConnections : UInt64 := 1024
  logging : LoggingConfig := {}
  deriving DecidableEq, Repr

/-- `HashMap<String, SiteConfig>`. -/
abbrev RoutingTable := AList fun _ : Str => SiteConfig

/-- What a reload swaps. -/
structure DynamicConfig where
  sites : List SiteConfig
  routingTable : RoutingTable
  rateLimit : RateLimitConfig
  body : BodyConfig
  deriving DecidableEq

/-- The configuration file, as it is deserialised. -/
structure FullConfig where
  listeners : List ListenerConfig := []
  allowWildcardBind : Bool := false
  healthCheckPort : UInt16 := 9900
  adminKeyPath : Str := "/etc/reverse-proxy/admin-key".toList
  shutdownTimeoutSecs : UInt64 := 30
  connectionIdleTimeoutSecs : UInt64 := 60
  tlsHandshakeTimeoutSecs : UInt64 := 10
  maxConnections : UInt64 := 1024
  logging : LoggingConfig := {}
  rateLimit : RateLimitConfig
  body : BodyConfig
  deriving DecidableEq, Repr

/-! ### Host normalisation -/

/-- Everything after a closing bracket, or else after the last colon, goes. -/
def stripPortFromHost (host : Str) : Str :=
  if host.head? = some '[' then
    match find ']' host with
    | some bracketEnd => host.take (bracketEnd + 1)
    | none => host
  else
    match rfind ':' host with
    | some colonPos => host.take colonPos
    | none => host

section routing

variable [Lowercase]

def normalizeHost (host : Str) : Str :=
  let lower := toLowercase (stripPortFromHost host)
  (stripSuffix ']' ((stripPrefix '[' lower).getD lower)).getD lower

/-- The sites collected by lower-cased host; a later one replaces an earlier
one. -/
def buildRoutingTable (sites : List SiteConfig) : RoutingTable :=
  sites.foldl (fun table s => table.insert (toLowercase s.host) s) ∅

def DynamicConfig.fromSites (sites : List SiteConfig) (rateLimit : RateLimitConfig)
    (body : BodyConfig) : DynamicConfig where
  sites := sites
  routingTable := buildRoutingTable sites
  rateLimit := rateLimit
  body := body

def DynamicConfig.lookup (config : DynamicConfig) (host : Str) : Option SiteConfig :=
  config.routingTable.lookup (normalizeHost host)

def FullConfig.intoStaticAndDynamic (full : FullConfig) : StaticConfig × DynamicConfig :=
  let staticConfig : StaticConfig :=
    { listeners := full.listeners
      allowWildcardBind := full.allowWildcardBind
      healthCheckPort := full.healthCheckPort
      adminKeyPath := full.adminKeyPath
      shutdownTimeoutSecs := full.shutdownTimeoutSecs
      connectionIdleTimeoutSecs := full.connectionIdleTimeoutSecs
      tlsHandshakeTimeoutSecs := full.tlsHandshakeTimeoutSecs
      maxConnections := full.maxConnections
      logging := full.logging }
  (staticConfig,
    DynamicConfig.fromSites (staticConfig.listeners.flatMap (·.sites)) full.rateLimit full.body)

/-! ### What the routing table holds -/

/-- The lower-cased hosts, the keys of the table. -/
def hostKeys (sites : List SiteConfig) : List Str := sites.map fun s => toLowercase s.host

/-- Whatever an insertion loop finds under a key was there before or is a site
with that lower-cased host. -/
theorem lookup_foldl_insert_sound (sites : List SiteConfig) : ∀ (table : RoutingTable) {k : Str}
    {s : SiteConfig},
    (sites.foldl (fun t s => t.insert (toLowercase s.host) s) table).lookup k = some s →
      table.lookup k = some s ∨ s ∈ sites ∧ toLowercase s.host = k := by
  induction sites with
  | nil => exact fun table k s h => Or.inl h
  | cons s' sites ih =>
    intro table k s h
    rcases ih (table.insert (toLowercase s'.host) s') h with h | ⟨hmem, hk⟩
    · by_cases hk : k = toLowercase s'.host
      · rw [hk, AList.lookup_insert, Option.some_inj] at h
        subst h
        exact Or.inr ⟨List.mem_cons_self, hk.symm⟩
      · rw [AList.lookup_insert_ne hk] at h
        exact Or.inl h
    · exact Or.inr ⟨List.mem_cons_of_mem s' hmem, hk⟩

theorem lookup_buildRoutingTable_sound {sites : List SiteConfig} {k : Str} {s : SiteConfig}
    (h : (buildRoutingTable sites).lookup k = some s) :
    s ∈ sites ∧ toLowercase s.host = k := by
  rcases lookup_foldl_insert_sound sites ∅ h with h | h
  · rw [AList.lookup_empty] at h
    exact absurd h (by simp)
  · exact h

theorem lookup_foldl_insert_of_not_mem (sites : List SiteConfig) : ∀ (table : RoutingTable)
    {k : Str}, k ∉ hostKeys sites →
    (sites.foldl (fun t s => t.insert (toLowercase s.host) s) table).lookup k
      = table.lookup k := by
  induction sites with
  | nil => exact fun table k _ => rfl
  | cons s sites ih =>
    intro table k hk
    rw [hostKeys, List.map_cons, List.mem_cons, not_or] at hk
    rw [List.foldl_cons, ih _ hk.2, AList.lookup_insert_ne hk.1]

/-- With distinct hosts the last-wins insertion loses no site. -/
theorem lookup_foldl_insert (sites : List SiteConfig) : ∀ (table : RoutingTable) {s : SiteConfig},
    (hostKeys sites).Nodup → s ∈ sites →
    (sites.foldl (fun t s => t.insert (toLowercase s.host) s) table).lookup (toLowercase s.host)
      = some s := by
  induction sites with
  | nil => exact fun table s _ hs => absurd hs List.not_mem_nil
  | cons s' sites ih =>
    intro table s hnodup hs
    rw [hostKeys, List.map_cons, List.nodup_cons] at hnodup
    rw [List.foldl_cons]
    rcases List.mem_cons.mp hs with rfl | hs
    · rw [lookup_foldl_insert_of_not_mem sites _ hnodup.1, AList.lookup_insert]
    · exact ih _ hnodup.2 hs

theorem lookup_buildRoutingTable {sites : List SiteConfig} (h : (hostKeys sites).Nodup)
    {s : SiteConfig} (hs : s ∈ sites) :
    (buildRoutingTable sites).lookup (toLowercase s.host) = some s :=
  lookup_foldl_insert sites ∅ h hs

theorem length_keys_foldl_insert (sites : List SiteConfig) : ∀ (table : RoutingTable),
    (hostKeys sites).Nodup → (∀ k ∈ hostKeys sites, k ∉ table) →
    (sites.foldl (fun t s => t.insert (toLowercase s.host) s) table).keys.length
      = table.keys.length + sites.length := by
  induction sites with
  | nil => exact fun table _ _ => rfl
  | cons s sites ih =>
    intro table hnodup hfresh
    rw [hostKeys, List.map_cons, List.nodup_cons] at hnodup
    have hnew : toLowercase s.host ∉ table := hfresh _ List.mem_cons_self
    have hkeys : (table.insert (toLowercase s.host) s).keys = toLowercase s.host :: table.keys := by
      rw [AList.insert_of_notMem hnew]
      rfl
    rw [List.foldl_cons, ih _ hnodup.2, hkeys]
    · simp only [List.length_cons]
      omega
    · intro k hk
      rw [AList.mem_insert, not_or]
      refine ⟨fun heq => hnodup.1 (heq ▸ hk), ?_⟩
      exact hfresh k (List.mem_cons_of_mem _ hk)

theorem length_keys_buildRoutingTable {sites : List SiteConfig} (h : (hostKeys sites).Nodup) :
    (buildRoutingTable sites).keys.length = sites.length := by
  rw [buildRoutingTable, length_keys_foldl_insert sites ∅ h fun k _ => AList.notMem_empty k]
  simp

end routing

/-! ### The port stripper -/

theorem stripPortFromHost_noPort {host : Str} (hb : host.head? ≠ some '[') (hc : ':' ∉ host) :
    stripPortFromHost host = host := by
  rw [stripPortFromHost, if_neg hb, rfind_eq_none.mpr hc]

theorem stripPortFromHost_port {host rest : Str} (hb : (host ++ ':' :: rest).head? ≠ some '[')
    (hc : ':' ∉ rest) : stripPortFromHost (host ++ ':' :: rest) = host := by
  rw [stripPortFromHost, if_neg hb, rfind_append host hc]
  simp

theorem stripPortFromHost_bracket {inner : Str} (h : ']' ∉ inner) (rest : Str) :
    stripPortFromHost ('[' :: inner ++ ']' :: rest) = '[' :: inner ++ [']'] := by
  have hmem : ']' ∉ '[' :: inner := by
    rw [List.mem_cons, not_or]
    exact ⟨by decide, h⟩
  rw [stripPortFromHost, if_pos (by simp), find_append hmem rest]
  simp only
  rw [List.take_append, List.take_of_length_le (Nat.le_succ _)]
  simp

theorem stripPortFromHost_open {inner : Str} (h : ']' ∉ inner) :
    stripPortFromHost ('[' :: inner) = '[' :: inner := by
  have hmem : ']' ∉ '[' :: inner := by
    rw [List.mem_cons, not_or]
    exact ⟨by decide, h⟩
  rw [stripPortFromHost, if_pos (by simp), find_eq_none.mpr hmem]

end Config
