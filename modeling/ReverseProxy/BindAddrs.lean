/-
The sockets that startup binds.

`run_server` binds the health check port on the loopback address and then,
listener by listener, the HTTP redirect port (unless it is 0) and the HTTPS
port, each parsed from the text `bind_addr:port`.  The validator compares
these addresses as texts and role by role.

* `map_endpoint_startupAddrs` — what is bound, as IP and port;
* `nodup_startupAddrs_iff` — for an accepted configuration the bound addresses
  are pairwise distinct exactly when no two listeners clash in one of the two
  ways the validator does not look for (`Clash`).
-/
import ReverseProxy.SocketAddrText
import ReverseProxy.Validation

open Text NetAddr Config Validation

namespace BindAddrs

def socketText (bindAddr : Str) (port : UInt16) : Str := bindAddr ++ ':' :: decimal port.toNat

def loopback : Ipv4Addr := ⟨127, 0, 0, 1⟩

/-- The address of the HTTP redirect listener, if there is one. -/
def redirectAddrs (l : ListenerConfig) : Option (List SocketAddr) :=
  if 0 < l.httpPort then (SocketAddr.parse (socketText l.bindAddr l.httpPort)).map ([·])
  else some []

/-- What one turn of the binding loop binds; `none` when a text is no socket
address and startup fails. -/
def listenerAddrs (l : ListenerConfig) : Option (List SocketAddr) := do
  let http ← redirectAddrs l
  let https ← SocketAddr.parse (socketText l.bindAddr l.httpsPort)
  return http ++ [https]

def startupAddrs (staticConfig : StaticConfig) : Option (List SocketAddr) := do
  let health := if 0 < staticConfig.healthCheckPort
    then [SocketAddr.v4 loopback staticConfig.healthCheckPort] else []
  let addrs ← staticConfig.listeners.mapM listenerAddrs
  return health ++ addrs.flatten

/-! ### The bound addresses as IP and port -/

def endpoint (sa : SocketAddr) : IpAddr × UInt16 := (sa.ip, sa.port)

/-- The ports a listener binds, in order. -/
def ports (l : ListenerConfig) : List UInt16 :=
  (if 0 < l.httpPort then [l.httpPort] else []) ++ [l.httpsPort]

/-- The IP and the ports of a listener; the IP is that of its bind address
whatever the port. -/
def endpoints (l : ListenerConfig) : List (Option IpAddr × UInt16) :=
  (ports l).map fun port => (bindIp l.bindAddr, port)

theorem endpoint_parse {a : Str} {port : UInt16} {sa : SocketAddr}
    (h : SocketAddr.parse (socketText a port) = some sa) :
    ((some sa.ip, sa.port) : Option IpAddr × UInt16) = (bindIp a, port) := by
  rw [bindIp_eq h, (SocketAddr.parse_port h).1]

theorem map_endpoint_listenerAddrs {l : ListenerConfig} {addrs : List SocketAddr}
    (h : listenerAddrs l = some addrs) :
    addrs.map (fun sa => (some sa.ip, sa.port)) = endpoints l := by
  obtain ⟨http, hhttp, h⟩ := Option.bind_eq_some_iff.mp h
  obtain ⟨https, hhttps, h⟩ := Option.bind_eq_some_iff.mp h
  obtain rfl : http ++ [https] = addrs := Option.some_inj.mp h
  rw [endpoints, ports, List.map_append, List.map_append, List.map_singleton, List.map_singleton,
    endpoint_parse hhttps]
  congr 1
  rw [redirectAddrs] at hhttp
  split at hhttp
  · next hpos =>
    obtain ⟨sa, hsa, rfl⟩ := Option.map_eq_some_iff.mp hhttp
    rw [if_pos hpos, List.map_singleton, List.map_singleton, endpoint_parse hsa]
  · next hpos =>
    rw [if_neg hpos, ← Option.some_inj.mp hhttp]
    rfl

theorem map_endpoint_mapM {ls : List ListenerConfig} : ∀ {parts : List (List SocketAddr)},
    ls.mapM listenerAddrs = some parts →
      parts.flatten.map (fun sa => (some sa.ip, sa.port)) = ls.flatMap endpoints := by
  induction ls with
  | nil =>
    intro parts h
    rw [← Option.some_inj.mp h]
    rfl
  | cons l ls ih =>
    intro parts h
    rw [List.mapM_cons] at h
    obtain ⟨addrs, haddrs, h⟩ := Option.bind_eq_some_iff.mp h
    obtain ⟨rest, hrest, h⟩ := Option.bind_eq_some_iff.mp h
    obtain rfl : addrs :: rest = parts := Option.some_inj.mp h
    rw [List.flatten_cons, List.map_append, map_endpoint_listenerAddrs haddrs, ih hrest,
      List.flatMap_cons]

def healthEndpoints (staticConfig : StaticConfig) : List (Option IpAddr × UInt16) :=
  if 0 < staticConfig.healthCheckPort
    then [(some (.v4 loopback), staticConfig.healthCheckPort)] else []

theorem map_endpoint_startupAddrs {staticConfig : StaticConfig} {addrs : List SocketAddr}
    (h : startupAddrs staticConfig = some addrs) :
    addrs.map (fun sa => (some sa.ip, sa.port))
      = healthEndpoints staticConfig ++ staticConfig.listeners.flatMap endpoints := by
  obtain ⟨parts, hparts, h⟩ := Option.bind_eq_some_iff.mp h
  rw [← Option.some_inj.mp h, List.map_append, map_endpoint_mapM hparts, healthEndpoints]
  congr 1
  split <;> rfl

/-! ### When they are distinct -/

/-- Two listeners on one IP of which one has the HTTP port of the other as its
HTTPS port, or which write the IP differently and share a port. -/
def Clash (l l' : ListenerConfig) : Prop :=
  bindIp l.bindAddr = bindIp l'.bindAddr ∧
  ((0 < l.httpPort ∧ l.httpPort = l'.httpsPort ∨ 0 < l'.httpPort ∧ l'.httpPort = l.httpsPort) ∨
    l.bindAddr ≠ l'.bindAddr ∧
      (l.httpsPort = l'.httpsPort ∨ 0 < l.httpPort ∧ l.httpPort = l'.httpPort))

instance (l l' : ListenerConfig) : Decidable (Clash l l') :=
  inferInstanceAs (Decidable (_ ∧ _))

theorem mem_endpoints {l : ListenerConfig} {e : Option IpAddr × UInt16} :
    e ∈ endpoints l ↔ e.1 = bindIp l.bindAddr ∧
      (0 < l.httpPort ∧ e.2 = l.httpPort ∨ e.2 = l.httpsPort) := by
  obtain ⟨ip, port⟩ := e
  rw [endpoints, ports, List.mem_map]
  constructor
  · rintro ⟨p, hp, heq⟩
    obtain ⟨rfl, rfl⟩ := Prod.mk.inj heq
    split at hp <;> simp_all
  · rintro ⟨rfl, ⟨hpos, rfl⟩ | rfl⟩
    · exact ⟨l.httpPort, by simp [hpos], rfl⟩
    · exact ⟨l.httpsPort, by simp, rfl⟩

/-- The validator keeps the HTTPS keys apart and the HTTP keys apart; all that
is left of a common endpoint is a clash. -/
theorem disjoint_endpoints_iff {l l' : ListenerConfig}
    (hhttps : ListenerConfig.httpsKey l ≠ ListenerConfig.httpsKey l')
    (hhttp : 0 < l.httpPort → 0 < l'.httpPort →
      ListenerConfig.httpKey l ≠ ListenerConfig.httpKey l') :
    (endpoints l).Disjoint (endpoints l') ↔ ¬ Clash l l' := by
  constructor
  · rintro hdisj ⟨hip, hclash⟩
    have hno : ∀ port, (0 < l.httpPort ∧ port = l.httpPort ∨ port = l.httpsPort) →
        ¬ (0 < l'.httpPort ∧ port = l'.httpPort ∨ port = l'.httpsPort) := fun port h h' =>
      hdisj (show (bindIp l.bindAddr, port) ∈ endpoints l from mem_endpoints.mpr ⟨rfl, h⟩)
        (mem_endpoints.mpr ⟨hip, h'⟩)
    rcases hclash with (⟨hpos, heq⟩ | ⟨hpos, heq⟩) | ⟨-, heq | ⟨hpos, heq⟩⟩
    · exact hno _ (Or.inl ⟨hpos, rfl⟩) (Or.inr heq)
    · exact hno _ (Or.inr rfl) (Or.inl ⟨hpos, heq.symm⟩)
    · exact hno _ (Or.inr rfl) (Or.inr heq)
    · exact hno _ (Or.inl ⟨hpos, rfl⟩) (Or.inl ⟨heq ▸ hpos, heq⟩)
  · rintro hclash ⟨ip, port⟩ h h'
    obtain ⟨hip, hport⟩ := mem_endpoints.mp h
    obtain ⟨hip', hport'⟩ := mem_endpoints.mp h'
    simp only at hip hip' hport hport'
    refine hclash ⟨hip.symm.trans hip', ?_⟩
    -- two ports of one role are a clash only if the addresses are spelled differently
    rcases hport with ⟨hpos, rfl⟩ | rfl
    · rcases hport' with ⟨hpos', heq⟩ | heq
      · refine Or.inr ⟨fun haddr => hhttp hpos hpos' ?_, Or.inr ⟨hpos, heq⟩⟩
        exact Prod.ext haddr heq
      · exact Or.inl (Or.inl ⟨hpos, heq⟩)
    · rcases hport' with ⟨hpos', heq⟩ | heq
      · exact Or.inl (Or.inr ⟨hpos', heq.symm⟩)
      · exact Or.inr ⟨fun haddr => hhttps (Prod.ext haddr heq), Or.inl heq⟩

theorem nodup_endpoints {l : ListenerConfig} (h : PortsAccepted l) : (endpoints l).Nodup := by
  refine List.Nodup.map (fun p q heq => (Prod.mk.inj heq).2) ?_
  rw [ports]
  split
  · next hpos => simpa using h.httpPort_ne hpos
  · exact List.nodup_singleton _

section

variable [Lowercase]

theorem disjoint_healthEndpoints {staticConfig : StaticConfig} (hacc : Accepted staticConfig) :
    (healthEndpoints staticConfig).Disjoint (staticConfig.listeners.flatMap endpoints) := by
  rintro ⟨ip, port⟩ hhealth hmem
  rw [healthEndpoints] at hhealth
  split at hhealth
  · next hpos =>
    obtain ⟨-, rfl⟩ := Prod.mk.inj (List.mem_singleton.mp hhealth)
    obtain ⟨l, hl, hport⟩ := List.mem_flatMap.mp hmem
    obtain ⟨hhttps, hhttp⟩ := hacc.healthCheckPort hpos l hl
    rcases (mem_endpoints.mp hport).2 with ⟨hlpos, heq⟩ | heq
    · exact hhttp hlpos heq
    · exact hhttps heq
  · exact absurd hhealth List.not_mem_nil

/-- Acceptance as seen from two listeners at different positions. -/
theorem pairwise_keys_ne {staticConfig : StaticConfig} (hacc : Accepted staticConfig) :
    staticConfig.listeners.Pairwise fun l l' =>
      ListenerConfig.httpsKey l ≠ ListenerConfig.httpsKey l' ∧
      (0 < l.httpPort → 0 < l'.httpPort →
        ListenerConfig.httpKey l ≠ ListenerConfig.httpKey l') := by
  have hhttps := List.pairwise_map.mp hacc.httpsKeys_nodup
  have hhttp := List.pairwise_filter.mp (List.pairwise_map.mp hacc.httpKeys_nodup)
  refine (hhttps.and hhttp).imp ?_
  rintro l l' ⟨hs, hp⟩
  exact ⟨hs, fun h h' => hp (by simpa using h) (by simpa using h')⟩

theorem nodup_endpoints_iff {staticConfig : StaticConfig} (hacc : Accepted staticConfig) :
    (healthEndpoints staticConfig ++ staticConfig.listeners.flatMap endpoints).Nodup ↔
      staticConfig.listeners.Pairwise fun l l' => ¬ Clash l l' := by
  have hhealth : (healthEndpoints staticConfig).Nodup := by
    rw [healthEndpoints]
    split
    · exact List.nodup_singleton _
    · exact List.nodup_nil
  have hkeys := pairwise_keys_ne hacc
  rw [List.nodup_append', List.nodup_flatMap]
  constructor
  · rintro ⟨-, ⟨-, hdisj⟩, -⟩
    refine (hkeys.and hdisj).imp ?_
    rintro l l' ⟨⟨hs, hp⟩, hd⟩
    exact (disjoint_endpoints_iff hs hp).mp hd
  · intro hclash
    refine ⟨hhealth, ⟨fun l hl => nodup_endpoints (hacc.ports l hl), ?_⟩,
      disjoint_healthEndpoints hacc⟩
    refine (hkeys.and hclash).imp ?_
    rintro l l' ⟨⟨hs, hp⟩, hc⟩
    exact (disjoint_endpoints_iff hs hp).mpr hc

/-- **Distinct sockets.**  The addresses that startup binds for an accepted
configuration are pairwise distinct exactly when no two of its listeners
clash. -/
theorem nodup_startupAddrs_iff (pathExists : Str → Bool) (staticConfig : StaticConfig)
    (dynamicConfig : DynamicConfig) (cli : Bool)
    (haccept : validate pathExists staticConfig dynamicConfig cli = .ok ())
    (addrs : List SocketAddr) (haddrs : startupAddrs staticConfig = some addrs) :
    (addrs.map endpoint).Nodup ↔ staticConfig.listeners.Pairwise fun l l' => ¬ Clash l l' := by
  rw [← nodup_endpoints_iff (accepted_of_validate pathExists haccept),
    ← map_endpoint_startupAddrs haddrs]
  have hinj : Function.Injective (Prod.map some id : IpAddr × UInt16 → Option IpAddr × UInt16) :=
    (Option.some_injective _).prodMap Function.injective_id
  rw [← List.nodup_map_iff hinj, List.map_map]
  rfl

end

/-- Two listeners on one address, of which the second takes the HTTP port of
the first for HTTPS. -/
def clashingConfig : StaticConfig where
  listeners :=
    [{ bindAddr := "192.0.2.1".toList, httpPort := 8080, httpsPort := 443, tls := { mode := [] } },
     { bindAddr := "192.0.2.1".toList, httpPort := 0, httpsPort := 8080, tls := { mode := [] } }]

/-- One IPv6 address in two spellings. -/
def respelledConfig : StaticConfig where
  listeners :=
    [{ bindAddr := "[::1]".toList, httpPort := 0, httpsPort := 443, tls := { mode := [] } },
     { bindAddr := "[0:0::1]".toList, httpPort := 0, httpsPort := 443, tls := { mode := [] } }]

def apartConfig : StaticConfig where
  listeners :=
    [{ bindAddr := "192.0.2.1".toList, httpPort := 80, httpsPort := 443, tls := { mode := [] } },
     { bindAddr := "192.0.2.1".toList, httpPort := 0, httpsPort := 8443, tls := { mode := [] } }]

def noSites [Lowercase] : DynamicConfig :=
  DynamicConfig.fromSites [] { requestsPerSecond := 10, burst := 20 } { limitBytes := 1024 }

theorem nodup_startupAddrs_apart : letI := asciiLowercase
    ∃ addrs, startupAddrs apartConfig = some addrs ∧ (addrs.map endpoint).Nodup := by
  let _ := asciiLowercase
  exact ⟨_, rfl, (nodup_startupAddrs_iff (fun _ => true) apartConfig noSites false rfl _ rfl).mpr
    (by decide)⟩

/-- Accepted configurations under which a socket would be bound twice. -/
theorem startupAddrs_collide : letI := asciiLowercase
    (validate (fun _ => true) clashingConfig noSites false = .ok () ∧
      ∃ addrs, startupAddrs clashingConfig = some addrs ∧ ¬ (addrs.map endpoint).Nodup) ∧
    (validate (fun _ => true) respelledConfig noSites false = .ok () ∧
      ∃ addrs, startupAddrs respelledConfig = some addrs ∧ ¬ (addrs.map endpoint).Nodup) := by
  exact ⟨⟨rfl, _, rfl, by decide⟩, rfl, _, rfl, by decide⟩

end BindAddrs
