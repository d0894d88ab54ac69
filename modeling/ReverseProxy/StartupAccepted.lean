/-
Which configurations start.

The converse of what `StartupSequence` says about a successful start: when the
sockets are granted and TLS can be set up, the server starts.  Together with
the rules of the validator this tells, for a configuration that was accepted,
what can still keep the server from starting.

* `startServer_ok_iff` — what a start needs, for any configuration;
* `accepted_starts_iff` — which accepted configurations start where nothing
  but a taken socket is refused.
-/
import ReverseProxy.StartupSequence
import ReverseProxy.ValidationReport

open Text NetAddr Config Validation BindAddrs Traced

namespace Startup

section

variable {σ : Type} {p : Platform σ} {bound : List SocketAddr} {l : ListenerConfig}

/-! ### What a start needs -/

theorem bindListeners_yields {ls : List ListenerConfig} :
    ∀ {bound} {parts : List (List SocketAddr)}, ls.mapM listenerAddrs = some parts →
      InTurn p bound parts.flatten →
      ∃ ds boundListeners, (bindListeners p bound ls).Yields ds boundListeners := by
  induction ls with
  | nil =>
    intro bound parts _ _
    exact ⟨[], [], yields_pure.mpr ⟨rfl, rfl⟩⟩
  | cons l ls ih =>
    intro bound parts hparts hturn
    rw [List.mapM_cons] at hparts
    obtain ⟨addrs, haddrs, hparts⟩ := Option.bind_eq_some_iff.mp hparts
    obtain ⟨rest, hrest, hparts⟩ := Option.bind_eq_some_iff.mp hparts
    obtain rfl : addrs :: rest = parts := Option.some_inj.mp hparts
    obtain ⟨http, sa, hhttp, hsa, rfl⟩ := listenerAddrs_eq_some.mp haddrs
    rw [List.flatten_cons, inTurn_append, inTurn_append, inTurn_singleton,
      ← List.append_assoc] at hturn
    obtain ⟨⟨hturn, hgrant⟩, hturns⟩ := hturn
    obtain ⟨ds, boundListeners, hyields⟩ := ih hrest hturns
    have hredirect := bindRedirect_yields.mpr ⟨http, hhttp, hturn, rfl, rfl⟩
    have hhttps := bindHttps_yields.mpr ⟨hsa, hgrant, rfl, rfl⟩
    exact ⟨_, (l, sa) :: boundListeners,
      hredirect.bind (hhttps.bind (hyields.bind (yields_pure.mpr ⟨rfl, rfl⟩)))⟩

theorem exists_setupAcceptor_yields {mode : TlsMode σ}
    (h : setupTls p.buildManual p.setupAcme l.tls = .ok mode) :
    ∃ ds acceptor, (setupAcceptor p l).Yields ds acceptor := by
  have hlift : (lift ((setupTls p.buildManual p.setupAcme l.tls).mapError (StartupError.tls l)) :
      Traced StartupError (Action σ) (TlsMode σ)).Yields [] mode :=
    yields_lift.mpr ⟨rfl, mapError_eq_ok.mpr h⟩
  cases mode with
  | manual config => exact ⟨_, config, hlift.bind (yields_pure.mpr ⟨rfl, rfl⟩)⟩
  | acme config =>
    have hact : (act (.spawnAcme l.tls.acmeDomains) : Traced StartupError (Action σ) Unit).Yields
        [.spawnAcme l.tls.acmeDomains] () := yields_act.mpr rfl
    exact ⟨_, config, hlift.bind (hact.bind (yields_pure.mpr ⟨rfl, rfl⟩))⟩

theorem setupAcceptors_yields {boundListeners : List (ListenerConfig × SocketAddr)}
    (h : ∀ b ∈ boundListeners,
      ∃ mode, setupTls p.buildManual p.setupAcme b.1.tls = .ok mode) :
    ∃ ds acceptors, (setupAcceptors p boundListeners).Yields ds acceptors := by
  induction boundListeners with
  | nil => exact ⟨[], [], yields_pure.mpr ⟨rfl, rfl⟩⟩
  | cons b rest ih =>
    obtain ⟨mode, hmode⟩ := h b List.mem_cons_self
    obtain ⟨_, acceptor, hacceptor⟩ := exists_setupAcceptor_yields hmode
    obtain ⟨_, acceptors, hrest⟩ := ih fun b hb => h b (List.mem_cons_of_mem _ hb)
    exact ⟨_, acceptor :: acceptors,
      hacceptor.bind (hrest.bind (yields_pure.mpr ⟨rfl, rfl⟩))⟩

theorem map_fst_of_ownSocket {ls : List ListenerConfig}
    {boundListeners : List (ListenerConfig × SocketAddr)}
    (h : List.Forall₂ OwnSocket ls boundListeners) : boundListeners.map Prod.fst = ls := by
  induction h with
  | nil => rfl
  | cons hown _ ih => rw [List.map_cons, ih, hown.1]

theorem exists_mode_of_ownAcceptor {boundListeners : List (ListenerConfig × SocketAddr)}
    {acceptors : List σ}
    (h : List.Forall₂ (fun b => OwnAcceptor p b.1) boundListeners acceptors) :
    ∀ b ∈ boundListeners, ∃ mode, setupTls p.buildManual p.setupAcme b.1.tls = .ok mode := by
  refine (List.forall₂_and_left (p := fun b => ∃ mode, _ = Except.ok mode) _ _).mp
    (h.imp fun b acceptor hown => ⟨?_, hown⟩) |>.1
  obtain ⟨mode, hmode, -⟩ := hown
  exact ⟨mode, hmode⟩

theorem startServer_ok_iff {staticConfig : StaticConfig} :
    (startServer p staticConfig).result = .ok () ↔
      (p.initLogging = .ok () ∧ p.registerSignals = .ok ()) ∧
      (∃ addrs, startupAddrs staticConfig = some addrs ∧ InTurn p [] addrs) ∧
      (∀ l ∈ staticConfig.listeners,
        ∃ mode, setupTls p.buildManual p.setupAcme l.tls = .ok mode) ∧
      staticConfig.maxConnections.toNat ≤ maxPermits := by
  constructor
  · intro h
    obtain ⟨_, ⟨bl, accs⟩, _, hprepare, -⟩ := yields_bind.mp (show Yields _ _ _ from ⟨rfl, h⟩)
    obtain ⟨hfirst, haddrs, hturn, hown, haccs⟩ := prepare_of_yields hprepare
    refine ⟨hfirst, ⟨_, haddrs, hturn⟩, fun l hl => ?_, ?_⟩
    · rw [← map_fst_of_ownSocket hown] at hl
      obtain ⟨b, hb, rfl⟩ := List.mem_map.mp hl
      exact exists_mode_of_ownAcceptor haccs b hb
    · by_contra hpermits
      rw [startServer_tooManyPermits hprepare hpermits] at h
      cases h
  · rintro ⟨⟨hlog, hsignals⟩, ⟨addrs, haddrs, hturn⟩, hmodes, hpermits⟩
    obtain ⟨parts, hparts, rfl⟩ := startupAddrs_eq_some.mp haddrs
    obtain ⟨hturn, hturns⟩ := (inTurn_append p _ _ _).mp hturn
    obtain ⟨_, bl, hbind⟩ := bindListeners_yields hparts hturns
    have hown := (bindListeners_of_yields hbind).2
    have hmode : ∀ b ∈ bl, ∃ mode, setupTls p.buildManual p.setupAcme b.1.tls = .ok mode :=
      fun b hb => hmodes b.1 (map_fst_of_ownSocket hown ▸ List.mem_map_of_mem hb)
    obtain ⟨_, accs, htls⟩ := setupAcceptors_yields hmode
    have hprepare : (prepare p staticConfig).Yields _ (bl, accs) :=
      (yields_lift.mpr ⟨rfl, mapError_eq_ok.mpr hlog⟩).bind
        ((yields_lift.mpr ⟨rfl, mapError_eq_ok.mpr hsignals⟩).bind
          ((bindHealth_yields.mpr ⟨hturn, rfl, rfl⟩).bind
            (hbind.bind (htls.bind (yields_pure.mpr ⟨rfl, rfl⟩)))))
    exact (startServer_yields hprepare hpermits).2

/-! ### Accepted configurations -/

/-- Where nothing is refused but a second socket on one IP and port. -/
structure Obliging (p : Platform σ) : Prop where
  initLogging : p.initLogging = .ok ()
  registerSignals : p.registerSignals = .ok ()
  bind : ∀ bound sa, p.bind bound sa = .ok () ↔ endpoint sa ∉ bound.map endpoint
  localAddr : ∀ sa, ∃ localAddr, p.localAddr sa = .ok localAddr
  buildManual : ∀ certPath keyPath, ∃ config, p.buildManual certPath keyPath = .ok config
  setupAcme : ∀ tls, ∃ config, p.setupAcme tls = .ok config

theorem Obliging.inTurn_iff (hp : Obliging p) (addrs : List SocketAddr) : ∀ bound,
    InTurn p bound addrs ↔
      (addrs.map endpoint).Nodup ∧ (bound.map endpoint).Disjoint (addrs.map endpoint) := by
  induction addrs with
  | nil =>
    intro bound
    exact iff_of_true trivial ⟨List.nodup_nil, List.disjoint_nil_right _⟩
  | cons sa addrs ih =>
    intro bound
    rw [InTurn, Granted, hp.bind, ih, List.map_cons, List.nodup_cons, List.map_append,
      List.map_singleton, List.disjoint_append_left, List.disjoint_cons_right,
      List.singleton_disjoint]
    have hlocal := hp.localAddr sa
    tauto

theorem Obliging.setupTls_iff (hp : Obliging p) (tls : TlsConfig) :
    (∃ mode, setupTls p.buildManual p.setupAcme tls = .ok mode) ↔ TlsComplete tls := by
  constructor
  · rintro ⟨mode, h⟩
    simp only [setupTls] at h
    split at h
    · next hmanual =>
      split at h
      · cases h
      · next hcert =>
        split at h
        · cases h
        · next hkey => exact Or.inl ⟨hmanual, hcert, hkey⟩
    · split at h
      · next hacme =>
        split at h
        · cases h
        · next hdomains =>
          split at h
          · cases h
          · next hcache => exact Or.inr ⟨hacme, hdomains, hcache⟩
      · cases h
  · rintro (⟨hmode, hcert, hkey⟩ | ⟨hmode, hdomains, hcache⟩)
    · obtain ⟨config, hconfig⟩ := hp.buildManual tls.certPath tls.keyPath
      refine ⟨.manual config, ?_⟩
      rw [setupTls, if_pos hmode, if_neg hcert, if_neg hkey, hconfig]
      rfl
    · obtain ⟨config, hconfig⟩ := hp.setupAcme tls
      refine ⟨.acme config, ?_⟩
      rw [setupTls, if_neg (by rw [hmode]; decide), if_pos hmode, if_neg hdomains, if_neg hcache,
        hconfig]
      rfl

theorem exists_listenerAddrs_iff : (∃ addrs, listenerAddrs l = some addrs) ↔ BindsParse l := by
  constructor
  · rintro ⟨addrs, haddrs⟩
    obtain ⟨_, sa, -, hsa, -⟩ := listenerAddrs_eq_some.mp haddrs
    exact (bindsParse_iff l).mpr ⟨sa.ip, parse_socketText_ip.mp ⟨sa, hsa, rfl⟩⟩
  · intro h
    obtain ⟨ip, hip⟩ := (bindsParse_iff l).mp h
    obtain ⟨sa, hsa, -⟩ := parse_socketText_ip.mpr hip
    -- the redirect port is parsed with the same address in front
    obtain ⟨sa', hsa', -⟩ := parse_socketText_ip.mpr hip
    have hhttp : ∃ http, redirectAddrs l = some http := by
      rw [redirectAddrs]
      split
      · exact ⟨[sa'], by rw [hsa']; rfl⟩
      · exact ⟨[], rfl⟩
    obtain ⟨http, hhttp⟩ := hhttp
    exact ⟨http ++ [sa], listenerAddrs_eq_some.mpr ⟨http, sa, hhttp, hsa, rfl⟩⟩

theorem exists_mapM_iff {ls : List ListenerConfig} :
    (∃ parts, ls.mapM listenerAddrs = some parts) ↔
      ∀ l ∈ ls, ∃ addrs, listenerAddrs l = some addrs := by
  induction ls with
  | nil => exact iff_of_true ⟨[], rfl⟩ fun l hl => absurd hl List.not_mem_nil
  | cons l ls ih =>
    rw [List.forall_mem_cons, ← ih]
    constructor
    · rintro ⟨parts, h⟩
      rw [List.mapM_cons] at h
      obtain ⟨addrs, haddrs, h⟩ := Option.bind_eq_some_iff.mp h
      obtain ⟨rest, hrest, -⟩ := Option.bind_eq_some_iff.mp h
      exact ⟨⟨addrs, haddrs⟩, rest, hrest⟩
    · rintro ⟨⟨addrs, haddrs⟩, rest, hrest⟩
      refine ⟨addrs :: rest, ?_⟩
      rw [List.mapM_cons, haddrs, hrest]
      rfl

theorem exists_startupAddrs_iff {staticConfig : StaticConfig} :
    (∃ addrs, startupAddrs staticConfig = some addrs) ↔
      ∀ l ∈ staticConfig.listeners, ∃ ip, Denotes l.bindAddr ip := by
  simp only [← bindsParse_iff, ← exists_listenerAddrs_iff, ← exists_mapM_iff,
    startupAddrs_eq_some]
  constructor
  · rintro ⟨_, parts, hparts, -⟩
    exact ⟨parts, hparts⟩
  · rintro ⟨parts, hparts⟩
    exact ⟨_, parts, hparts, rfl⟩

/-- The bound addresses are distinct just when no two listeners clash. -/
theorem nodup_iff [Lowercase] {staticConfig : StaticConfig} (hacc : Accepted staticConfig)
    {addrs : List SocketAddr} (haddrs : startupAddrs staticConfig = some addrs) :
    (addrs.map endpoint).Nodup ↔ staticConfig.listeners.Pairwise fun l l' => ¬ Clash l l' := by
  rw [← nodup_endpoints_iff hacc, ← map_endpoint_startupAddrs haddrs]
  have hinj : Function.Injective (Prod.map some id : IpAddr × UInt16 → Option IpAddr × UInt16) :=
    (Option.some_injective _).prodMap Function.injective_id
  rw [← List.nodup_map_iff hinj, List.map_map]
  rfl

/-- **Which accepted configurations start.**  Where nothing but a second socket
on one IP and port is refused, a configuration that passed validation starts
just when every bind address is an IPv4 address or an IPv6 address in brackets,
every TLS mode is `manual`, or `acme` with a cache directory, no two listeners
clash, and `max_connections` is no more than a semaphore can count. -/
theorem accepted_starts_iff [Lowercase] (p : Platform σ) (hp : Obliging p)
    (pathExists : Str → Bool) (staticConfig : StaticConfig) (dynamicConfig : DynamicConfig)
    (cli : Bool) (h : validate pathExists staticConfig dynamicConfig cli = .ok ()) :
    (startServer p staticConfig).result = .ok () ↔
      (∀ l ∈ staticConfig.listeners, (∃ ip, Denotes l.bindAddr ip) ∧
        (l.tls.mode = "manual".toList ∨
          l.tls.mode = "acme".toList ∧ l.tls.acmeCacheDir ≠ [])) ∧
      (staticConfig.listeners.Pairwise fun l l' => ¬ Clash l l') ∧
      staticConfig.maxConnections.toNat ≤ maxPermits := by
  have htls : (∀ l ∈ staticConfig.listeners,
      ∃ mode, setupTls p.buildManual p.setupAcme l.tls = .ok mode) ↔
      ∀ l ∈ staticConfig.listeners, l.tls.mode = "manual".toList ∨
        l.tls.mode = "acme".toList ∧ l.tls.acmeCacheDir ≠ [] := by
    refine forall₂_congr fun l hl => ?_
    rw [hp.setupTls_iff, TlsComplete]
    -- the other fields that a mode needs are required by the validator too
    obtain ⟨hacme, hmanual⟩ := tls_of_validate pathExists h hl
    refine or_congr ?_ (and_congr_right fun hmode => ?_)
    · exact ⟨And.left, fun hmode => ⟨hmode, hmanual hmode⟩⟩
    · exact ⟨And.right, fun hcache => ⟨hacme hmode, hcache⟩⟩
  have hnodup : (∃ addrs, startupAddrs staticConfig = some addrs ∧ InTurn p [] addrs) ↔
      (∀ l ∈ staticConfig.listeners, ∃ ip, Denotes l.bindAddr ip) ∧
        staticConfig.listeners.Pairwise fun l l' => ¬ Clash l l' := by
    have hacc := accepted_of_validate pathExists h
    rw [← exists_startupAddrs_iff]
    constructor
    · rintro ⟨addrs, haddrs, hturn⟩
      exact ⟨⟨addrs, haddrs⟩, (nodup_iff hacc haddrs).mp ((hp.inTurn_iff addrs []).mp hturn).1⟩
    · rintro ⟨⟨addrs, haddrs⟩, hclash⟩
      exact ⟨addrs, haddrs, (hp.inTurn_iff addrs []).mpr
        ⟨(nodup_iff hacc haddrs).mpr hclash, List.disjoint_nil_left _⟩⟩
  rw [startServer_ok_iff, htls, hnodup, forall₂_and]
  have hfirst := And.intro hp.initLogging hp.registerSignals
  tauto

/-- A platform that refuses nothing else, with the unit as TLS configuration. -/
def samplePlatform : Platform Unit where
  initLogging := .ok ()
  registerSignals := .ok ()
  readAdminKey := .error []
  sha256 := AdminKey.sampleHash
  bind bound sa :=
    if endpoint sa ∈ bound.map endpoint then .error "Address already in use".toList else .ok ()
  localAddr sa := .ok sa
  buildManual _ _ := .ok ()
  setupAcme _ := .ok ()

end

theorem obliging_samplePlatform : Obliging samplePlatform where
  initLogging := rfl
  registerSignals := rfl
  bind bound sa := by
    show (if endpoint sa ∈ bound.map endpoint then Except.error _ else .ok ()) = .ok () ↔ _
    by_cases h : endpoint sa ∈ bound.map endpoint
    · rw [if_pos h]
      exact iff_of_false (fun heq => by cases heq) (not_not.mpr h)
    · rw [if_neg h]
      exact iff_of_true rfl h
  localAddr sa := ⟨sa, rfl⟩
  buildManual _ _ := ⟨(), rfl⟩
  setupAcme _ := ⟨(), rfl⟩

theorem denotes_secondListener : Denotes secondListener.bindAddr (.v4 ⟨127, 0, 0, 2⟩) :=
  Or.inl ⟨_, rfl, rfl⟩

/-- Two listeners that do not clash, and a number of connections that is valid
and too large. -/
theorem accepted_starts_iff_sample : letI := asciiLowercase
    (startServer samplePlatform twoListeners.intoStaticAndDynamic.1).result = .ok () ∧
    (startServer samplePlatform
      { twoListeners.intoStaticAndDynamic.1 with maxConnections := 2 ^ 61 }).result ≠ .ok () := by
  let _ := asciiLowercase
  have hvalid : validate (fun _ => true) twoListeners.intoStaticAndDynamic.1
      twoListeners.intoStaticAndDynamic.2 false = .ok () := by
    rw [validate_eq_ok]
    decide +kernel
  have hvalid' : validate (fun _ => true)
      { twoListeners.intoStaticAndDynamic.1 with maxConnections := 2 ^ 61 }
      twoListeners.intoStaticAndDynamic.2 false = .ok () := by
    rw [validate_eq_ok]
    decide +kernel
  constructor
  · refine (accepted_starts_iff samplePlatform obliging_samplePlatform (fun _ => true) _
      twoListeners.intoStaticAndDynamic.2 false hvalid).mpr ⟨?_, ?_, by decide +kernel⟩
    · intro l hl
      rcases List.mem_pair.mp hl with rfl | rfl
      · exact ⟨⟨_, denotes_sample⟩, Or.inl rfl⟩
      · exact ⟨⟨_, denotes_secondListener⟩, Or.inl rfl⟩
    · decide +kernel
  · intro hstart
    have hpermits := ((accepted_starts_iff samplePlatform obliging_samplePlatform (fun _ => true) _
      twoListeners.intoStaticAndDynamic.2 false hvalid').mp hstart).2.2
    exact absurd hpermits (by decide +kernel)

end Startup
