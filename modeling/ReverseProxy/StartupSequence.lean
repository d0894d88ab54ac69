/-
How the server starts.

`run_server` binds the health check port, then the sockets of each listener,
then builds an acceptor per listener and the semaphore of the connections, and
only after all that spawns the HTTPS servers and tells systemd that it is ready.
Each of these steps can fail, and by then the sockets bound before are open and
the health and redirect servers on them run.

* `bindListeners_of_yields`, `setupAcceptors_of_yields` — what the two loops
  have done when they are through;
* `startServer_all_or_nothing` — either every listener is served, each on its
  own socket and with its own acceptor, or none is.
-/
import ReverseProxy.Startup
import ReverseProxy.AdminKeyFile
import ReverseProxy.Traced

open Text NetAddr Config Validation BindAddrs Traced
open AdminKey (KeyHash)

namespace Startup

/-- What the rest of the world answers: the system calls and the libraries.
`bind` is given the sockets that the process holds already. -/
structure Platform (σ : Type) where
  initLogging : Except Str Unit
  registerSignals : Except Str Unit
  readAdminKey : Except Str Str
  sha256 : Str → KeyHash
  bind : List SocketAddr → SocketAddr → Except Str Unit
  localAddr : SocketAddr → Except Str SocketAddr
  buildManual : Str → Str → Except Str σ
  setupAcme : TlsConfig → Except Str σ

inductive RedirectError where
  | invalidAddr (l : ListenerConfig)
  | io (text : Str)

inductive StartupError where
  | logging (cause : Str)
  | signals (cause : Str)
  | health (cause : Str)
  | redirect (l : ListenerConfig) (cause : RedirectError)
  | httpsAddr (l : ListenerConfig)
  | httpsBind (l : ListenerConfig) (cause : Str)
  | localAddr (cause : Str)
  | tls (l : ListenerConfig) (cause : SetupError)
  | countMismatch (listeners acceptors : ℕ)
  /-- a panic in `Semaphore::new` -/
  | tooManyPermits (maxConnections : UInt64)

/-- `Semaphore::MAX_PERMITS`, which is `usize::MAX >> 3`. -/
def maxPermits : ℕ := (2 ^ 64 - 1) >>> 3

/-- The text of `AddrParseError` for a socket address. -/
def addrParseError : Str := "invalid socket address syntax".toList

def RedirectError.toText : RedirectError → Str
  | invalidAddr l =>
    "invalid bind address ".toList ++ socketText l.bindAddr l.httpPort
      ++ " for HTTP redirect: ".toList ++ addrParseError
  | io text => text

def SetupError.toText : SetupError → Str
  | bail reason => reason.toText
  | other text => text

/-- The error with its causes, as `main` reports it, or the message of the
panic. -/
def StartupError.toText : StartupError → Str
  | logging cause => "failed to initialize logging: ".toList ++ cause
  | signals cause => cause
  | health cause => "failed to bind health check port: ".toList ++ cause
  | redirect l cause =>
    "failed to bind HTTP redirect listener on ".toList ++ socketText l.bindAddr l.httpPort
      ++ ": ".toList ++ cause.toText
  | httpsAddr l =>
    "invalid HTTPS bind address ".toList ++ socketText l.bindAddr l.httpsPort
      ++ ": ".toList ++ addrParseError
  | httpsBind l cause =>
    "failed to bind HTTPS listener on ".toList ++ socketText l.bindAddr l.httpsPort
      ++ ": ".toList ++ cause
  | localAddr cause => cause
  | tls l cause =>
    "failed to setup TLS for listener ".toList ++ l.bindAddr ++ ": ".toList ++ cause.toText
  | countMismatch listeners acceptors =>
    "listener/acceptor count mismatch: ".toList ++ decimal listeners ++ " listeners, ".toList
      ++ decimal acceptors ++ " acceptors".toList
  | tooManyPermits _ =>
    "a semaphore may not have more than MAX_PERMITS permits (".toList ++ decimal maxPermits
      ++ ")".toList

/-- What startup does to the outside. -/
inductive Action (σ : Type) where
  | bound (sa : SocketAddr)
  | serveHealth (adminKey : Option KeyHash)
  | serveRedirect (httpsPort : UInt16)
  | spawnAcme (domains : List Str)
  | serveHttps (sa : SocketAddr) (acceptor : σ)
  | ready

def Action.socket {σ : Type} : Action σ → Option SocketAddr
  | bound sa => some sa
  | _ => none

/-- The action is to open the proxy to its clients. -/
def Action.Opens {σ : Type} : Action σ → Prop
  | serveHttps _ _ => True
  | ready => True
  | _ => False

def TlsMode.config {σ : Type} : TlsMode σ → σ
  | manual config => config
  | acme defaultConfig => defaultConfig

section

variable {σ : Type} (p : Platform σ)

/-! ### The sequence -/

def bindTcp (bound : List SocketAddr) (sa : SocketAddr) :
    Traced Str (Action σ) (List SocketAddr) := do
  lift (p.bind bound sa)
  act (.bound sa)
  return bound ++ [sa]

/-- A socket that is served as soon as it is bound. -/
def bindAndServe (bound : List SocketAddr) (sa : SocketAddr) (serve : Action σ) :
    Traced Str (Action σ) (List SocketAddr) := do
  let bound ← bindTcp p bound sa
  let _ ← lift (p.localAddr sa)
  act serve
  return bound

def startHealthCheckListener (port : UInt16) (keyHash : Option KeyHash) :
    Traced Str (Action σ) (List SocketAddr) :=
  bindAndServe p [] (.v4 loopback port) (.serveHealth keyHash)

def startHttpRedirectListener (bound : List SocketAddr) (l : ListenerConfig) :
    Traced RedirectError (Action σ) (List SocketAddr) :=
  match SocketAddr.parse (socketText l.bindAddr l.httpPort) with
  | none => lift (.error (.invalidAddr l))
  | some sa => (bindAndServe p bound sa (.serveRedirect l.httpsPort)).mapError .io

/-- The HTTPS half of a turn of the binding loop. -/
def bindHttps (bound : List SocketAddr) (l : ListenerConfig) :
    Traced StartupError (Action σ) (List SocketAddr × SocketAddr) :=
  match SocketAddr.parse (socketText l.bindAddr l.httpsPort) with
  | none => lift (.error (.httpsAddr l))
  | some sa => do
    let bound ← (bindTcp p bound sa).mapError (.httpsBind l)
    let _ ← lift ((p.localAddr sa).mapError .localAddr)
    return (bound, sa)

def bindRedirect (bound : List SocketAddr) (l : ListenerConfig) :
    Traced StartupError (Action σ) (List SocketAddr) :=
  if 0 < l.httpPort then (startHttpRedirectListener p bound l).mapError (.redirect l)
  else pure bound

/-- The binding loop, with the sockets held so far. -/
def bindListeners (bound : List SocketAddr) :
    List ListenerConfig → Traced StartupError (Action σ) (List (ListenerConfig × SocketAddr))
  | [] => pure []
  | l :: ls => do
    let bound ← bindRedirect p bound l
    let (bound, sa) ← bindHttps p bound l
    let rest ← bindListeners bound ls
    return (l, sa) :: rest

def setupAcceptor (l : ListenerConfig) : Traced StartupError (Action σ) σ := do
  let mode ← lift ((setupTls p.buildManual p.setupAcme l.tls).mapError (.tls l))
  match mode with
  | .manual config => return config
  | .acme defaultConfig =>
    act (.spawnAcme l.tls.acmeDomains)
    return defaultConfig

def setupAcceptors :
    List (ListenerConfig × SocketAddr) → Traced StartupError (Action σ) (List σ)
  | [] => pure []
  | (l, _) :: rest => do
    let acceptor ← setupAcceptor p l
    let acceptors ← setupAcceptors rest
    return acceptor :: acceptors

/-- The admin endpoints are there only with a key that could be loaded. -/
def adminAuth (staticConfig : StaticConfig) : Option KeyHash :=
  if staticConfig.adminKeyPath = [] then none
  else
    match AdminServer.loadAdminKey p.sha256 staticConfig.adminKeyPath p.readAdminKey with
    | .ok (some hash) => some hash
    | .ok none => none
    | .error _ => none

def bindHealth (staticConfig : StaticConfig) :
    Traced StartupError (Action σ) (List SocketAddr) :=
  if 0 < staticConfig.healthCheckPort then
    (startHealthCheckListener p staticConfig.healthCheckPort (adminAuth p staticConfig)).mapError
      .health
  else pure []

/-- `run_server` up to the acceptors. -/
def prepare (staticConfig : StaticConfig) :
    Traced StartupError (Action σ) (List (ListenerConfig × SocketAddr) × List σ) := do
  lift (p.initLogging.mapError .logging)
  lift (p.registerSignals.mapError .signals)
  let bound ← bindHealth p staticConfig
  let boundListeners ← bindListeners p bound staticConfig.listeners
  let tlsAcceptors ← setupAcceptors p boundListeners
  return (boundListeners, tlsAcceptors)

def serveAll : List (SocketAddr × σ) → Traced StartupError (Action σ) Unit
  | [] => act .ready
  | (sa, acceptor) :: rest => do
    act (.serveHttps sa acceptor)
    serveAll rest

/-- `ConnectionSemaphore::new`: tokio's semaphore cannot count more permits than
`maxPermits`, and panics. -/
def newConnectionSemaphore (maxConnections : UInt64) : Traced StartupError (Action σ) Unit :=
  if maxConnections.toNat ≤ maxPermits then pure ()
  else lift (.error (.tooManyPermits maxConnections))

/-- `run_server` up to the wait for a shutdown. -/
def startServer (staticConfig : StaticConfig) : Traced StartupError (Action σ) Unit := do
  let (boundListeners, tlsAcceptors) ← prepare p staticConfig
  if boundListeners.length ≠ tlsAcceptors.length then
    lift (.error (.countMismatch boundListeners.length tlsAcceptors.length))
  else do
    newConnectionSemaphore staticConfig.maxConnections
    serveAll ((boundListeners.map Prod.snd).zip tlsAcceptors)

/-! ### What success needs -/

/-- The socket can be had next to those in `bound`. -/
def Granted (bound : List SocketAddr) (sa : SocketAddr) : Prop :=
  p.bind bound sa = .ok () ∧ ∃ localAddr, p.localAddr sa = .ok localAddr

/-- The sockets can be had one after the other. -/
def InTurn : List SocketAddr → List SocketAddr → Prop
  | _, [] => True
  | bound, sa :: rest => Granted p bound sa ∧ InTurn (bound ++ [sa]) rest

theorem inTurn_append (xs : List SocketAddr) : ∀ (bound ys : List SocketAddr),
    InTurn p bound (xs ++ ys) ↔ InTurn p bound xs ∧ InTurn p (bound ++ xs) ys := by
  induction xs with
  | nil =>
    intro bound ys
    rw [List.append_nil]
    exact (iff_of_eq (true_and _)).symm
  | cons sa xs ih =>
    intro bound ys
    rw [List.cons_append, InTurn, InTurn, ih, and_assoc, List.append_assoc, List.singleton_append]

theorem inTurn_singleton {bound : List SocketAddr} {sa : SocketAddr} :
    InTurn p bound [sa] ↔ Granted p bound sa :=
  iff_of_eq (and_true _)

variable {p} {bound bound' : List SocketAddr} {l : ListenerConfig} {ds : List (Action σ)}

theorem bindTcp_yields {sa : SocketAddr} :
    (bindTcp p bound sa).Yields ds bound' ↔
      p.bind bound sa = .ok () ∧ ds = [.bound sa] ∧ bound' = bound ++ [sa] := by
  simp only [bindTcp, yields_bind, yields_lift, yields_act, yields_pure]
  constructor
  · rintro ⟨_, _, _, ⟨rfl, h⟩, ⟨_, _, _, rfl, ⟨rfl, rfl⟩, rfl⟩, rfl⟩
    exact ⟨h, rfl, rfl⟩
  · rintro ⟨h, rfl, rfl⟩
    exact ⟨[], (), [.bound sa], ⟨rfl, h⟩, ⟨[.bound sa], (), [], rfl, ⟨rfl, rfl⟩, rfl⟩, rfl⟩

theorem bindAndServe_yields {sa : SocketAddr} {serve : Action σ} :
    (bindAndServe p bound sa serve).Yields ds bound' ↔
      Granted p bound sa ∧ ds = [.bound sa, serve] ∧ bound' = bound ++ [sa] := by
  simp only [bindAndServe, yields_bind, yields_lift, yields_act, yields_pure, bindTcp_yields]
  constructor
  · rintro ⟨_, _, _, ⟨h, rfl, rfl⟩, ⟨_, _, _, ⟨rfl, haddr⟩, ⟨_, _, _, rfl, ⟨rfl, rfl⟩, rfl⟩, rfl⟩,
      rfl⟩
    exact ⟨⟨h, _, haddr⟩, rfl, rfl⟩
  · rintro ⟨⟨h, localAddr, haddr⟩, rfl, rfl⟩
    refine ⟨[.bound sa], bound ++ [sa], [serve], ⟨h, rfl, rfl⟩, ?_, rfl⟩
    exact ⟨[], localAddr, [serve], ⟨rfl, haddr⟩, ⟨[serve], (), [], rfl, ⟨rfl, rfl⟩, rfl⟩, rfl⟩

/-- The addresses served as soon as they are bound, with what is done for them. -/
def served (serve : Action σ) (addrs : List SocketAddr) : List (Action σ) :=
  addrs.flatMap fun sa => [.bound sa, serve]

def healthAddrs (staticConfig : StaticConfig) : List SocketAddr :=
  if 0 < staticConfig.healthCheckPort
    then [SocketAddr.v4 loopback staticConfig.healthCheckPort] else []

theorem bindHealth_yields {staticConfig : StaticConfig} :
    (bindHealth p staticConfig).Yields ds bound' ↔
      InTurn p [] (healthAddrs staticConfig) ∧
      ds = served (.serveHealth (adminAuth p staticConfig)) (healthAddrs staticConfig) ∧
      bound' = healthAddrs staticConfig := by
  rw [bindHealth, healthAddrs]
  split
  · rw [yields_mapError, startHealthCheckListener, bindAndServe_yields, inTurn_singleton]
    rfl
  · rw [yields_pure]
    exact (iff_of_eq (true_and _)).symm

theorem bindRedirect_yields :
    (bindRedirect p bound l).Yields ds bound' ↔
      ∃ http, redirectAddrs l = some http ∧ InTurn p bound http ∧
        ds = served (.serveRedirect l.httpsPort) http ∧ bound' = bound ++ http := by
  rw [bindRedirect, redirectAddrs]
  split
  · rw [yields_mapError, startHttpRedirectListener]
    cases SocketAddr.parse (socketText l.bindAddr l.httpPort) with
    | none =>
      constructor
      · rintro ⟨-, h⟩
        cases h
      · rintro ⟨_, h, -⟩
        cases h
    | some sa =>
      rw [yields_mapError, bindAndServe_yields, ← inTurn_singleton]
      constructor
      · intro h
        exact ⟨[sa], rfl, h⟩
      · rintro ⟨http, hhttp, h⟩
        obtain rfl := Option.some_inj.mp hhttp
        exact h
  · rw [yields_pure]
    constructor
    · rintro ⟨rfl, rfl⟩
      exact ⟨[], rfl, trivial, rfl, (List.append_nil _).symm⟩
    · rintro ⟨http, hhttp, -, rfl, rfl⟩
      obtain rfl := Option.some_inj.mp hhttp
      exact ⟨rfl, List.append_nil _⟩

theorem bindHttps_yields {sa : SocketAddr} :
    (bindHttps p bound l).Yields ds (bound', sa) ↔
      SocketAddr.parse (socketText l.bindAddr l.httpsPort) = some sa ∧ Granted p bound sa ∧
        ds = [.bound sa] ∧ bound' = bound ++ [sa] := by
  rw [bindHttps]
  cases SocketAddr.parse (socketText l.bindAddr l.httpsPort) with
  | none =>
    constructor
    · rintro ⟨-, h⟩
      cases h
    · rintro ⟨h, -⟩
      cases h
  | some sa' =>
    simp only [yields_bind, yields_mapError, yields_lift, yields_pure, bindTcp_yields,
      mapError_eq_ok]
    constructor
    · rintro ⟨_, _, _, ⟨h, rfl, rfl⟩, ⟨_, _, _, ⟨rfl, haddr⟩, ⟨rfl, heq⟩, rfl⟩, rfl⟩
      obtain ⟨rfl, rfl⟩ := Prod.mk.inj heq
      exact ⟨rfl, ⟨h, _, haddr⟩, rfl, rfl⟩
    · rintro ⟨hsa, ⟨h, localAddr, haddr⟩, rfl, rfl⟩
      obtain rfl := Option.some_inj.mp hsa
      refine ⟨[.bound sa'], bound ++ [sa'], [], ⟨h, rfl, rfl⟩, ?_, rfl⟩
      exact ⟨[], localAddr, [], ⟨rfl, haddr⟩, ⟨rfl, rfl⟩, rfl⟩

/-! ### The binding loop -/

theorem filterMap_socket_served {serve : Action σ} (h : serve.socket = none)
    (addrs : List SocketAddr) : (served serve addrs).filterMap Action.socket = addrs := by
  induction addrs with
  | nil => rfl
  | cons sa addrs ih =>
    show ([.bound sa, serve] ++ served serve addrs).filterMap Action.socket = _
    have hbound : (Action.bound sa : Action σ).socket = some sa := rfl
    rw [List.filterMap_append, ih, List.filterMap_cons_some hbound, List.filterMap_cons_none h]
    rfl

theorem listenerAddrs_eq_some {addrs : List SocketAddr} :
    listenerAddrs l = some addrs ↔ ∃ http sa, redirectAddrs l = some http ∧
      SocketAddr.parse (socketText l.bindAddr l.httpsPort) = some sa ∧ addrs = http ++ [sa] := by
  constructor
  · intro h
    obtain ⟨http, hhttp, h⟩ := Option.bind_eq_some_iff.mp h
    obtain ⟨sa, hsa, h⟩ := Option.bind_eq_some_iff.mp h
    exact ⟨http, sa, hhttp, hsa, (Option.some_inj.mp h).symm⟩
  · rintro ⟨http, sa, hhttp, hsa, rfl⟩
    simp [listenerAddrs, hhttp, hsa]

/-- The socket of an entry is the HTTPS one of its listener. -/
def OwnSocket (l : ListenerConfig) (b : ListenerConfig × SocketAddr) : Prop :=
  b.1 = l ∧ SocketAddr.parse (socketText l.bindAddr l.httpsPort) = some b.2

theorem bindListeners_of_yields {ls : List ListenerConfig} :
    ∀ {bound ds} {boundListeners : List (ListenerConfig × SocketAddr)},
    (bindListeners p bound ls).Yields ds boundListeners →
      (∃ parts, ls.mapM listenerAddrs = some parts ∧ InTurn p bound parts.flatten ∧
        ds.filterMap Action.socket = parts.flatten) ∧
      List.Forall₂ OwnSocket ls boundListeners := by
  induction ls with
  | nil =>
    intro bound ds boundListeners h
    obtain ⟨rfl, rfl⟩ := yields_pure.mp h
    exact ⟨⟨[], rfl, trivial, rfl⟩, .nil⟩
  | cons l ls ih =>
    intro bound ds boundListeners h
    obtain ⟨_, _, _, hredirect, htail, rfl⟩ := yields_bind.mp h
    obtain ⟨_, ⟨bound', sa⟩, _, hhttps, hloop, rfl⟩ := yields_bind.mp htail
    obtain ⟨_, rest, _, hrest, hpure, rfl⟩ := yields_bind.mp hloop
    obtain ⟨rfl, rfl⟩ := yields_pure.mp hpure
    obtain ⟨http, hhttp, hturn, rfl, rfl⟩ := bindRedirect_yields.mp hredirect
    obtain ⟨hsa, hgrant, rfl, rfl⟩ := bindHttps_yields.mp hhttps
    obtain ⟨⟨parts, hparts, hturns, hsockets⟩, hown⟩ := ih hrest
    have haddrs : listenerAddrs l = some (http ++ [sa]) :=
      listenerAddrs_eq_some.mpr ⟨http, sa, hhttp, hsa, rfl⟩
    refine ⟨⟨(http ++ [sa]) :: parts, ?_, ?_, ?_⟩, .cons ⟨rfl, hsa⟩ hown⟩
    · rw [List.mapM_cons, haddrs, hparts]
      rfl
    · rw [List.flatten_cons, inTurn_append, inTurn_append, inTurn_singleton, ← List.append_assoc]
      exact ⟨⟨hturn, hgrant⟩, hturns⟩
    · rw [List.append_nil, List.filterMap_append, List.filterMap_append, hsockets,
        filterMap_socket_served rfl, List.flatten_cons, List.append_assoc]
      rfl

/-! ### The acceptors -/

/-- The acceptor is the one that the TLS settings of the listener give. -/
def OwnAcceptor (p : Platform σ) (l : ListenerConfig) (acceptor : σ) : Prop :=
  ∃ mode, setupTls p.buildManual p.setupAcme l.tls = .ok mode ∧ mode.config = acceptor

theorem setupAcceptor_yields {acceptor : σ} (h : (setupAcceptor p l).Yields ds acceptor) :
    OwnAcceptor p l acceptor ∧ ds.filterMap Action.socket = [] := by
  obtain ⟨_, mode, _, hlift, hrest, rfl⟩ := yields_bind.mp h
  obtain ⟨rfl, hmode⟩ := yields_lift.mp hlift
  cases mode with
  | manual config =>
    obtain ⟨rfl, rfl⟩ := yields_pure.mp hrest
    exact ⟨⟨_, mapError_eq_ok.mp hmode, rfl⟩, rfl⟩
  | acme config =>
    obtain ⟨_, _, _, hact, hpure, rfl⟩ := yields_bind.mp hrest
    obtain rfl := yields_act.mp hact
    obtain ⟨rfl, rfl⟩ := yields_pure.mp hpure
    exact ⟨⟨_, mapError_eq_ok.mp hmode, rfl⟩, rfl⟩

theorem setupAcceptors_of_yields {boundListeners : List (ListenerConfig × SocketAddr)} :
    ∀ {ds} {acceptors : List σ}, (setupAcceptors p boundListeners).Yields ds acceptors →
      List.Forall₂ (fun b => OwnAcceptor p b.1) boundListeners acceptors ∧
      ds.filterMap Action.socket = [] := by
  induction boundListeners with
  | nil =>
    intro ds acceptors h
    obtain ⟨rfl, rfl⟩ := yields_pure.mp h
    exact ⟨.nil, rfl⟩
  | cons b rest ih =>
    intro ds acceptors h
    obtain ⟨_, acceptor, _, hacceptor, htail, rfl⟩ := yields_bind.mp h
    obtain ⟨_, acceptors', _, hrest, hpure, rfl⟩ := yields_bind.mp htail
    obtain ⟨rfl, rfl⟩ := yields_pure.mp hpure
    obtain ⟨hown, hsocket⟩ := setupAcceptor_yields hacceptor
    obtain ⟨howns, hsockets⟩ := ih hrest
    refine ⟨.cons hown howns, ?_⟩
    rw [List.append_nil, List.filterMap_append, hsocket, hsockets]
    rfl

/-! ### All or nothing -/

theorem startupAddrs_eq_some {staticConfig : StaticConfig} {addrs : List SocketAddr} :
    startupAddrs staticConfig = some addrs ↔
      ∃ parts, staticConfig.listeners.mapM listenerAddrs = some parts ∧
        addrs = healthAddrs staticConfig ++ parts.flatten := by
  constructor
  · intro h
    obtain ⟨parts, hparts, h⟩ := Option.bind_eq_some_iff.mp h
    exact ⟨parts, hparts, (Option.some_inj.mp h).symm⟩
  · rintro ⟨parts, hparts, rfl⟩
    rw [startupAddrs, hparts]
    rfl

/-- The listener is served on its own socket with its own acceptor. -/
def ServedBy (p : Platform σ) (l : ListenerConfig) (server : SocketAddr × σ) : Prop :=
  SocketAddr.parse (socketText l.bindAddr l.httpsPort) = some server.1 ∧
    OwnAcceptor p l server.2

theorem forall₂_servedBy {ls : List ListenerConfig} :
    ∀ {boundListeners : List (ListenerConfig × SocketAddr)} {acceptors : List σ},
    List.Forall₂ OwnSocket ls boundListeners →
    List.Forall₂ (fun b => OwnAcceptor p b.1) boundListeners acceptors →
      List.Forall₂ (ServedBy p) ls ((boundListeners.map Prod.snd).zip acceptors) := by
  induction ls with
  | nil =>
    rintro _ _ ⟨⟩ ⟨⟩
    exact .nil
  | cons l ls ih =>
    rintro _ _ (_ | ⟨⟨rfl, hsa⟩, hrest⟩) (_ | ⟨hown, hrest'⟩)
    exact .cons ⟨hsa, hown⟩ (ih hrest hrest')

theorem prepare_of_yields {staticConfig : StaticConfig}
    {prepared : List (ListenerConfig × SocketAddr) × List σ}
    (h : (prepare p staticConfig).Yields ds prepared) :
    (p.initLogging = .ok () ∧ p.registerSignals = .ok ()) ∧
    startupAddrs staticConfig = some (ds.filterMap Action.socket) ∧
    InTurn p [] (ds.filterMap Action.socket) ∧
    List.Forall₂ OwnSocket staticConfig.listeners prepared.1 ∧
    List.Forall₂ (fun b => OwnAcceptor p b.1) prepared.1 prepared.2 := by
  obtain ⟨_, _, _, hlog, h₁, rfl⟩ := yields_bind.mp h
  obtain ⟨_, _, _, hsignals, h₂, rfl⟩ := yields_bind.mp h₁
  obtain ⟨_, bound, _, hhealth, h₃, rfl⟩ := yields_bind.mp h₂
  obtain ⟨_, boundListeners, listening, hbind, h₄, rfl⟩ := yields_bind.mp h₃
  obtain ⟨_, acceptors, _, htls, hpure, rfl⟩ := yields_bind.mp h₄
  obtain ⟨rfl, rfl⟩ := yields_pure.mp hpure
  obtain ⟨rfl, hlogged⟩ := yields_lift.mp hlog
  obtain ⟨rfl, hregistered⟩ := yields_lift.mp hsignals
  obtain ⟨hturn, rfl, rfl⟩ := bindHealth_yields.mp hhealth
  obtain ⟨⟨parts, hparts, hturns, hsockets⟩, hown⟩ := bindListeners_of_yields hbind
  obtain ⟨haccs, hnone⟩ := setupAcceptors_of_yields htls
  -- the health socket, then those of the loop; the acceptors add none
  simp only [List.nil_append, List.append_nil, List.filterMap_append, hnone, hsockets]
  rw [filterMap_socket_served rfl]
  exact ⟨⟨mapError_eq_ok.mp hlogged, mapError_eq_ok.mp hregistered⟩,
    startupAddrs_eq_some.mpr ⟨parts, hparts, rfl⟩, (inTurn_append p _ _ _).mpr ⟨hturn, hturns⟩,
    hown, haccs⟩

def Quiet (d : Action σ) : Prop := ¬ d.Opens

def CanHappen (e : StartupError) : Prop := ∀ m n, e ≠ .countMismatch m n

theorem within_bindTcp {sa : SocketAddr} {E : Str → Prop} (hE : ∀ text, E text) :
    Within Quiet E (bindTcp p bound sa) :=
  (within_lift fun e _ => hE e).bind fun _ => (within_act (fun h => h)).bind fun _ => within_pure _

theorem within_bindAndServe {sa : SocketAddr} {serve : Action σ} (h : Quiet serve) :
    Within Quiet (fun _ => True) (bindAndServe p bound sa serve) :=
  (within_bindTcp fun _ => trivial).bind fun _ => (within_lift fun _ _ => trivial).bind fun _ =>
    (within_act h).bind fun _ => within_pure _

theorem within_bindHealth (staticConfig : StaticConfig) :
    Within Quiet CanHappen (bindHealth p staticConfig) := by
  rw [bindHealth]
  split
  · have hquiet : Quiet (.serveHealth (adminAuth p staticConfig) : Action σ) := fun h => h
    refine (within_bindAndServe hquiet).mapError fun _ m n heq => ?_
    cases heq
  · exact within_pure _

theorem within_bindRedirect : Within Quiet CanHappen (bindRedirect p bound l) := by
  rw [bindRedirect]
  split
  · have hredirect : Within Quiet (fun _ => True) (startHttpRedirectListener p bound l) := by
      rw [startHttpRedirectListener]
      split
      · exact within_lift fun _ _ => trivial
      · have hquiet : Quiet (.serveRedirect l.httpsPort : Action σ) := fun h => h
        exact (within_bindAndServe hquiet).mapError fun _ => trivial
    refine hredirect.mapError fun _ m n heq => ?_
    cases heq
  · exact within_pure _

theorem within_bindHttps : Within Quiet CanHappen (bindHttps p bound l) := by
  rw [bindHttps]
  split
  · refine within_lift fun e he m n => ?_
    obtain rfl := Except.error.inj he
    exact fun heq => by cases heq
  · next sa _ =>
    have htcp : Within Quiet (fun _ => True) (bindTcp p bound sa) :=
      within_bindTcp fun _ => trivial
    refine (htcp.mapError fun _ m n heq => ?_).bind fun _ =>
      (within_lift_mapError fun _ m n heq => ?_).bind fun _ => within_pure _
    · cases heq
    · cases heq

theorem within_bindListeners (ls : List ListenerConfig) : ∀ bound,
    Within Quiet CanHappen (bindListeners p bound ls) := by
  induction ls with
  | nil => exact fun _ => within_pure _
  | cons l ls ih =>
    intro bound
    refine within_bindRedirect.bind fun _ => within_bindHttps.bind ?_
    rintro ⟨bound', sa⟩
    exact (ih bound').bind fun _ => within_pure _

theorem within_setupAcceptor : Within Quiet CanHappen (setupAcceptor p l) := by
  refine (within_lift_mapError fun _ m n heq => ?_).bind fun mode => ?_
  · cases heq
  · cases mode with
    | manual config => exact within_pure _
    | acme config => exact (within_act (fun h => h)).bind fun _ => within_pure _

theorem within_setupAcceptors (boundListeners : List (ListenerConfig × SocketAddr)) :
    Within Quiet CanHappen (setupAcceptors p boundListeners) := by
  induction boundListeners with
  | nil => exact within_pure _
  | cons b rest ih => exact within_setupAcceptor.bind fun _ => ih.bind fun _ => within_pure _

theorem within_prepare (staticConfig : StaticConfig) :
    Within Quiet CanHappen (prepare p staticConfig) := by
  refine (within_lift_mapError fun _ m n heq => ?_).bind fun _ =>
    (within_lift_mapError fun _ m n heq => ?_).bind fun _ =>
    (within_bindHealth staticConfig).bind fun bound =>
    (within_bindListeners _ bound).bind fun boundListeners =>
    (within_setupAcceptors boundListeners).bind fun _ => within_pure _
  · cases heq
  · cases heq

theorem serveAll_yields (servers : List (SocketAddr × σ)) :
    (serveAll servers).Yields (servers.map (fun s => .serveHttps s.1 s.2) ++ [.ready]) () := by
  induction servers with
  | nil => exact yields_act.mpr rfl
  | cons s servers ih => exact ((yields_act (u := ())).mpr rfl).bind ih

/-- After the acceptors only the semaphore can fail: one acceptor was pushed for
each listener. -/
theorem startServer_eq {staticConfig : StaticConfig}
    {prepared : List (ListenerConfig × SocketAddr) × List σ}
    (h : (prepare p staticConfig).Yields ds prepared) :
    startServer p staticConfig =
      (prepare p staticConfig >>= fun _ => newConnectionSemaphore staticConfig.maxConnections
        >>= fun _ => serveAll ((prepared.1.map Prod.snd).zip prepared.2)) := by
  obtain ⟨-, -, -, -, haccs⟩ := prepare_of_yields h
  rw [bind_of_yields h, startServer, bind_of_yields h]
  dsimp only
  rw [if_neg (not_not.mpr haccs.length_eq)]

theorem startServer_yields {staticConfig : StaticConfig}
    {prepared : List (ListenerConfig × SocketAddr) × List σ}
    (h : (prepare p staticConfig).Yields ds prepared)
    (hpermits : staticConfig.maxConnections.toNat ≤ maxPermits) :
    (startServer p staticConfig).Yields
      (ds ++ (((prepared.1.map Prod.snd).zip prepared.2).map (fun s => .serveHttps s.1 s.2)
        ++ [.ready])) () := by
  rw [startServer_eq h, newConnectionSemaphore, if_pos hpermits]
  exact h.bind (((yields_pure (b := ())).mpr ⟨rfl, rfl⟩).bind (serveAll_yields _))

theorem startServer_tooManyPermits {staticConfig : StaticConfig}
    {prepared : List (ListenerConfig × SocketAddr) × List σ}
    (h : (prepare p staticConfig).Yields ds prepared)
    (hpermits : ¬ staticConfig.maxConnections.toNat ≤ maxPermits) :
    startServer p staticConfig = ⟨ds, .error (.tooManyPermits staticConfig.maxConnections)⟩ := by
  rw [startServer_eq h, bind_of_yields h, newConnectionSemaphore, if_neg hpermits]
  show Traced.mk (ds ++ []) _ = _
  rw [List.append_nil]
  rfl

variable (p) in
/-- **All or nothing.**  If startup succeeds it has bound the addresses of the
configuration, one granted after the other, and set up TLS for every listener
before it opens the first HTTPS server; then there is one for each listener, on
its socket and with its acceptor, and the last thing is the notice to systemd.
If it fails, be it in a panic, no HTTPS server was opened and no notice given,
and the reason is not the count of acceptors. -/
theorem startServer_all_or_nothing (staticConfig : StaticConfig) :
    (∃ before servers,
      (startServer p staticConfig).Yields
        (before ++ (servers.map (fun s => .serveHttps s.1 s.2) ++ [.ready])) () ∧
      (∀ d ∈ before, ¬ d.Opens) ∧
      startupAddrs staticConfig = some (before.filterMap Action.socket) ∧
      InTurn p [] (before.filterMap Action.socket) ∧
      List.Forall₂ (ServedBy p) staticConfig.listeners servers) ∨
    ∃ e, (startServer p staticConfig).result = .error e ∧
      (∀ d ∈ (startServer p staticConfig).trace, ¬ d.Opens) ∧ ∀ m n, e ≠ .countMismatch m n := by
  rcases (prepare p staticConfig).yields_or_error with ⟨ds, ⟨bl, accs⟩, hyields⟩ | ⟨e, he⟩
  · obtain ⟨-, haddrs, hturn, hown, haccs⟩ := prepare_of_yields hyields
    have hquiet : ∀ d ∈ ds, ¬ d.Opens := hyields.1 ▸ (within_prepare staticConfig).trace
    by_cases hpermits : staticConfig.maxConnections.toNat ≤ maxPermits
    · exact Or.inl ⟨ds, (bl.map Prod.snd).zip accs, startServer_yields hyields hpermits, hquiet,
        haddrs, hturn, forall₂_servedBy hown haccs⟩
    · -- the panic comes before the first server
      rw [startServer_tooManyPermits hyields hpermits]
      refine Or.inr ⟨_, rfl, hquiet, fun m n heq => ?_⟩
      cases heq
  · have heq : startServer p staticConfig = ⟨(prepare p staticConfig).trace, .error e⟩ :=
      bind_of_error he _
    rw [heq]
    exact Or.inr ⟨e, rfl, (within_prepare staticConfig).trace,
      (within_prepare staticConfig).error e he⟩

end

end Startup
