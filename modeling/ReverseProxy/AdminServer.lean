/-
The admin endpoints.

A request is let through when the hash of its token is the stored one; its
handler then reloads the configuration, reports the status or replaces the key,
while other requests, signals and changes of the file go on.

* `System`, `step` — the stored hash, the requests and the reloads of `Reload`;
* `needs_run` — what has led to the phase of a request;
* `changes_authorized` — whatever the endpoints change or answer, a request has
  asked for it with the key of its moment.
-/
import ReverseProxy.AdminKey
import ReverseProxy.ReloadAtomic
import ReverseProxy.Simulation

open Run Text AddrParser NetAddr Config Http
open AdminKey (KeyHash Route hexEncode bearerToken adminAuthMiddleware)

namespace AdminServer

/-! ### The handlers -/

structure AdminResponse where
  status : ℕ
  body : Str
  deriving DecidableEq

def unauthorized : AdminResponse := ⟨401, []⟩

/-- What `reload_handler` answers when its attempt has come to an end. -/
def reloadHandler : Reload.Phase → Option AdminResponse
  | .failed .fileChangedDuringRead => some ⟨409, ("\x7b\"status\":\"error\",\"message\":" ++
      "\"config file changed during read, please retry\"\x7d").toList⟩
  | .failed _ =>
    some ⟨500, "\x7b\"status\":\"error\",\"message\":\"reload failed\"\x7d".toList⟩
  | .succeeded _ _ => some ⟨200, "\x7b\"status\":\"ok\"\x7d".toList⟩
  | _ => none

def statusHandler (config : DynamicConfig) (uptimeSecs : UInt64) : AdminResponse where
  status := 200
  body := "\x7b\"status\":\"ok\",\"uptime_secs\":".toList ++ decimal uptimeSecs.toNat ++
    ",\"sites\":".toList ++ decimal config.sites.length ++ "\x7d".toList

def rotateKeyHandler (newKeyHex : Str) : AdminResponse where
  status := 200
  body := "\x7b\"status\":\"ok\",\"key\":\"".toList ++ newKeyHex ++ "\"\x7d".toList

/-! ### The system -/

inductive Phase where
  | admitted (route : Route)
  | reloading (attempt : ℕ)
  | answered (response : AdminResponse)
  | dropped

structure System where
  keyHash : KeyHash
  reload : Reload.System
  requests : ℕ → Option Phase

inductive Event (V : Type) where
  | arrive (r : ℕ) (route : Route) (headers : HeaderMap V)
  /-- `reload_handler` starts its attempt -/
  | begin (r i : ℕ)
  | finish (r : ℕ)
  | status (r : ℕ) (uptimeSecs : UInt64)
  | rotate (r : ℕ) (random : Vector UInt8 32)
  /-- the client hangs up -/
  | drop (r : ℕ)
  /-- the attempts go on, signals start others, the file changes -/
  | reload (e : Reload.Event)

def System.start (keyHash : KeyHash) (reload : Reload.System) : System where
  keyHash := keyHash
  reload := reload
  requests := fun _ => none

def System.setPhase (s : System) (r : ℕ) (p : Phase) : System :=
  { s with requests := Function.update s.requests r (some p) }

section

variable {V : Type} [HeaderValue V] [Lowercase] (sha256 : Str → KeyHash)
  (parse : Str → Except Str FullConfig)

def step (s : System) : Event V → Option System
  | .arrive r route headers =>
    match s.requests r with
    | some _ => none
    | none => some (s.setPhase r
        (match adminAuthMiddleware sha256 s.keyHash headers with
          | some _ => .admitted route
          | none => .answered unauthorized))
  | .begin r i =>
    match s.requests r with
    | some (.admitted .reload) => (Reload.step parse s.reload (.request i)).map fun reload =>
        { s with reload := reload }.setPhase r (.reloading i)
    | _ => none
  | .finish r =>
    match s.requests r with
    | some (.reloading i) => ((s.reload.tasks i).bind (reloadHandler ·.phase)).map fun response =>
        s.setPhase r (.answered response)
    | _ => none
  | .status r uptimeSecs =>
    match s.requests r with
    | some (.admitted .status) =>
      some (s.setPhase r (.answered (statusHandler s.reload.core.handle.config uptimeSecs)))
    | _ => none
  | .rotate r random =>
    match s.requests r with
    | some (.admitted .rotateKey) =>
      some ({ s with keyHash := sha256 (hexEncode random) }.setPhase r
        (.answered (rotateKeyHandler (hexEncode random))))
    | _ => none
  | .drop r =>
    match s.requests r with
    | some (.admitted _) => some (s.setPhase r .dropped)
    -- the attempt is dropped at one of its awaits
    | some (.reloading i) => (Reload.step parse s.reload (.task i .cancel)).map fun reload =>
        { s with reload := reload }.setPhase r .dropped
    | _ => none
  | .reload (.task _ .cancel) => none
  | .reload e => (Reload.step parse s.reload e).map fun reload => { s with reload := reload }

/-! ### What a step does -/

/-- The steps, one by one. -/
inductive Move (s : System) : Event V → System → Prop
  | grant {r : ℕ} {route : Route} {headers : HeaderMap V} {token : Str}
    (hnew : s.requests r = none)
    (h : adminAuthMiddleware sha256 s.keyHash headers = some token) :
    Move s (.arrive r route headers) (s.setPhase r (.admitted route))
  | deny {r : ℕ} {route : Route} {headers : HeaderMap V} (hnew : s.requests r = none) :
    Move s (.arrive r route headers) (s.setPhase r (.answered unauthorized))
  | begin {r i : ℕ} {reload : Reload.System} (hr : s.requests r = some (.admitted .reload)) :
    Move s (.begin r i) ({ s with reload := reload }.setPhase r (.reloading i))
  | finish {r i : ℕ} (response : AdminResponse) (hr : s.requests r = some (.reloading i)) :
    Move s (.finish r) (s.setPhase r (.answered response))
  | status {r : ℕ} {uptimeSecs : UInt64} (response : AdminResponse)
    (hr : s.requests r = some (.admitted .status)) :
    Move s (.status r uptimeSecs) (s.setPhase r (.answered response))
  | rotate {r : ℕ} {random : Vector UInt8 32} (response : AdminResponse)
    (hr : s.requests r = some (.admitted .rotateKey)) :
    Move s (.rotate r random)
      ({ s with keyHash := sha256 (hexEncode random) }.setPhase r (.answered response))
  | drop {r : ℕ} (hr : ∃ route, s.requests r = some (.admitted route)) :
    Move s (.drop r) (s.setPhase r .dropped)
  | cancel {r i : ℕ} {reload : Reload.System} (hr : s.requests r = some (.reloading i)) :
    Move s (.drop r) ({ s with reload := reload }.setPhase r .dropped)
  | reload {e : Reload.Event} {reload : Reload.System} :
    Move s (.reload e) { s with reload := reload }

variable {sha256 parse}

theorem move_of_step {s s' : System} {e : Event V} (h : step sha256 parse s e = some s') :
    Move sha256 s e s' := by
  unfold step at h
  split at h
  · next r route headers =>
    split at h
    · cases h
    · next hnew =>
      obtain rfl := Option.some_inj.mp h
      cases hauth : adminAuthMiddleware sha256 s.keyHash headers with
      | some token => exact .grant hnew hauth
      | none => exact .deny hnew
  · next r i =>
    split at h
    · next hr =>
      obtain ⟨reload, -, rfl⟩ := Option.map_eq_some_iff.mp h
      exact .begin hr
    · cases h
  · next r =>
    split at h
    · next i hr =>
      obtain ⟨response, -, rfl⟩ := Option.map_eq_some_iff.mp h
      exact .finish response hr
    · cases h
  · next r uptimeSecs =>
    split at h
    · next hr =>
      obtain rfl := Option.some_inj.mp h
      exact .status _ hr
    · cases h
  · next r random =>
    split at h
    · next hr =>
      obtain rfl := Option.some_inj.mp h
      exact .rotate _ hr
    · cases h
  · next r =>
    split at h
    · next route hr =>
      obtain rfl := Option.some_inj.mp h
      exact .drop ⟨route, hr⟩
    · next i hr =>
      obtain ⟨reload, -, rfl⟩ := Option.map_eq_some_iff.mp h
      exact .cancel hr
    · cases h
  · cases h
  · next e hcancel =>
    obtain ⟨reload, -, rfl⟩ := Option.map_eq_some_iff.mp h
    exact .reload

/-! ### Who has asked for it -/

section authorized

variable (sha256 parse) (start : System)

/-- The request has come with a token whose hash was the stored one. -/
def Authorized (es : List (Event V)) (r : ℕ) (route : Route) : Prop :=
  ∃ n t headers token, At (step sha256 parse) start es n t ∧
    es[n]? = some (.arrive r route headers) ∧
    adminAuthMiddleware sha256 t.keyHash headers = some token

/-- The route that a phase belongs to; a request that was turned away or has
hung up has none. -/
def Needs (es : List (Event V)) (r : ℕ) : Phase → Prop
  | .admitted route => Authorized sha256 parse start es r route
  | .reloading _ => Authorized sha256 parse start es r .reload
  | .answered response => response.status ≠ 401 → ∃ route, Authorized sha256 parse start es r route
  | .dropped => True

variable {sha256 parse start} {es : List (Event V)} {s s' : System} {e : Event V}

theorem Authorized.append {r : ℕ} {route : Route} (h : Authorized sha256 parse start es r route)
    (es' : List (Event V)) : Authorized sha256 parse start (es ++ es') r route := by
  obtain ⟨n, t, headers, token, hat, hevent, hauth⟩ := h
  exact ⟨n, t, headers, token, hat.append es', getElem?_append_of_some hevent es', hauth⟩

theorem Needs.append {r : ℕ} {p : Phase} (h : Needs sha256 parse start es r p)
    (es' : List (Event V)) : Needs sha256 parse start (es ++ es') r p := by
  cases p with
  | admitted route => exact Authorized.append h es'
  | reloading i => exact Authorized.append h es'
  | answered response =>
    intro hstatus
    obtain ⟨route, hroute⟩ := h hstatus
    exact ⟨route, hroute.append es'⟩
  | dropped => trivial

theorem needs_setPhase {t : System} {r : ℕ} {p : Phase}
    (h : ∀ r p, s.requests r = some p → Needs sha256 parse start es r p)
    (hrequests : t.requests = s.requests) (hp : Needs sha256 parse start (es ++ [e]) r p) :
    ∀ q p', (t.setPhase r p).requests q = some p' →
      Needs sha256 parse start (es ++ [e]) q p' := by
  intro q p' hq
  rcases Reload.update_eq_some hq with ⟨rfl, rfl⟩ | ⟨-, hold⟩
  · exact hp
  · exact (h q p' (hrequests ▸ hold)).append [e]

theorem needs_step (hrun : run (step sha256 parse) start es = some s)
    (h : ∀ r p, s.requests r = some p → Needs sha256 parse start es r p)
    (hstep : step sha256 parse s e = some s') :
    ∀ r p, s'.requests r = some p → Needs sha256 parse start (es ++ [e]) r p := by
  cases move_of_step hstep with
  | grant hnew hauth =>
    refine needs_setPhase h rfl ⟨es.length, s, _, _, at_end hrun _, ?_, hauth⟩
    exact List.getElem?_concat_length
  | deny hnew => exact needs_setPhase h rfl fun hstatus => absurd rfl hstatus
  | begin hr => exact needs_setPhase h rfl ((h _ _ hr).append _)
  | finish response hr => exact needs_setPhase h rfl fun _ => ⟨_, (h _ _ hr).append _⟩
  | status response hr => exact needs_setPhase h rfl fun _ => ⟨_, (h _ _ hr).append _⟩
  | rotate response hr => exact needs_setPhase h rfl fun _ => ⟨_, (h _ _ hr).append _⟩
  | drop hr => exact needs_setPhase h rfl trivial
  | cancel hr => exact needs_setPhase h rfl trivial
  | reload => exact fun r p hr => (h r p hr).append _

theorem needs_run (hstart : ∀ r, start.requests r = none)
    (hrun : run (step sha256 parse) start es = some s) :
    ∀ r p, s.requests r = some p → Needs sha256 parse start es r p := by
  refine run_history (I := fun (es : List (Event V)) s =>
    ∀ r p, s.requests r = some p → Needs sha256 parse start es r p) ?_ needs_step es hrun
  intro r p hr
  rw [hstart] at hr
  cases hr

end authorized

variable (sha256 parse) in
/-- **Nothing without the key.**  After any run of requests, reloads and signals:
a step that replaces the key is the rotation of a request, and a step that
touches the reloads and is not one of their own is the start of an attempt by a
request or the end of one that hung up; and this very request came with a token
whose hash was stored when it came.  So does every answer but 401. -/
theorem changes_authorized (keyHash : KeyHash) (reload : Reload.System) (es : List (Event V))
    (s : System) (hrun : run (step sha256 parse) (System.start keyHash reload) es = some s) :
    (∀ (e : Event V) s', step sha256 parse s e = some s' → s'.keyHash ≠ s.keyHash →
      ∃ r random, e = .rotate r random ∧ s'.keyHash = sha256 (hexEncode random) ∧
        Authorized sha256 parse (System.start keyHash reload) es r .rotateKey) ∧
    (∀ (e : Event V) s', step sha256 parse s e = some s' → s'.reload ≠ s.reload →
      (∀ e', e ≠ .reload e') →
      ∃ r, ((∃ i, e = .begin r i) ∨ e = .drop r) ∧
        Authorized sha256 parse (System.start keyHash reload) es r .reload) ∧
    ∀ r response, s.requests r = some (.answered response) → response.status ≠ 401 →
      ∃ route, Authorized sha256 parse (System.start keyHash reload) es r route := by
  have hneeds := needs_run (fun _ => rfl) hrun
  refine ⟨fun e s' hstep hkey => ?_, fun e s' hstep hreload hown => ?_, fun r response hr =>
    hneeds r _ hr⟩
  · cases move_of_step hstep with
    | rotate response hr => exact ⟨_, _, rfl, rfl, hneeds _ _ hr⟩
    | _ => exact absurd rfl hkey
  · cases move_of_step hstep with
    | begin hr => exact ⟨_, Or.inl ⟨_, rfl⟩, hneeds _ _ hr⟩
    | cancel hr => exact ⟨_, Or.inr rfl, hneeds _ _ hr⟩
    | reload => exact absurd rfl (hown _)
    | _ => exact absurd rfl hreload

end

/-! ### One rotation -/

open AdminKey (sampleHash sampleKey firstRandom)

def bearer (key : Str) : HeaderMap Str := [("authorization".toList, "Bearer ".toList ++ key)]

/-- A request with a wrong key, and one with the right key. -/
def twoRequests : List (Event Str) :=
  [.arrive 0 .reload (bearer (hexEncode firstRandom)), .arrive 1 .rotateKey (bearer sampleKey)]

def oneRotation : List (Event Str) := twoRequests ++ [.rotate 1 firstRandom]

def sampleReload [Lowercase] : Reload.System := Reload.System.start ⟨[], none⟩ Reload.sampleLoaded

/-- The second one replaces the key. -/
theorem changes_authorized_rotation : letI := asciiLowercase; letI := textHeaderValue
    ∃ s s' : System, run (step sampleHash fun _ => .ok Routing.sampleConfig)
        (System.start (sampleHash sampleKey) sampleReload) twoRequests = some s ∧
      step sampleHash (fun _ => .ok Routing.sampleConfig) s (.rotate 1 firstRandom : Event Str)
        = some s' ∧
      s.requests 0 = some (.answered unauthorized) ∧ s'.keyHash ≠ s.keyHash ∧
      Authorized sampleHash (fun _ => .ok Routing.sampleConfig)
        (System.start (sampleHash sampleKey) sampleReload) twoRequests 1 .rotateKey := by
  let _ := asciiLowercase
  let _ := textHeaderValue
  obtain ⟨s, hs⟩ : ∃ s, run (step sampleHash fun _ => .ok Routing.sampleConfig)
      (System.start (sampleHash sampleKey) sampleReload) twoRequests = some s := ⟨_, rfl⟩
  obtain ⟨s', hs'⟩ : ∃ s', step sampleHash (fun _ => .ok Routing.sampleConfig) s
      (.rotate 1 firstRandom : Event Str) = some s' := by
    obtain rfl := Option.some_inj.mp hs
    exact ⟨_, rfl⟩
  have hdenied : s.requests 0 = some (.answered unauthorized) := by
    obtain rfl := Option.some_inj.mp hs
    rfl
  have hkey : s'.keyHash ≠ s.keyHash := by
    obtain rfl := Option.some_inj.mp hs
    obtain rfl := Option.some_inj.mp hs'
    decide +kernel
  obtain ⟨r, random, heq, -, hauthorized⟩ := (changes_authorized sampleHash
    (fun _ => .ok Routing.sampleConfig) (sampleHash sampleKey) sampleReload twoRequests s hs).1
    _ s' hs' hkey
  cases heq
  exact ⟨s, s', hs, hs', hdenied, hkey, hauthorized⟩

end AdminServer
