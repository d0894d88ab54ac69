/-
Requests beside each other, and reloads between them.

The rate limit, the body limit and the proxy handler each load the configuration
for themselves, and other requests, evictions and reloads go on in between.

* `System`, `advance`, `step` — the requests that are being served, over the
  reloads of `Reload`;
* `respond_self` — the layers, one after the other, are the router;
* `incoming_run` — the requests are those that arrived, in order;
* `Explained`, `explained_step` — which events have led to the state of a request;
* `FromFile` — a configuration of the file, with who validated it and when;
* `answered_alone` — a request is answered as if it were alone, each layer going
  by the state of its own moment.
-/
import ReverseProxy.BodyLimit
import ReverseProxy.ReloadOrder
import ReverseProxy.Routing
import ReverseProxy.Simulation

open Run Text NetAddr Config Http Handler RateLimit BodyLimit Validation
open Reload (FileVersion LoadedConfig Confirmed loadConfig)

namespace Serving

/-! ### The system -/

/-- How far a request has come.  After the rate limit it is known when it was
checked. -/
inductive Progress (V : Type) where
  | arrived
  | admitted (checkedAt : ℚ)
  | limited (checkedAt : ℚ) (req : Request V Payload)
  | calling (checkedAt : ℚ) (req : Request V Payload) (routed : Routed V Payload)
  | answered (response : Response V (Body Payload))
  /-- the connection is gone -/
  | dropped

structure Incoming (V : Type) where
  peer : SocketAddr
  request : Request V Payload

structure Exchange (V : Type) where
  incoming : Incoming V
  progress : Progress V

/-- A request that was handed to an upstream client. -/
structure Call (V : Type) where
  client : IpAddr
  checkedAt : ℚ
  routed : Routed V Payload

structure System (V : Type) where
  reload : Reload.System
  buckets : IpAddr → Option TokenBucket
  exchanges : List (Exchange V)
  calls : List (Call V)

def System.start (V : Type) (file : FileVersion) (loaded : LoadedConfig) : System V where
  reload := Reload.System.start file loaded
  buckets := fun _ => none
  exchanges := []
  calls := []

variable {V : Type}

/-- What `config.load()` returns. -/
def System.config (s : System V) : DynamicConfig := s.reload.core.handle.config

/-- The limiter has the buckets and a handle of the configuration. -/
def System.limiter (s : System V) : RateLimiter := ⟨s.buckets, s.config.rateLimit⟩

inductive Action (V : Type) where
  | rateLimit (now : ℚ)
  | bodyLimit
  | route
  | complete (result : Timed (Except ClientError (Response V Payload)))
  | drop

inductive Event (V : Type) where
  | arrive (peer : SocketAddr) (req : Request V Payload)
  | act (i : ℕ) (action : Action V)
  | evict (now maxAge : ℚ)
  | reload (e : Reload.Event)

section

variable [HeaderValue V] [Lowercase] (parse : Str → Except Str FullConfig)
  (parseUri : Str → Option Uri)

/-- One step of a request: what it does to the shared state, and how far it
comes. -/
def advance (s : System V) (x : Incoming V) : Progress V → Action V →
    Option (System V × Progress V)
  | .arrived, .rateLimit now =>
    let result := s.limiter.checkAndConsume now x.peer.ip
    some ({ s with buckets := result.1.buckets },
      if result.2 then .admitted now else .answered tooManyRequests)
  | .admitted checkedAt, .bodyLimit =>
    some (s, if (contentLength x.request).any (bodyLimit s.config < ·) then
        .answered payloadTooLarge
      else .limited checkedAt (limitRequest s.config x.request))
  | .limited checkedAt req, .route =>
    match prepare parseUri s.config x.peer req with
    | .error outcome => some (s, .answered outcome.response)
    | .ok routed =>
      some ({ s with calls := s.calls ++ [⟨x.peer.ip, checkedAt, routed⟩] },
        .calling checkedAt req routed)
  | .calling _ req routed, .complete result =>
    some (s, .answered (answer x.peer req routed (callUpstream routed.site result)).response)
  -- the future is dropped at one of its awaits
  | .calling .., .drop => some (s, .dropped)
  | .arrived, .drop => some (s, .dropped)
  | _, _ => none

def step (s : System V) : Event V → Option (System V)
  | .arrive peer req => some { s with exchanges := s.exchanges ++ [⟨⟨peer, req⟩, .arrived⟩] }
  | .act i action => do
    let x ← s.exchanges[i]?
    let r ← advance parseUri s x.incoming x.progress action
    return { r.1 with exchanges := r.1.exchanges.set i { x with progress := r.2 } }
  | .evict now maxAge => some { s with buckets := (s.limiter.evictStale now maxAge).buckets }
  | .reload e => (Reload.step parse s.reload e).map fun r => { s with reload := r }

/-! ### What a step does -/

/-- The steps of a request, one by one. -/
inductive Move (s : System V) (x : Incoming V) : Progress V → Action V → System V →
    Progress V → Prop
  | grant {now : ℚ} (h : (s.limiter.checkAndConsume now x.peer.ip).2 = true) :
    Move s x .arrived (.rateLimit now)
      { s with buckets := (s.limiter.checkAndConsume now x.peer.ip).1.buckets } (.admitted now)
  | deny {now : ℚ} (h : (s.limiter.checkAndConsume now x.peer.ip).2 = false) :
    Move s x .arrived (.rateLimit now)
      { s with buckets := (s.limiter.checkAndConsume now x.peer.ip).1.buckets }
      (.answered tooManyRequests)
  | tooLarge {checkedAt : ℚ}
    (h : (contentLength x.request).any (bodyLimit s.config < ·) = true) :
    Move s x (.admitted checkedAt) .bodyLimit s (.answered payloadTooLarge)
  | limit {checkedAt : ℚ}
    (h : (contentLength x.request).any (bodyLimit s.config < ·) = false) :
    Move s x (.admitted checkedAt) .bodyLimit s
      (.limited checkedAt (limitRequest s.config x.request))
  | reject {checkedAt : ℚ} {req : Request V Payload} {outcome : Outcome V Payload}
    (h : prepare parseUri s.config x.peer req = .error outcome) :
    Move s x (.limited checkedAt req) .route s (.answered outcome.response)
  | call {checkedAt : ℚ} {req : Request V Payload} {routed : Routed V Payload}
    (h : prepare parseUri s.config x.peer req = .ok routed) :
    Move s x (.limited checkedAt req) .route
      { s with calls := s.calls ++ [⟨x.peer.ip, checkedAt, routed⟩] }
      (.calling checkedAt req routed)
  | complete {checkedAt : ℚ} {req : Request V Payload} {routed : Routed V Payload}
    (result : Timed (Except ClientError (Response V Payload))) :
    Move s x (.calling checkedAt req routed) (.complete result) s
      (.answered (answer x.peer req routed (callUpstream routed.site result)).response)
  | drop {p : Progress V} : Move s x p .drop s .dropped

variable {parseUri}

theorem move_of_advance {s s' : System V} {x : Incoming V} {p p' : Progress V} {action : Action V}
    (h : advance parseUri s x p action = some (s', p')) : Move parseUri s x p action s' p' := by
  unfold advance at h
  split at h
  · next now =>
    obtain ⟨rfl, rfl⟩ := Prod.mk.inj (Option.some_inj.mp h)
    cases hgranted : (s.limiter.checkAndConsume now x.peer.ip).2 with
    | true => exact .grant hgranted
    | false => exact .deny hgranted
  · obtain ⟨rfl, rfl⟩ := Prod.mk.inj (Option.some_inj.mp h)
    cases htoo : (contentLength x.request).any (bodyLimit s.config < ·) with
    | true => exact .tooLarge htoo
    | false => exact .limit htoo
  · split at h
    · next outcome hprepare =>
      obtain ⟨rfl, rfl⟩ := Prod.mk.inj (Option.some_inj.mp h)
      exact .reject hprepare
    · next routed hprepare =>
      obtain ⟨rfl, rfl⟩ := Prod.mk.inj (Option.some_inj.mp h)
      exact .call hprepare
  · next result =>
    obtain ⟨rfl, rfl⟩ := Prod.mk.inj (Option.some_inj.mp h)
    exact .complete result
  · obtain ⟨rfl, rfl⟩ := Prod.mk.inj (Option.some_inj.mp h)
    exact .drop
  · obtain ⟨rfl, rfl⟩ := Prod.mk.inj (Option.some_inj.mp h)
    exact .drop
  · cases h

theorem exchanges_of_move {s s' : System V} {x : Incoming V} {p p' : Progress V}
    {action : Action V} (h : Move parseUri s x p action s' p') : s'.exchanges = s.exchanges := by
  cases h <;> rfl

variable {parse}

/-- A step of a request, seen from the system. -/
theorem step_act {s s' : System V} {i : ℕ} {action : Action V}
    (h : step parse parseUri s (.act i action) = some s') :
    ∃ x t p, s.exchanges[i]? = some x ∧ Move parseUri s x.incoming x.progress action t p ∧
      s' = { t with exchanges := s.exchanges.set i { x with progress := p } } := by
  obtain ⟨x, hx, h⟩ := Option.bind_eq_some_iff.mp h
  obtain ⟨⟨t, p⟩, hadvance, h⟩ := Option.bind_eq_some_iff.mp h
  have hmove := move_of_advance hadvance
  refine ⟨x, t, p, hx, hmove, ?_⟩
  rw [← exchanges_of_move hmove]
  exact (Option.some_inj.mp h).symm

/-! ### Each request for itself -/

variable (parseUri)

/-- One request through all layers, with what each of them finds. -/
def respond (limiter : RateLimiter) (now : ℚ) (limitConfig routeConfig : DynamicConfig)
    (result : Timed (Except ClientError (Response V Payload))) (peer : SocketAddr)
    (req : Request V Payload) : Response V (Body Payload) :=
  (rateLimitMiddleware limiter now (some peer)
    (bodyLimitMiddleware limitConfig fun req =>
      (proxyHandler parseUri ⟨fun _ => result, fun _ => result⟩ routeConfig peer req).response)
    req).response

/-- When nothing is reloaded this is the router. -/
theorem respond_self (s : System V) (now : ℚ)
    (result : Timed (Except ClientError (Response V Payload))) (peer : SocketAddr)
    (req : Request V Payload) :
    respond parseUri s.limiter now s.config s.config result peer req =
      (buildRouter parseUri ⟨fun _ => result, fun _ => result⟩ s.config s.limiter now peer
        req).response := rfl

variable {parseUri}

section layers

variable {limiter : RateLimiter} {now : ℚ} {limitConfig routeConfig : DynamicConfig}
  {result : Timed (Except ClientError (Response V Payload))} {peer : SocketAddr}
  {req : Request V Payload}

theorem respond_denied (h : (limiter.checkAndConsume now peer.ip).2 = false) :
    respond parseUri limiter now limitConfig routeConfig result peer req = tooManyRequests := by
  rw [respond, rateLimitMiddleware]
  simp only [h, Bool.false_eq_true, if_false]

theorem respond_tooLarge (h : (limiter.checkAndConsume now peer.ip).2 = true)
    (htoo : (contentLength req).any (bodyLimit limitConfig < ·) = true) :
    respond parseUri limiter now limitConfig routeConfig result peer req = payloadTooLarge := by
  rw [respond, rateLimitMiddleware]
  simp only [h, if_true, bodyLimitMiddleware, htoo]

theorem respond_handler (h : (limiter.checkAndConsume now peer.ip).2 = true)
    (hfits : (contentLength req).any (bodyLimit limitConfig < ·) = false) :
    respond parseUri limiter now limitConfig routeConfig result peer req =
      (proxyHandler parseUri ⟨fun _ => result, fun _ => result⟩ routeConfig peer
        (limitRequest limitConfig req)).response := by
  rw [respond, rateLimitMiddleware]
  simp only [h, if_true, bodyLimitMiddleware, hfits, Bool.false_eq_true, if_false]

end layers

/-! ### What has led to the state of a request -/

def Event.arrival : Event V → Option (Incoming V)
  | .arrive peer req => some ⟨peer, req⟩
  | _ => none

/-- The requests that arrived, in order. -/
def arrivals (es : List (Event V)) : List (Incoming V) := es.filterMap Event.arrival

theorem incoming_step {s s' : System V} {e : Event V} (hstep : step parse parseUri s e = some s') :
    s'.exchanges.map (·.incoming) = s.exchanges.map (·.incoming) ++ arrivals [e] := by
  cases e with
  | arrive peer req =>
    obtain rfl := Option.some_inj.mp hstep
    rw [List.map_append]
    rfl
  | act i action =>
    obtain ⟨x, t, p, hx, -, rfl⟩ := step_act hstep
    have hsame : (s.exchanges.set i { x with progress := p }).map (·.incoming)
        = s.exchanges.map (·.incoming) := map_set_of_eq hx rfl
    exact hsame.trans (List.append_nil _).symm
  | evict now maxAge =>
    obtain rfl := Option.some_inj.mp hstep
    exact (List.append_nil _).symm
  | reload e =>
    obtain ⟨r, -, rfl⟩ := Option.map_eq_some_iff.mp hstep
    exact (List.append_nil _).symm

theorem incoming_run {start s : System V} {es : List (Event V)} (hstart : start.exchanges = [])
    (hrun : run (step parse parseUri) start es = some s) :
    s.exchanges.map (·.incoming) = arrivals es := by
  refine run_history (I := fun es s => s.exchanges.map (·.incoming) = arrivals es) ?_ ?_ es hrun
  · rw [hstart]
    rfl
  · intro es s e s' _ h hstep
    rw [incoming_step hstep, h, arrivals, arrivals, ← List.filterMap_append]
    rfl

theorem arrivals_getElem? {start s : System V} {es : List (Event V)}
    (hstart : start.exchanges = []) (hrun : run (step parse parseUri) start es = some s) {i : ℕ}
    {x : Exchange V} (hx : s.exchanges[i]? = some x) : (arrivals es)[i]? = some x.incoming := by
  rw [← incoming_run hstart hrun, List.getElem?_map, hx]
  rfl

omit [HeaderValue V] [Lowercase] in
theorem arrivals_append_getElem? {es : List (Event V)} {i : ℕ} {x : Incoming V}
    (h : (arrivals es)[i]? = some x) (es' : List (Event V)) :
    (arrivals (es ++ es'))[i]? = some x := by
  rw [arrivals, List.filterMap_append]
  exact getElem?_append_of_some h _

section explained

variable (parse parseUri) (start : System V)

/-- The rate limit let request `i` through. -/
structure Admitted (es : List (Event V)) (i : ℕ) (x : Incoming V) (n : ℕ) (s : System V)
    (now : ℚ) : Prop extends
    Happens (step parse parseUri) start es n s (.act i (.rateLimit now)) where
  granted : (s.limiter.checkAndConsume now x.peer.ip).2 = true

/-- So did the body limit, with its own limit on the frames. -/
structure Limited (es : List (Event V)) (i : ℕ) (x : Incoming V) (n : ℕ) (s : System V)
    (req : Request V Payload) : Prop extends
    Happens (step parse parseUri) start es n s (.act i .bodyLimit) where
  fits : (contentLength x.request).any (bodyLimit s.config < ·) = false
  eq : req = limitRequest s.config x.request

/-- The handler found a site for it. -/
structure Called (es : List (Event V)) (i : ℕ) (x : Incoming V) (n : ℕ) (s : System V)
    (req : Request V Payload) (routed : Routed V Payload) : Prop extends
    Happens (step parse parseUri) start es n s (.act i .route) where
  eq : prepare parseUri s.config x.peer req = .ok routed

/-- The events of request `i` that have made a response what it is.  What lies
beyond the layer that answered does not matter. -/
inductive Answered (es : List (Event V)) (i : ℕ) (x : Incoming V)
    (response : Response V (Body Payload)) : Prop
  | denied {n : ℕ} {s : System V} {now : ℚ}
    (first : Happens (step parse parseUri) start es n s (.act i (.rateLimit now)))
    (eq : ∀ limitConfig routeConfig result, response =
      respond parseUri s.limiter now limitConfig routeConfig result x.peer x.request)
  | tooLarge {n₁ n₂ : ℕ} {s₁ s₂ : System V} {now : ℚ}
    (first : Happens (step parse parseUri) start es n₁ s₁ (.act i (.rateLimit now)))
    (second : Happens (step parse parseUri) start es n₂ s₂ (.act i .bodyLimit))
    (order : n₁ < n₂)
    (eq : ∀ routeConfig result, response =
      respond parseUri s₁.limiter now s₂.config routeConfig result x.peer x.request)
  | rejected {n₁ n₂ n₃ : ℕ} {s₁ s₂ s₃ : System V} {now : ℚ}
    (first : Happens (step parse parseUri) start es n₁ s₁ (.act i (.rateLimit now)))
    (second : Happens (step parse parseUri) start es n₂ s₂ (.act i .bodyLimit))
    (third : Happens (step parse parseUri) start es n₃ s₃ (.act i .route))
    (order : n₁ < n₂ ∧ n₂ < n₃)
    (eq : ∀ result, response =
      respond parseUri s₁.limiter now s₂.config s₃.config result x.peer x.request)
  | completed {n₁ n₂ n₃ n₄ : ℕ} {s₁ s₂ s₃ s₄ : System V} {now : ℚ}
    {result : Timed (Except ClientError (Response V Payload))}
    (first : Happens (step parse parseUri) start es n₁ s₁ (.act i (.rateLimit now)))
    (second : Happens (step parse parseUri) start es n₂ s₂ (.act i .bodyLimit))
    (third : Happens (step parse parseUri) start es n₃ s₃ (.act i .route))
    (fourth : Happens (step parse parseUri) start es n₄ s₄ (.act i (.complete result)))
    (order : n₁ < n₂ ∧ n₂ < n₃ ∧ n₃ < n₄)
    (eq : response =
      respond parseUri s₁.limiter now s₂.config s₃.config result x.peer x.request)

/-- What has led to the state of a request. -/
def Explained (es : List (Event V)) (i : ℕ) (x : Incoming V) : Progress V → Prop
  | .arrived => True
  | .admitted now => ∃ n s, Admitted parse parseUri start es i x n s now
  | .limited now req => ∃ n₁ n₂ s₁ s₂, n₁ < n₂ ∧
    Admitted parse parseUri start es i x n₁ s₁ now ∧ Limited parse parseUri start es i x n₂ s₂ req
  | .calling now req routed => ∃ n₁ n₂ n₃ s₁ s₂ s₃, n₁ < n₂ ∧ n₂ < n₃ ∧
    Admitted parse parseUri start es i x n₁ s₁ now ∧
    Limited parse parseUri start es i x n₂ s₂ req ∧
    Called parse parseUri start es i x n₃ s₃ req routed
  | .answered response => Answered parse parseUri start es i x response
  | .dropped => True

variable {parse parseUri start} {es : List (Event V)} {i : ℕ} {x : Incoming V} {s : System V}

theorem Admitted.append {n : ℕ} {now : ℚ} (h : Admitted parse parseUri start es i x n s now)
    (es' : List (Event V)) : Admitted parse parseUri start (es ++ es') i x n s now :=
  ⟨h.toHappens.append es', h.granted⟩

theorem Limited.append {n : ℕ} {req : Request V Payload}
    (h : Limited parse parseUri start es i x n s req) (es' : List (Event V)) :
    Limited parse parseUri start (es ++ es') i x n s req :=
  ⟨h.toHappens.append es', h.fits, h.eq⟩

theorem Called.append {n : ℕ} {req : Request V Payload} {routed : Routed V Payload}
    (h : Called parse parseUri start es i x n s req routed) (es' : List (Event V)) :
    Called parse parseUri start (es ++ es') i x n s req routed :=
  ⟨h.toHappens.append es', h.eq⟩

theorem Answered.append {response : Response V (Body Payload)}
    (h : Answered parse parseUri start es i x response) (es' : List (Event V)) :
    Answered parse parseUri start (es ++ es') i x response := by
  cases h with
  | denied first eq => exact .denied (first.append es') eq
  | tooLarge first second order eq =>
    exact .tooLarge (first.append es') (second.append es') order eq
  | rejected first second third order eq =>
    exact .rejected (first.append es') (second.append es') (third.append es') order eq
  | completed first second third fourth order eq =>
    exact .completed (first.append es') (second.append es') (third.append es')
      (fourth.append es') order eq

theorem Explained.append {p : Progress V} (h : Explained parse parseUri start es i x p)
    (es' : List (Event V)) : Explained parse parseUri start (es ++ es') i x p := by
  cases p with
  | arrived => trivial
  | admitted now =>
    obtain ⟨n, s, hadmitted⟩ := h
    exact ⟨n, s, hadmitted.append es'⟩
  | limited now req =>
    obtain ⟨n₁, n₂, s₁, s₂, h₁₂, hadmitted, hlimited⟩ := h
    exact ⟨n₁, n₂, s₁, s₂, h₁₂, hadmitted.append es', hlimited.append es'⟩
  | calling now req routed =>
    obtain ⟨n₁, n₂, n₃, s₁, s₂, s₃, h₁₂, h₂₃, hadmitted, hlimited, hcalled⟩ := h
    exact ⟨n₁, n₂, n₃, s₁, s₂, s₃, h₁₂, h₂₃, hadmitted.append es', hlimited.append es',
      hcalled.append es'⟩
  | answered response => exact Answered.append h es'
  | dropped => trivial

/-- The step of a request adds its own event to those that were before. -/
theorem explained_move {t : System V} {p q : Progress V} {action : Action V}
    (hrun : run (step parse parseUri) start es = some s)
    (h : Explained parse parseUri start es i x p) (hmove : Move parseUri s x p action t q) :
    Explained parse parseUri start (es ++ [.act i action]) i x q := by
  -- the events of the earlier layers are in `h`, that of this layer is the last one
  have hnow := happens_last hrun (.act i action)
  cases hmove with
  | grant hgranted => exact ⟨es.length, s, hnow, hgranted⟩
  | deny hdenied => exact .denied hnow fun _ _ _ => (respond_denied hdenied).symm
  | tooLarge htoo =>
    obtain ⟨n₁, s₁, hadmitted⟩ := h
    exact .tooLarge (hadmitted.toHappens.append _) hnow hadmitted.toHappens.lt fun _ _ =>
      (respond_tooLarge hadmitted.granted htoo).symm
  | limit hfits =>
    obtain ⟨n₁, s₁, hadmitted⟩ := h
    exact ⟨n₁, es.length, s₁, s, hadmitted.toHappens.lt, hadmitted.append _, hnow, hfits, rfl⟩
  | reject hprepare =>
    obtain ⟨n₁, n₂, s₁, s₂, h₁₂, hadmitted, hlimited⟩ := h
    refine .rejected (hadmitted.toHappens.append _) (hlimited.toHappens.append _) hnow
      ⟨h₁₂, hlimited.toHappens.lt⟩ fun result => ?_
    rw [respond_handler hadmitted.granted hlimited.fits, ← hlimited.eq, proxyHandler, hprepare]
  | call hprepare =>
    obtain ⟨n₁, n₂, s₁, s₂, h₁₂, hadmitted, hlimited⟩ := h
    exact ⟨n₁, n₂, es.length, s₁, s₂, s, h₁₂, hlimited.toHappens.lt, hadmitted.append _,
      hlimited.append _, hnow, hprepare⟩
  | complete result =>
    obtain ⟨n₁, n₂, n₃, s₁, s₂, s₃, h₁₂, h₂₃, hadmitted, hlimited, hcalled⟩ := h
    refine .completed (hadmitted.toHappens.append _) (hlimited.toHappens.append _)
      (hcalled.toHappens.append _) hnow ⟨h₁₂, h₂₃, hcalled.toHappens.lt⟩ ?_
    rw [respond_handler hadmitted.granted hlimited.fits, ← hlimited.eq, proxyHandler, hcalled.eq]
    dsimp only
    rw [Clients.request, ite_self]
  | drop => trivial

theorem explained_step {s' : System V} {e : Event V}
    (hrun : run (step parse parseUri) start es = some s)
    (h : ∀ i x, s.exchanges[i]? = some x →
      Explained parse parseUri start es i x.incoming x.progress)
    (hstep : step parse parseUri s e = some s') :
    ∀ i x, s'.exchanges[i]? = some x →
      Explained parse parseUri start (es ++ [e]) i x.incoming x.progress := by
  intro j y hy
  cases e with
  | arrive peer req =>
    obtain rfl := Option.some_inj.mp hstep
    rcases getElem?_concat_cases hy with hold | rfl
    · exact (h j y hold).append _
    · trivial
  | act i action =>
    obtain ⟨x, t, p, hx, hmove, rfl⟩ := step_act hstep
    rcases getElem?_set_cases hy with ⟨-, hold⟩ | ⟨rfl, rfl⟩
    · exact (h j y hold).append _
    · exact explained_move hrun (h j x hx) hmove
  | evict now maxAge =>
    obtain rfl := Option.some_inj.mp hstep
    exact (h j y hy).append _
  | reload e =>
    obtain ⟨r, -, rfl⟩ := Option.map_eq_some_iff.mp hstep
    exact (h j y hy).append _

theorem explained_run (hstart : start.exchanges = [])
    (hrun : run (step parse parseUri) start es = some s) :
    ∀ i x, s.exchanges[i]? = some x →
      Explained parse parseUri start es i x.incoming x.progress := by
  refine run_history (I := fun es s => ∀ i x, s.exchanges[i]? = some x →
    Explained parse parseUri start es i x.incoming x.progress) ?_ explained_step es hrun
  intro i x hi
  rw [hstart] at hi
  cases hi

end explained

/-! ### Where the configurations come from -/

/-- What the reloads have done in the run. -/
def ReloadTaken (es : List (Event V)) (i : ℕ) (action : Reload.Action) : Prop :=
  .reload (.task i action) ∈ es

variable (parse) in
/-- The dynamic half of a version of the file, accepted at startup if it is the
first, or by an attempt of the run: valid when the attempt had read it, and when
it was about to store it. -/
def FromFile (env : Reload.Env) (es : List (Event V)) (core : Reload.Core)
    (config : DynamicConfig) : Prop :=
  ∃ origin a, Confirmed parse env (ReloadTaken es) core origin a ∧ config = a.newDynamic

theorem reload_of_move {s s' : System V} {x : Incoming V} {p p' : Progress V} {action : Action V}
    (h : Move parseUri s x p action s' p') : s'.reload = s.reload := by
  cases h <;> rfl

/-- A step leaves the reloads alone or is one of theirs. -/
theorem reload_step {s s' : System V} {e : Event V} (hstep : step parse parseUri s e = some s') :
    s'.reload = s.reload ∨
      ∃ e', e = .reload e' ∧ Reload.step parse s.reload e' = some s'.reload := by
  cases e with
  | arrive peer req =>
    obtain rfl := Option.some_inj.mp hstep
    exact Or.inl rfl
  | act i action =>
    obtain ⟨x, t, p, -, hmove, rfl⟩ := step_act hstep
    exact Or.inl (show t.reload = s.reload from reload_of_move hmove)
  | evict now maxAge =>
    obtain rfl := Option.some_inj.mp hstep
    exact Or.inl rfl
  | reload e =>
    obtain ⟨r, hr, rfl⟩ := Option.map_eq_some_iff.mp hstep
    exact Or.inr ⟨e, rfl, hr⟩

theorem reload_inv {env : Reload.Env} {es : List (Event V)} {s s' : System V} {e : Event V}
    (h : Reload.Inv parse env (ReloadTaken es) s.reload.core s.reload.phases) (he : e ∈ es)
    (hstep : step parse parseUri s e = some s') :
    Reload.Inv parse env (ReloadTaken es) s'.reload.core s'.reload.phases := by
  rcases reload_step hstep with hsame | ⟨e', rfl, he'⟩
  · rw [hsame]
    exact h
  · refine Reload.step_inv h ?_ he'
    rintro i action rfl
    exact he

/-- What is active is a configuration of the file. -/
theorem fromFile_config {env : Reload.Env} {cli : Bool} {file : FileVersion}
    {loaded : LoadedConfig} (hload : loadConfig parse env cli file.content = .ok loaded)
    {es : List (Event V)} {s : System V}
    (hrun : run (step parse parseUri) (System.start V file loaded) es = some s) :
    FromFile parse env es s.reload.core s.config := by
  have hinv : Reload.Inv parse env (ReloadTaken es) s.reload.core s.reload.phases :=
    run_induction_events (I := fun s : System V =>
      Reload.Inv parse env (ReloadTaken es) s.reload.core s.reload.phases) reload_inv
      (fun _ he => he) (Reload.start_inv (ReloadTaken es) hload) hrun
  obtain ⟨origin, a, ha, -, hconfig⟩ := hinv.active
  exact ⟨origin, a, ha, hconfig⟩

variable (parse parseUri) in
/-- **Each request for itself.**  However many requests are served at a time, and
whatever is reloaded in between, a response is what the layers make of the
request that arrived, alone: each layer that it came to in an event of its own
goes by the buckets or the configuration of that moment, and the result is that
of its own call.  At every moment the configuration is that of a version of the
file that passed `validate`, in the environments that startup or an attempt of
the run so far asked. -/
theorem answered_alone (env : Reload.Env) (cli : Bool) (file : FileVersion)
    (loaded : LoadedConfig) (hload : loadConfig parse env cli file.content = .ok loaded)
    (es : List (Event V)) (s : System V)
    (hrun : run (step parse parseUri) (System.start V file loaded) es = some s) (i : ℕ)
    (x : Incoming V) (response : Response V (Body Payload))
    (hx : s.exchanges[i]? = some ⟨x, .answered response⟩) :
    (arrivals es)[i]? = some x ∧
    Answered parse parseUri (System.start V file loaded) es i x response ∧
    ∀ n t, At (step parse parseUri) (System.start V file loaded) es n t →
      FromFile parse env (es.take n) t.reload.core t.config :=
  ⟨arrivals_getElem? rfl hrun hx, explained_run rfl hrun i _ hx,
    fun _ _ hat => fromFile_config hload hat.2⟩

end

def sampleIncoming : Incoming Str where
  peer := samplePeer
  request :=
    { method := "POST".toList
      uri := { authority := none, path := "/".toList, query := none }
      headers := [(hostName, "example.com".toList)]
      body := ⟨[[1, 2, 3]], false⟩ }

/-- The file is replaced and reloaded between the two limits and the handler. -/
def reloadBetween (env : Reload.Env) : List (Event Str) :=
  ([.arrive sampleIncoming.peer sampleIncoming.request, .act 0 (.rateLimit 0), .act 0 .bodyLimit,
    .reload (.replaceFile ⟨['#'], none⟩), .reload (.request 0)] : List (Event Str)) ++
  (Reload.successfulActions env).map (fun action => Event.reload (.task 0 action)) ++
  [.act 0 .route,
    .act 0 (.complete ⟨1, .ok { status := 200, headers := [], body := ⟨[], false⟩ }⟩)]

def Progress.status : Progress V → Option ℕ
  | .answered response => some response.status
  | _ => none

theorem Progress.eq_answered {p : Progress V} {status : ℕ} (h : p.status = some status) :
    ∃ response, p = .answered response ∧ response.status = status := by
  cases p with
  | answered response => exact ⟨response, rfl, Option.some_inj.mp h⟩
  | _ => cases h

def anyUri : Str → Option Uri := fun _ => some ⟨none, [], none⟩

theorem answered_alone_reloaded : letI := asciiLowercase; letI := textHeaderValue
    ∃ s x response, run (step Reload.parseSamples anyUri)
        (System.start Str ⟨[], none⟩ Reload.sampleLoaded) (reloadBetween Reload.quietEnv)
          = some s ∧
      s.exchanges[0]? = some ⟨x, .answered response⟩ ∧ response.status = 200 ∧
      Answered Reload.parseSamples anyUri (System.start Str ⟨[], none⟩ Reload.sampleLoaded)
        (reloadBetween Reload.quietEnv) 0 x response := by
  let _ := asciiLowercase
  let _ := textHeaderValue
  have hend : ((run (step Reload.parseSamples anyUri)
      (System.start Str ⟨[], none⟩ Reload.sampleLoaded) (reloadBetween Reload.quietEnv)).bind
        fun s => (s.exchanges[0]?).bind (·.progress.status)) = some 200 := by decide +kernel
  obtain ⟨s, hrun, hx⟩ := Option.bind_eq_some_iff.mp hend
  obtain ⟨x, hx, hstatus⟩ := Option.bind_eq_some_iff.mp hx
  obtain ⟨response, hresponse, hstatus⟩ := Progress.eq_answered hstatus
  have hx' : s.exchanges[0]? = some ⟨x.incoming, .answered response⟩ := hresponse ▸ hx
  have hload : loadConfig Reload.parseSamples Reload.quietEnv false [] = .ok Reload.sampleLoaded :=
    Reload.loadConfig_sample rfl
  obtain ⟨-, hanswered, -⟩ := answered_alone Reload.parseSamples anyUri Reload.quietEnv false
    ⟨[], none⟩ Reload.sampleLoaded hload (reloadBetween Reload.quietEnv) s hrun 0 x.incoming
    response hx'
  exact ⟨s, x.incoming, response, hrun, hx', hstatus, hanswered⟩

end Serving
