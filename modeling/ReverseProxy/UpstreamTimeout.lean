/-
The two timeouts of an upstream call.

The configuration gives every site a connect timeout and a request timeout.
The handler runs the whole exchange under both of them.

* `callUpstream_value`, `proxyHandler_response` — what the client gets from an
  upstream that accepts the connection and answers later;
* `answer_timeout_iff` — when this is what the two timeouts mean;
* `answer_timeout_slow_response` — an upstream that connects in time and is cut
  off.
-/
import ReverseProxy.ForwardedHost

open Text NetAddr Config Http

namespace Handler

variable {V β : Type} [HeaderValue V]

/-! ### The exchange with an upstream -/

def connectTimeoutCeilingSecs : ℚ := 30

/-- An upstream that accepts the connection, within the connector's ceiling,
and answers later. -/
structure Exchange (V β : Type) where
  connectedAt : ℚ
  respondedAt : ℚ
  response : Response V β
  connected_lt : connectedAt < connectTimeoutCeilingSecs
  connected_le : connectedAt ≤ respondedAt

/-- `client.request` completes when the response head is there. -/
def Exchange.request (e : Exchange V β) : Timed (Except ClientError (Response V β)) :=
  ⟨e.respondedAt, .ok e.response⟩

def connectTimeout (site : SiteConfig) : ℚ := site.upstreamConnectTimeoutSecs.toNat

def requestTimeout (site : SiteConfig) : ℚ := site.upstreamRequestTimeoutSecs.toNat

theorem callUpstream_value {α : Type} (site : SiteConfig) (f : Timed α) :
    (callUpstream site f).value =
      if f.completesAt ≤ connectTimeout site then
        if f.completesAt ≤ requestTimeout site then some (some f.value) else none
      else if connectTimeout site ≤ requestTimeout site then some none else none := by
  rw [callUpstream, timeout_value, timeout_completesAt, timeout_value]
  show (if min f.completesAt (connectTimeout site) ≤ requestTimeout site then
    some (if f.completesAt ≤ connectTimeout site then some f.value else none) else none) = _
  by_cases hc : f.completesAt ≤ connectTimeout site
  · rw [min_eq_left hc, if_pos hc, if_pos hc]
  · rw [min_eq_right (not_le.mp hc).le, if_neg hc, if_neg hc]

/-- Either timeout, when it runs out first, ends in the same response. -/
theorem proxyHandler_response [Lowercase] {parseUri : Str → Option Uri} {clients : Clients V β}
    {config : DynamicConfig} {remoteAddr : SocketAddr} {req : Request V β} {routed : Routed V β}
    (h : prepare parseUri config remoteAddr req = .ok routed) {e : Exchange V β}
    (hclient : clients.request routed.site routed.request = e.request) :
    (proxyHandler parseUri clients config remoteAddr req).response =
      if e.respondedAt ≤ connectTimeout routed.site ∧ e.respondedAt ≤ requestTimeout routed.site
      then forwardResponse e.response else ProxyError.upstreamTimeout.intoResponse := by
  simp only [proxyHandler, h, hclient, answer, callUpstream_value]
  rw [show e.request.completesAt = e.respondedAt from rfl,
    show e.request.value = .ok e.response from rfl]
  by_cases hc : e.respondedAt ≤ connectTimeout routed.site
  · by_cases hr : e.respondedAt ≤ requestTimeout routed.site
    · rw [if_pos hc, if_pos hr, if_pos ⟨hc, hr⟩]
    · rw [if_pos hc, if_neg hr, if_neg fun hboth => hr hboth.2]
  · have hboth : ¬ (e.respondedAt ≤ connectTimeout routed.site ∧
        e.respondedAt ≤ requestTimeout routed.site) := fun hboth => hc hboth.1
    rw [if_neg hc, if_neg hboth]
    by_cases hcr : connectTimeout routed.site ≤ requestTimeout routed.site
    · rw [if_pos hcr]
    · rw [if_neg hcr]

theorem forwardResponse_ne (resp : Response V β) (e : ProxyError) :
    forwardResponse resp ≠ (e.intoResponse : Response V (Body β)) := by
  intro h
  have hbody : (Body.upstream resp.body : Body β) = .text e.body := congrArg Response.body h
  cases hbody

/-- A gateway timeout exactly when the connection takes longer than the
connect timeout or the response longer than the request timeout, and the
upstream's response otherwise. -/
def TimesOutAsConfigured (site : SiteConfig) (e : Exchange V β) (response : Response V (Body β)) :
    Prop :=
  (response = ProxyError.upstreamTimeout.intoResponse ↔
    connectTimeout site < e.connectedAt ∨ requestTimeout site < e.respondedAt) ∧
  (¬ (connectTimeout site < e.connectedAt ∨ requestTimeout site < e.respondedAt) →
    response = forwardResponse e.response)

/-- **Upstream timeouts.**  The configured meaning fails exactly for upstreams
that connect in time and answer within the request timeout, but not within the
connect timeout. -/
theorem answer_timeout_iff [Lowercase] (parseUri : Str → Option Uri) (clients : Clients V β)
    (config : DynamicConfig) (remoteAddr : SocketAddr) (req : Request V β) (routed : Routed V β)
    (h : prepare parseUri config remoteAddr req = .ok routed) (e : Exchange V β)
    (hclient : clients.request routed.site routed.request = e.request) :
    TimesOutAsConfigured routed.site e
        (proxyHandler parseUri clients config remoteAddr req).response ↔
      ¬ (e.connectedAt ≤ connectTimeout routed.site ∧
        connectTimeout routed.site < e.respondedAt ∧
        e.respondedAt ≤ requestTimeout routed.site) := by
  rw [proxyHandler_response h hclient]
  set c := connectTimeout routed.site with hc
  set r := requestTimeout routed.site with hr
  have hle := e.connected_le
  by_cases hin : e.respondedAt ≤ c ∧ e.respondedAt ≤ r
  · -- in time for both timeouts, and the connection with it
    rw [if_pos hin, TimesOutAsConfigured, ← hc, ← hr]
    have hno : ¬ (c < e.connectedAt ∨ r < e.respondedAt) := by
      rintro (hlt | hlt)
      · linarith [hin.1]
      · linarith [hin.2]
    have hok : ¬ (e.connectedAt ≤ c ∧ c < e.respondedAt ∧ e.respondedAt ≤ r) :=
      fun hbad => absurd hbad.2.1 (not_lt.mpr hin.1)
    exact iff_of_true
      ⟨iff_of_false (forwardResponse_ne _ _) hno, fun _ => rfl⟩ hok
  · -- a gateway timeout, which is right unless only the connect timeout was missed
    rw [if_neg hin, TimesOutAsConfigured, ← hc, ← hr]
    have hlate : (c < e.connectedAt ∨ r < e.respondedAt) ↔
        ¬ (e.connectedAt ≤ c ∧ c < e.respondedAt ∧ e.respondedAt ≤ r) := by
      rw [not_and_or, not_le] at hin
      constructor
      · rintro (hlt | hlt) ⟨hx, -, hy⟩
        · exact absurd hx (not_le.mpr hlt)
        · exact absurd hy (not_le.mpr hlt)
      · intro hbad
        by_contra hno
        rw [not_or, not_lt, not_lt] at hno
        exact hbad ⟨hno.1, hin.resolve_right (not_not.mpr hno.2), hno.2⟩
    rw [← hlate]
    constructor
    · exact fun htimes => htimes.1.mp rfl
    · exact fun hlt => ⟨iff_of_true rfl hlt, fun hno => absurd hlt hno⟩

/-! ### Fast and slow responses -/

/-- An upstream that connects after one second and answers after `y`. -/
def exchangeAt (y : ℚ) (hy : 1 ≤ y) : Exchange Str Unit where
  connectedAt := 1
  respondedAt := y
  response := { status := 200, headers := [], body := () }
  connected_lt := by norm_num [connectTimeoutCeilingSecs]
  connected_le := hy

def clientsAt (y : ℚ) (hy : 1 ≤ y) : Clients Str Unit where
  http := fun _ => (exchangeAt y hy).request
  https := fun _ => (exchangeAt y hy).request

theorem answer_timeout_iff_fast : letI := asciiLowercase; letI := textHeaderValue
    ∃ routed, prepare (fun _ => some ⟨none, [], none⟩) twoSites samplePeer
        (requestWithHost "a.com".toList) = .ok routed ∧
      TimesOutAsConfigured routed.site (exchangeAt 2 (by norm_num))
        (proxyHandler (fun _ => some ⟨none, [], none⟩) (clientsAt 2 (by norm_num)) twoSites
          samplePeer (requestWithHost "a.com".toList)).response := by
  let _ := asciiLowercase
  let _ := textHeaderValue
  obtain ⟨routed, hrouted, hsite⟩ : ∃ routed, prepare (fun _ => some ⟨none, [], none⟩) twoSites
      samplePeer (requestWithHost "a.com".toList) = .ok routed ∧
      routed.site = siteOf "a.com".toList "10.0.0.1:80".toList := ⟨_, rfl, rfl⟩
  have hc : connectTimeout routed.site = 5 := by
    rw [hsite, connectTimeout]
    exact Nat.cast_ofNat
  refine ⟨routed, hrouted, (answer_timeout_iff _ (clientsAt 2 (by norm_num)) _ _ _ routed hrouted
    (exchangeAt 2 (by norm_num)) ?_).mpr ?_⟩
  · rw [Clients.request]
    split <;> rfl
  · rintro ⟨-, hlt, -⟩
    rw [hc] at hlt
    exact absurd hlt (by norm_num [exchangeAt])

/-- With the default timeouts, an upstream that connects after one second and
answers after ten gets the client a 504. -/
theorem answer_timeout_slow_response : letI := asciiLowercase; letI := textHeaderValue
    ∃ routed, prepare (fun _ => some ⟨none, [], none⟩) twoSites samplePeer
        (requestWithHost "a.com".toList) = .ok routed ∧
      ¬ TimesOutAsConfigured routed.site (exchangeAt 10 (by norm_num))
        (proxyHandler (fun _ => some ⟨none, [], none⟩) (clientsAt 10 (by norm_num)) twoSites
          samplePeer (requestWithHost "a.com".toList)).response := by
  refine ⟨_, rfl, fun htimes => ?_⟩
  have hno : ¬ ((5 : ℚ) < 1 ∨ (60 : ℚ) < 10) := by norm_num
  exact absurd (htimes.1.mp rfl) hno

end Handler
