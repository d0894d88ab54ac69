/-
The Host value that the backend is told.

A request is routed by its Host header, or else by the authority of its URI;
it is forwarded with the authority, or else with the Host header.

* `getAll_host_buildUpstreamRequest`, `forwarded_host` — the forwarded request
  has one Host value, that of the URI's authority when there is one;
* `forwarded_host_iff` — when it leads back to the site that the request was
  routed to;
* `forwarded_host_mismatch` — a request that is forwarded with the host of
  another site.
-/
import ReverseProxy.Handler

open Text NetAddr Config Http

namespace Handler

variable {V β : Type} [HeaderValue V]

/-! ### The headers of the upstream request -/

/-- The other rewriting steps do not touch the Host values. -/
theorem getAll_host_rewritten (remoteAddr : SocketAddr) (headers : HeaderMap V) :
    Multimap.getAll hostName (removeHopByHop (injectProxyHeaders remoteAddr headers))
      = Multimap.getAll hostName headers := by
  rw [removeHopByHop, Multimap.getAll_foldl_remove, if_neg (by decide), injectProxyHeaders,
    Multimap.getAll_insert, if_neg (by decide), Multimap.getAll_insert, if_neg (by decide),
    Multimap.getAll_insert, if_neg (by decide)]

/-- Once it has a Host value, if any, the upstream request can be built: the
Host value is exchanged and all other headers are copied. -/
theorem buildUpstreamRequest_of_hostHeader {req : Request V β} {host : Option V}
    (hhost : hostHeader req = .ok host) (uri : Uri) :
    ∃ out, buildUpstreamRequest req uri = .ok out ∧ out.method = req.method ∧ out.uri = uri ∧
      out.body = req.body ∧ ∀ name, Multimap.getAll name out.headers
        = if hostName = name then host.toList else Multimap.getAll name req.headers := by
  rw [buildUpstreamRequest, hhost]
  refine ⟨_, rfl, rfl, rfl, rfl, fun name => ?_⟩
  simp only [Multimap.foldl_append_eq]
  -- all Host values have been removed before one is put back
  cases host with
  | none => rw [Multimap.getAll_remove, Option.toList_none]
  | some v =>
    rw [Multimap.getAll_append, Multimap.getAll_remove, Option.toList_some]
    by_cases hname : hostName = name
    · simp only [if_pos hname, List.nil_append]
    · simp only [if_neg hname]

theorem hostHeader_of_buildUpstreamRequest {req out : Request V β} {uri : Uri}
    (h : buildUpstreamRequest req uri = .ok out) : ∃ host, hostHeader req = .ok host := by
  rcases hhost : hostHeader req with e | host
  · rw [buildUpstreamRequest, hhost] at h
    exact absurd h (by simp [Bind.bind, Except.bind])
  · exact ⟨host, rfl⟩

theorem getAll_host_buildUpstreamRequest {req out : Request V β} {uri : Uri}
    (h : buildUpstreamRequest req uri = .ok out) :
    ∃ host, hostHeader req = .ok host ∧ Multimap.getAll hostName out.headers = host.toList := by
  obtain ⟨host, hhost⟩ := hostHeader_of_buildUpstreamRequest h
  obtain ⟨out', hout', -, -, -, hall⟩ := buildUpstreamRequest_of_hostHeader hhost uri
  obtain rfl : out = out' := Except.ok.inj (h.symm.trans hout')
  exact ⟨host, hhost, by rw [hall hostName, if_pos rfl]⟩

theorem isVisible_of_hostText {req : Request V β} {host : Str} (h : hostText req = some host) :
    IsVisibleAscii host := by
  obtain ⟨v, -, hv⟩ := Option.bind_eq_some_iff.mp h
  exact HeaderValue.isVisible_of_toStr hv

theorem isVisible_authorityText (a : Authority) : IsVisibleAscii (authorityText a) := by
  rw [authorityText]
  split
  · intro c hc
    rcases List.mem_append.mp hc with hc | hc
    · exact a.isVisible c hc
    · rcases List.mem_cons.mp hc with rfl | hc
      · exact Or.inl (by decide)
      · have hdigit := Nat.isDigit_of_mem_toDigits (by decide) (by decide) hc
        simp only [Char.isDigit, Bool.and_eq_true, decide_eq_true_eq] at hdigit
        obtain ⟨hlo, hhi⟩ := hdigit
        have hlo' : 48 ≤ c.toNat := UInt32.le_iff_toNat_le.mp hlo
        have hhi' : c.toNat ≤ 57 := UInt32.le_iff_toNat_le.mp hhi
        exact Or.inl (by omega)
  · exact a.isVisible

theorem stripPortFromHost_authorityText (a : Authority) :
    stripPortFromHost (authorityText a) = stripPortFromHost a.host := by
  rw [authorityText]
  split
  · next port _ =>
    rcases a.form with ⟨hfirst, hcolon⟩ | ⟨inner, hinner, hclose⟩
    · have hfirst' : (a.host ++ ':' :: decimal port.toNat).head? ≠ some '[' := by
        rcases hhost : a.host with _ | ⟨c, rest⟩
        · simp
        · simpa [hhost] using hfirst
      rw [stripPortFromHost_port hfirst' (not_mem_decimal (by decide) _),
        stripPortFromHost_noPort hfirst hcolon]
    · rw [hinner, List.append_assoc, List.singleton_append, stripPortFromHost_bracket hclose,
        stripPortFromHost_bracket hclose]
  · rfl

/-! ### The forwarded Host and the site -/

section routing

variable [Lowercase]

theorem lookup_authorityText (config : DynamicConfig) (a : Authority) :
    config.lookup (authorityText a) = config.lookup a.host := by
  rw [DynamicConfig.lookup, DynamicConfig.lookup, normalizeHost, normalizeHost,
    stripPortFromHost_authorityText]

/-- The forwarded Host value: there is one, and as text it is the authority
when there is one and the client's Host header otherwise. -/
theorem forwarded_host {parseUri : Str → Option Uri} {config : DynamicConfig}
    {remoteAddr : SocketAddr} {req : Request V β} {routed : Routed V β}
    (h : prepare parseUri config remoteAddr req = .ok routed) :
    ∃ v, Multimap.getAll hostName routed.request.headers = [v] ∧
      HeaderValue.toStr v = match req.uri.authority with
        | some a => some (authorityText a)
        | none => hostText req := by
  obtain ⟨hne, -, uri, hbuild⟩ := prepare_eq_ok h
  obtain ⟨host, hhost, hall⟩ := getAll_host_buildUpstreamRequest hbuild
  rw [hall]
  simp only [hostHeader] at hhost
  rcases hauth : req.uri.authority with _ | a
  · rw [hauth] at hhost
    rw [← Except.ok.inj hhost, Multimap.get, getAll_host_rewritten]
    -- without an authority the host that was picked can only be the header's
    rcases hget : Multimap.get hostName req.headers with _ | v
    · exact absurd (show pickHost req = [] by simp [pickHost, hostText, hget, Uri.host, hauth]) hne
    · refine ⟨v, ?_, by simp [hostText, hget]⟩
      rw [Multimap.get] at hget
      rw [hget, Option.toList_some]
  · rw [hauth] at hhost
    obtain ⟨v, hv, hstr⟩ := HeaderValue.toStr_fromStr (V := V) (isVisible_authorityText a)
    simp only [hv] at hhost
    rw [← Except.ok.inj hhost]
    exact ⟨v, rfl, hstr⟩

/-- The forwarded request has one Host value, and it routes to the site the
request goes to. -/
def HostLeadsBack (config : DynamicConfig) (routed : Routed V β) : Prop :=
  ∃ v, Multimap.getAll hostName routed.request.headers = [v] ∧
    (HeaderValue.toStr v).bind config.lookup = some routed.site

/-- The authority and the Host header of a request, when both are there and
the header is text, agree under `f`. -/
def HostsAgree {γ : Type} (f : Str → γ) (req : Request V β) : Prop :=
  ∀ a host, req.uri.authority = some a → hostText req = some host → f a.host = f host

theorem hostLeadsBack_iff {parseUri : Str → Option Uri} {config : DynamicConfig}
    {remoteAddr : SocketAddr} {req : Request V β} {routed : Routed V β}
    (h : prepare parseUri config remoteAddr req = .ok routed) :
    HostLeadsBack config routed ↔ HostsAgree config.lookup req := by
  obtain ⟨-, hsite, -⟩ := prepare_eq_ok h
  obtain ⟨v, hall, hstr⟩ := forwarded_host h
  have hback : HostLeadsBack config routed ↔
      (HeaderValue.toStr v).bind config.lookup = some routed.site := by
    constructor
    · rintro ⟨w, hw, hlookup⟩
      rw [hall, List.singleton_inj] at hw
      exact hw ▸ hlookup
    · exact fun hlookup => ⟨v, hall, hlookup⟩
  rw [hback, hstr]
  rcases hauth : req.uri.authority with _ | a
  · -- the header decides both
    have hhost : hostText req = some (pickHost req) := by
      rcases hhost : hostText req with _ | host
      · exact absurd (by simp [pickHost, hhost, Uri.host, hauth]) (prepare_eq_ok h).1
      · simp [pickHost, hhost]
    simp [hhost, hsite, HostsAgree, hauth]
  · simp only [Option.bind_some, lookup_authorityText]
    rcases hhost : hostText req with _ | host
    · have hpick : pickHost req = a.host := by simp [pickHost, hhost, Uri.host, hauth]
      rw [← hpick, hsite]
      simp [HostsAgree, hhost]
    · have hpick : pickHost req = host := by simp [pickHost, hhost]
      rw [← hsite, hpick]
      simp [HostsAgree, hauth, hhost]

/-- **The forwarded Host.**  It leads back to the site exactly when the
authority and the Host header, if the request has both, route alike; over the
table of the configured sites this means that they normalise alike. -/
theorem forwarded_host_iff (parseUri : Str → Option Uri) (config : DynamicConfig)
    (remoteAddr : SocketAddr) (req : Request V β) (routed : Routed V β)
    (h : prepare parseUri config remoteAddr req = .ok routed) :
    (HostLeadsBack config routed ↔ HostsAgree config.lookup req) ∧
    (config.routingTable = buildRoutingTable config.sites →
      (HostLeadsBack config routed ↔ HostsAgree normalizeHost req)) := by
  refine ⟨hostLeadsBack_iff h, fun htable => ?_⟩
  rw [hostLeadsBack_iff h]
  constructor
  · intro hagree a host hauth hhost
    have hlookup := hagree a host hauth hhost
    -- the header is the host that was picked, so both are keys of the site
    have hsite : config.lookup host = some routed.site := by
      rw [← (prepare_eq_ok h).2.1, pickHost, hhost]
      rfl
    rw [hsite] at hlookup
    rw [DynamicConfig.lookup, htable] at hlookup hsite
    exact (lookup_buildRoutingTable_sound hlookup).2.symm.trans
      (lookup_buildRoutingTable_sound hsite).2
  · intro hagree a host hauth hhost
    rw [DynamicConfig.lookup, DynamicConfig.lookup, hagree a host hauth hhost]

end routing

/-! ### Two sites -/

def siteOf (host upstream : Str) : SiteConfig where
  host := host
  upstream := upstream

def twoSites [Lowercase] : DynamicConfig :=
  DynamicConfig.fromSites
    [siteOf "a.com".toList "10.0.0.1:80".toList, siteOf "b.com".toList "10.0.0.2:80".toList]
    { requestsPerSecond := 10, burst := 20 } { limitBytes := 1024 }

def authorityB : Authority where
  host := "b.com".toList
  port := none
  isVisible := by simp [IsVisibleAscii]
  form := Or.inl ⟨by decide, by decide⟩

/-- A request for `b.com` by its URI, and for another host by its header. -/
def requestWithHost (host : Str) : Request Str Unit where
  method := "GET".toList
  uri := { authority := some authorityB, path := "/".toList, query := none }
  headers := [(hostName, host)]
  body := ()

def samplePeer : SocketAddr := .v4 ⟨192, 0, 2, 7⟩ 4711

theorem forwarded_host_iff_agreeing : letI := asciiLowercase; letI := textHeaderValue
    ∃ routed, prepare (fun _ => some ⟨none, [], none⟩) twoSites samplePeer
        (requestWithHost "B.com:443".toList) = .ok routed ∧
      HostLeadsBack twoSites routed := by
  let _ := asciiLowercase
  let _ := textHeaderValue
  obtain ⟨routed, hrouted⟩ : ∃ routed, prepare (fun _ => some ⟨none, [], none⟩) twoSites samplePeer
      (requestWithHost "B.com:443".toList) = .ok routed := ⟨_, rfl⟩
  refine ⟨routed, hrouted, (forwarded_host_iff _ _ _ _ routed hrouted).1.mpr ?_⟩
  rintro a host hauth hhost
  obtain rfl : authorityB = a := Option.some_inj.mp hauth
  obtain rfl : "B.com:443".toList = host := Option.some_inj.mp hhost
  rfl

/-- Routed to the site of the Host header, the request tells its backend the
other host. -/
theorem forwarded_host_mismatch : letI := asciiLowercase; letI := textHeaderValue
    ∃ routed, prepare (fun _ => some ⟨none, [], none⟩) twoSites samplePeer
        (requestWithHost "a.com".toList) = .ok routed ∧
      routed.site = siteOf "a.com".toList "10.0.0.1:80".toList ∧
      Multimap.getAll hostName routed.request.headers = ["b.com".toList] ∧
      ¬ HostLeadsBack twoSites routed := by
  refine ⟨_, rfl, rfl, rfl, ?_⟩
  rintro ⟨v, hv, hlookup⟩
  obtain rfl : "b.com".toList = v := List.singleton_inj.mp hv
  exact absurd hlookup (by decide)

end Handler
