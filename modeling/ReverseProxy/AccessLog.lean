/-
The access log.

`proxy_handler` logs a record for every request that it passes on, with the host
it was routed by, the method and the path as the client sent them.  The records
of answers 401 and 403 are read by the filter of `AccessFilter`.

* `log_of_isDenial` — the one record of such an answer;
* `ending_statusFields` — its line from the status on holds no other record;
* `access_address_iff` — the requests whose record names the client, whoever
  sends them.
-/
import ReverseProxy.AccessFilter
import ReverseProxy.ForwardedHost
import ReverseProxy.Routing

open Text AddrParser NetAddr Config Http Handler Pattern Validation Routing

namespace AccessLog

/-! ### Records -/

/-- The line of `log_request!`. -/
def requestLine (clientIp host method path : Str) (status : ℕ) (upstream : Str)
    (durationMs : UInt64) : Str :=
  "prefix=\"REQUEST\"".toList ++ " client_ip=".toList ++ clientIp ++ " host=".toList ++ host ++
    " method=".toList ++ method ++ " path=".toList ++ path ++ " status=".toList ++
    decimal status ++ " upstream=".toList ++ upstream ++ " duration_ms=".toList ++
    decimal durationMs.toNat

/-- The lines of the requests in a log. -/
def requestLines (log : List LogRecord) : List Str :=
  log.filterMap fun
    | .request clientIp host method path status upstream durationMs =>
      some (requestLine clientIp host method path status upstream durationMs)
    | .upstreamError .. => none

/-- The answers that the filter looks for. -/
def IsDenial (status : ℕ) : Prop := status = 401 ∨ status = 403

instance (status : ℕ) : Decidable (IsDenial status) := inferInstanceAs (Decidable (_ ∨ _))

section records

variable {V β : Type} [HeaderValue V]

/-- No error of the proxy itself is one of them. -/
theorem not_isDenial_intoResponse (e : ProxyError) :
    ¬ IsDenial (e.intoResponse : Response V (Body β)).status := by
  cases e <;> simp [IsDenial, ProxyError.intoResponse, ProxyError.statusCode]

theorem log_answer {remoteAddr : SocketAddr} {req : Request V β} {routed : Routed V β}
    {result : Timed (Option (Option (Except ClientError (Response V β))))}
    (h : IsDenial (answer remoteAddr req routed result).response.status) :
    (answer remoteAddr req routed result).log
      = [requestRecord remoteAddr req routed.host routed.site
          (answer remoteAddr req routed result).response.status result.completesAt] := by
  simp only [answer] at h ⊢
  split at h
  · rfl
  · split at h
    · exact absurd h (not_isDenial_intoResponse _)
    · exact absurd h (not_isDenial_intoResponse _)
  · exact absurd h (not_isDenial_intoResponse _)
  · exact absurd h (not_isDenial_intoResponse _)

variable [Lowercase] {parseUri : Str → Option Uri} {config : DynamicConfig}
  {remoteAddr : SocketAddr} {req : Request V β}

theorem not_isDenial_of_prepare {outcome : Outcome V β}
    (h : prepare parseUri config remoteAddr req = .error outcome) :
    ¬ IsDenial outcome.response.status := by
  have hgateway : ¬ IsDenial 502 := by decide
  simp only [prepare] at h
  split at h
  · obtain rfl := Except.error.inj h
    exact not_isDenial_intoResponse .missingHost
  · split at h
    · obtain rfl := Except.error.inj h
      exact not_isDenial_intoResponse .unknownHost
    · split at h
      · obtain rfl := Except.error.inj h
        exact hgateway
      · split at h
        · obtain rfl := Except.error.inj h
          exact hgateway
        · cases h

/-- The log of a request that is answered 401 or 403. -/
theorem log_of_isDenial {clients : Clients V β}
    (h : IsDenial (proxyHandler parseUri clients config remoteAddr req).response.status) :
    ∃ site t, config.lookup (pickHost req) = some site ∧
      (proxyHandler parseUri clients config remoteAddr req).log
        = [requestRecord remoteAddr req (pickHost req) site
            (proxyHandler parseUri clients config remoteAddr req).response.status t] := by
  rw [proxyHandler] at h ⊢
  rcases hprepare : prepare parseUri config remoteAddr req with outcome | routed
  · rw [hprepare] at h
    exact absurd h (not_isDenial_of_prepare hprepare)
  · rw [hprepare] at h
    obtain ⟨-, hhost, hsite, -⟩ := prepare_eq_ok_iff.mp hprepare
    exact ⟨routed.site, _, hsite, hhost ▸ log_answer h⟩

/-- Every client can have such a record: its upstream answers at once. -/
theorem exists_unauthorized {site : SiteConfig} (hne : pickHost req ≠ [])
    (hsite : config.lookup (pickHost req) = some site) (remoteAddr : SocketAddr) :
    ∃ (parseUri : Str → Option Uri) (clients : Clients V β),
      (proxyHandler parseUri clients config remoteAddr req).response.status = 401 ∧
        (proxyHandler parseUri clients config remoteAddr req).log
          = [requestRecord remoteAddr req (pickHost req) site 401 0] := by
  let rewritten := { req with
    headers := removeHopByHop (injectProxyHeaders remoteAddr req.headers) }
  let uri : Uri := ⟨none, [], none⟩
  obtain ⟨host, hhost⟩ : ∃ host, hostHeader rewritten = .ok host := by
    rw [hostHeader]
    split
    · next authority _ =>
      obtain ⟨v, hv, -⟩ := HeaderValue.toStr_fromStr (V := V) (isVisible_authorityText authority)
      exact ⟨some v, by rw [hv]⟩
    · exact ⟨_, rfl⟩
  obtain ⟨request, hrequest, -⟩ := buildUpstreamRequest_of_hostHeader hhost uri
  let answered : Timed (Except ClientError (Response V β)) := ⟨0, .ok ⟨401, [], req.body⟩⟩
  have hprepare : prepare (fun _ => some uri) config remoteAddr req
      = .ok ⟨pickHost req, site, request⟩ :=
    prepare_eq_ok_iff.mpr ⟨hne, rfl, hsite, uri, rfl, hrequest⟩
  have hcall : callUpstream site answered = ⟨0, some (some answered.value)⟩ := by
    have hconnect : answered.completesAt ≤ site.upstreamConnectTimeoutSecs.toNat :=
      Nat.cast_nonneg _
    rw [callUpstream, timeout, timeout, if_pos hconnect]
    exact if_pos (Nat.cast_nonneg _)
  refine ⟨fun _ => some uri, ⟨fun _ => answered, fun _ => answered⟩, ?_⟩
  have hclient :
      Clients.request ⟨fun _ => answered, fun _ => answered⟩ site request = answered := by
    rw [Clients.request]
    split <;> rfl
  rw [proxyHandler, hprepare]
  simp only [hclient, hcall]
  exact ⟨rfl, rfl⟩

end records

/-! ### The line of a record -/

/-- The line from the status on. -/
def statusFields (status : ℕ) (upstream : Str) (durationMs : UInt64) : Str :=
  "status=".toList ++ (decimal status ++ ' ' :: ("upstream=".toList ++ (upstream ++ ' ' ::
    ("duration_ms=".toList ++ decimal durationMs.toNat))))

theorem requestLine_eq (clientIp host method path : Str) (status : ℕ) (upstream : Str)
    (durationMs : UInt64) :
    requestLine clientIp host method path status upstream durationMs
      = recordAt clientIp (fields host method path (statusFields status upstream durationMs)) := by
  have hclient : " client_ip=".toList = ' ' :: clientField := rfl
  have hhost : " host=".toList = ' ' :: "host=".toList := rfl
  have hmethod : " method=".toList = ' ' :: "method=".toList := rfl
  have hpath : " path=".toList = ' ' :: "path=".toList := rfl
  have hstatus : " status=".toList = ' ' :: "status=".toList := rfl
  have hupstream : " upstream=".toList = ' ' :: "upstream=".toList := rfl
  have hduration : " duration_ms=".toList = ' ' :: "duration_ms=".toList := rfl
  unfold requestLine recordAt fields statusFields prefixWord
  simp only [hclient, hhost, hmethod, hpath, hstatus, hupstream, hduration, List.append_assoc,
    List.cons_append]

/-- A character that is neither in a name of a field nor a digit. -/
theorem not_mem_statusFields {c : Char} (hdigit : toDigit 10 c = none) (hblank : c ≠ ' ')
    (hstatus : c ∉ "status=".toList) (hupstream : c ∉ "upstream=".toList)
    (hduration : c ∉ "duration_ms=".toList) {upstream : Str} (hup : c ∉ upstream)
    (status : ℕ) (durationMs : UInt64) : c ∉ statusFields status upstream durationMs := by
  have hcode : c ∉ decimal status := not_mem_decimal hdigit status
  have hms : c ∉ decimal durationMs.toNat := not_mem_decimal hdigit durationMs.toNat
  unfold statusFields
  simp only [List.mem_append, List.mem_cons, not_or]
  exact ⟨hstatus, hcode, hblank, hupstream, hup, hblank, hduration, hms⟩

/-- No second status follows. -/
theorem not_hasDenial_statusFields {upstream : Str} (hup : ' ' ∉ upstream) (status : ℕ)
    (durationMs : UInt64) : ¬ HasDenial (statusFields status upstream durationMs) := by
  have hdigit : toDigit 10 ' ' = none := by decide
  have hfirst : ' ' ∉ "status=".toList ++ decimal status := by
    rw [List.mem_append, not_or]
    exact ⟨by decide, not_mem_decimal hdigit _⟩
  have hsecond : ' ' ∉ "upstream=".toList ++ upstream := by
    rw [List.mem_append, not_or]
    exact ⟨by decide, hup⟩
  have hthird : ' ' ∉ "duration_ms=".toList ++ decimal durationMs.toNat := by
    rw [List.mem_append, not_or]
    exact ⟨by decide, not_mem_decimal hdigit _⟩
  rintro ⟨b, code, d, h, -⟩
  unfold statusFields at h
  rw [← List.append_assoc] at h
  rcases append_word_cons_eq (a := []) hfirst h with ⟨a, ha, -⟩ | ⟨-, h₁⟩ | ⟨b₁, -, h₁⟩
  · exact absurd (List.append_eq_nil_iff.mp ha.symm).2 (List.cons_ne_nil _ _)
  · exact absurd (List.cons.inj h₁).1 (by decide)
  · rw [← List.append_assoc] at h₁
    rcases append_word_cons_eq (a := []) hsecond h₁ with ⟨a, ha, -⟩ | ⟨-, h₂⟩ | ⟨b₂, -, h₂⟩
    · exact absurd (List.append_eq_nil_iff.mp ha.symm).2 (List.cons_ne_nil _ _)
    · exact absurd (List.cons.inj h₂).1 (by decide)
    · rw [h₂] at hthird
      exact absurd (List.mem_append_right b₂ List.mem_cons_self) hthird

/-- The end of a line with the status 401 or 403. -/
theorem ending_statusFields {status : ℕ} (hstatus : status = 401 ∨ status = 403) {upstream : Str}
    (hupstream : ∀ c ∈ upstream, UpstreamChar c) (durationMs : UInt64) :
    Ending (statusFields status upstream durationMs) := by
  have hnot : ∀ {c : Char}, ¬ UpstreamChar c → c ∉ upstream := fun hc hmem => hc (hupstream _ hmem)
  have hcode : IsDenialCode (decimal status) := by
    rcases hstatus with rfl | rfl
    · exact Or.inl rfl
    · exact Or.inr rfl
  exact
    { denial := fun z => ⟨z, decimal status, _, rfl, hcode⟩
      no_quote := not_mem_statusFields (by decide) (by decide) (by decide) (by decide)
        (by decide) (hnot (by decide)) _ _
      no_break := not_mem_statusFields (by decide) (by decide) (by decide) (by decide)
        (by decide) (hnot (by decide)) _ _
      no_denial := not_hasDenial_statusFields (hnot (by decide)) _ _
      not_client := not_clientField (by decide) _ }

/-! ### The host of the request -/

section

variable {V β : Type} [HeaderValue V]

theorem isVisible_pickHost (req : Request V β) : IsVisibleAscii (pickHost req) := by
  rw [pickHost]
  rcases hhost : hostText req with _ | host
  · rw [Option.none_or, Uri.host]
    cases req.uri.authority with
    | none => exact fun c hc => absurd hc List.not_mem_nil
    | some authority => exact authority.isVisible
  · exact isVisible_of_hostText hhost

theorem break_not_mem_pickHost (req : Request V β) : '\n' ∉ pickHost req := by
  intro hmem
  rcases isVisible_pickHost req _ hmem with ⟨hlow, -⟩ | htab
  · exact absurd hlow (by decide)
  · exact absurd htab (by decide)

variable [Lowercase]

/-- The empty host is not routed. -/
theorem ne_nil_of_lookup {full : FullConfig} (hacc : Accepted full.intoStaticAndDynamic.1)
    {h : Str} {site : SiteConfig} (hsite : full.intoStaticAndDynamic.2.lookup h = some site) :
    h ≠ [] := by
  rintro rfl
  obtain ⟨hmem, hnorm⟩ := (lookup_eq_some_iff hacc).mp hsite
  have hstrip : stripPortFromHost [] = [] := rfl
  rw [normalizeHost_of_strip hstrip (fun c hc => absurd hc List.not_mem_nil) (by simp) (by simp),
    List.map_nil] at hnorm
  exact ne_nil_of_isValidHostname (hacc.sites site hmem).hostname
    (List.map_eq_nil_iff.mp hnorm.symm)

end

/-! ### The address of a denial -/

section

variable {V β : Type}

theorem banned_requestLines (remoteAddr : SocketAddr) (req : Request V β) (host : Str)
    (site : SiteConfig) (status : ℕ) (t : ℚ) :
    (requestLines [requestRecord remoteAddr req host site status t]).map bannedAddress
      = [bannedAddress (recordAt remoteAddr.ip.toText (fields host req.method req.uri.path
          (statusFields status site.upstream (millis t))))] := by
  rw [← requestLine_eq]
  rfl

variable [HeaderValue V] [Lowercase]

/-- **Attribution in the access log.**  In an accepted configuration a request
that is routed is written down, when it is answered 401 or 403, in one line, and
whoever sends it the filter takes the sender's address from the line, exactly
when neither the host nor the method nor the path holds the beginning of a
record, nor the method or the path a line break. -/
theorem access_address_iff (pathExists : Str → Bool) (full : FullConfig) (cli : Bool)
    (haccept : validate pathExists full.intoStaticAndDynamic.1 full.intoStaticAndDynamic.2 cli
      = .ok ()) (req : Request V β) (site : SiteConfig)
    (hsite : full.intoStaticAndDynamic.2.lookup (pickHost req) = some site) :
    (∀ (parseUri : Str → Option Uri) (clients : Clients V β) (peer : SocketAddr),
      let outcome := proxyHandler parseUri clients full.intoStaticAndDynamic.2 peer req
      IsDenial outcome.response.status →
        (requestLines outcome.log).map bannedAddress = [some peer.ip]) ↔
      Clean (pickHost req) req.method req.uri.path := by
  have hacc := accepted_of_validate pathExists haccept
  have hupstream := upstreamChar_of_isValidUpstream
    (hacc.sites site ((lookup_eq_some_iff hacc).mp hsite).1).upstream
  have hhost := break_not_mem_pickHost req
  constructor
  · intro h
    have hrest := ending_statusFields (Or.inl rfl) hupstream (millis 0)
    refine (banned_iff_clean hrest hhost).mp fun client => ?_
    obtain ⟨peer, rfl⟩ : ∃ peer : SocketAddr, peer.ip = client := by
      cases client with
      | v4 ip => exact ⟨.v4 ip 0, rfl⟩
      | v6 ip => exact ⟨.v6 ip 0 0, rfl⟩
    obtain ⟨parseUri, clients, hstatus, hlog⟩ :=
      exists_unauthorized (ne_nil_of_lookup hacc hsite) hsite peer
    have hbanned := h parseUri clients peer (Or.inl hstatus)
    rw [hlog, banned_requestLines] at hbanned
    exact List.singleton_inj.mp hbanned
  · intro hclean parseUri clients peer outcome hdenial
    obtain ⟨site', t, hsite', hlog⟩ := log_of_isDenial hdenial
    obtain rfl : site = site' := Option.some_inj.mp (hsite.symm.trans hsite')
    have hrest := ending_statusFields hdenial hupstream (millis t)
    rw [hlog, banned_requestLines, banned_of_clean hrest hclean hhost]

end

/-- An upstream that answers 401 at once. -/
def unauthorized : Clients Str Unit where
  http _ := ⟨0, .ok ⟨401, [], ()⟩⟩
  https _ := ⟨0, .ok ⟨401, [], ()⟩⟩

theorem access_address_iff_plain : letI := asciiLowercase; letI := textHeaderValue
    (requestLines (proxyHandler (fun _ => some ⟨none, [], none⟩) unauthorized
      sampleConfig.intoStaticAndDynamic.2 samplePeer
      (requestWithHost "example.com".toList)).log).map bannedAddress = [some samplePeer.ip] := by
  let _ := asciiLowercase
  let _ := textHeaderValue
  have hclean : Clean "example.com".toList "GET".toList "/".toList :=
    clean_of_no_quote (by decide) (by decide) (by decide) (by decide) (by decide)
  have hsite : sampleConfig.intoStaticAndDynamic.2.lookup
      (pickHost (requestWithHost "example.com".toList)) = some sampleSite := rfl
  have hstatus : (proxyHandler (fun _ => some ⟨none, [], none⟩) unauthorized
      sampleConfig.intoStaticAndDynamic.2 samplePeer
      (requestWithHost "example.com".toList)).response.status = 401 := rfl
  exact (access_address_iff (fun _ => true) sampleConfig false validate_sampleConfig
    (requestWithHost "example.com".toList) sampleSite hsite).mpr hclean _ unauthorized samplePeer
    (Or.inl hstatus)

/-- The Host value of a site in brackets, with the beginning of a record after
them. -/
def forgedHost : Str := "[example.com] prefix=\"REQUEST\" client_ip=203.0.113.7 x".toList

/-- A client whose request is denied has another address banned. -/
theorem access_address_forged : letI := asciiLowercase; letI := textHeaderValue
    let outcome := proxyHandler (fun _ => some ⟨none, [], none⟩) unauthorized
      sampleConfig.intoStaticAndDynamic.2 samplePeer (requestWithHost forgedHost)
    validate (fun _ => true) sampleConfig.intoStaticAndDynamic.1
      sampleConfig.intoStaticAndDynamic.2 false = .ok () ∧
    sampleConfig.intoStaticAndDynamic.2.lookup (pickHost (requestWithHost forgedHost))
      = some sampleSite ∧
    outcome.response.status = 401 ∧
    (requestLines outcome.log).map bannedAddress = [some (.v4 ⟨203, 0, 113, 7⟩)] ∧
    samplePeer.ip = .v4 ⟨192, 0, 2, 7⟩ := by
  exact ⟨validate_sampleConfig, rfl, rfl, by decide +kernel, rfl⟩

end AccessLog
