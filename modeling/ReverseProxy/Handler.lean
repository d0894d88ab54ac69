/-
The proxy handler.

`proxyHandler` is one request through the proxy: the host is picked from the
Host header or else from the URI, the site is looked up, the headers are
rewritten, the upstream request is built (`prepare`), the upstream is called
under the two timeouts of the site, and its outcome becomes the response
(`answer`).  The `http` crate's URI parser and the two upstream clients are
parameters.

* `prepare_eq_ok_iff`, `prepare_eq_ok` — what is known of a request that
  reaches the upstream call.
-/
import ReverseProxy.Config
import ReverseProxy.Http
import ReverseProxy.NetAddrText

open Text NetAddr Config Http

namespace Handler

/-! ### Errors and log records -/

/-- What the upstream client reports. -/
structure ClientError where
  isConnect : Bool
  text : Str
  deriving DecidableEq

inductive ProxyError where
  | badGateway (host upstream : Str)
  | gatewayTimeout (host upstream : Str)
  | tooManyRequests (clientIp host path : Str)
  | upstreamConnection (e : ClientError)
  | upstreamTimeout
  | unknownHost
  | missingHost
  deriving DecidableEq

def ProxyError.statusCode : ProxyError → ℕ
  | badGateway .. => 502
  | gatewayTimeout .. => 504
  | tooManyRequests .. => 429
  | upstreamConnection _ => 502
  | upstreamTimeout => 504
  | unknownHost => 404
  | missingHost => 400

def ProxyError.body : ProxyError → Str
  | badGateway .. => "Bad Gateway".toList
  | gatewayTimeout .. => "Gateway Timeout".toList
  | tooManyRequests .. => "Too Many Requests".toList
  | upstreamConnection _ => "Bad Gateway".toList
  | upstreamTimeout => "Gateway Timeout".toList
  | unknownHost => "Not Found".toList
  | missingHost => "Bad Request".toList

/-- A response body: a text of the proxy's own, or that of the upstream. -/
inductive Body (β : Type) where
  | text (s : Str)
  | upstream (b : β)
  deriving DecidableEq

variable {V β : Type} [HeaderValue V]

def ProxyError.intoResponse (e : ProxyError) : Response V (Body β) where
  status := e.statusCode
  headers := [("content-type".toList, HeaderValue.fromStatic "text/plain; charset=utf-8".toList)]
  body := .text e.body

/-- A bare status code as a response. -/
def statusResponse (status : ℕ) : Response V (Body β) where
  status := status
  headers := []
  body := .text []

/-- The `error` field of an upstream error record. -/
inductive UpstreamFailure where
  | malformedUpstreamUri
  | invalidHost (value : Str)
  | client (text : Str)
  | badGateway
  | connectTimeout
  | timeout
  deriving DecidableEq

/-- The records of `log_request!` and `log_upstream_error!`. -/
inductive LogRecord where
  | request (clientIp host method path : Str) (status : ℕ) (upstream : Str) (durationMs : UInt64)
  | upstreamError (host upstream : Str) (error : UpstreamFailure)
  deriving DecidableEq

structure Outcome (V β : Type) where
  response : Response V (Body β)
  log : List LogRecord

/-! ### Header rewriting -/

def hopByHop : List Str :=
  ["connection".toList, "keep-alive".toList, "proxy-authorization".toList,
    "proxy-authenticate".toList, "te".toList, "trailers".toList, "transfer-encoding".toList,
    "upgrade".toList]

def removeHopByHop (headers : HeaderMap V) : HeaderMap V :=
  hopByHop.foldl (fun h name => Multimap.remove name h) headers

def injectProxyHeaders (remoteAddr : SocketAddr) (headers : HeaderMap V) : HeaderMap V :=
  let ipValue := (HeaderValue.fromStr remoteAddr.ip.toText).getD
    (HeaderValue.fromStatic "0.0.0.0".toList)
  let headers := Multimap.insert "x-real-ip".toList ipValue headers
  let headers := Multimap.insert "x-forwarded-for".toList ipValue headers
  Multimap.insert "x-forwarded-proto".toList (HeaderValue.fromStatic "https".toList) headers

def hostName : Str := "host".toList

/-! ### The upstream request -/

/-- The result is what the URI parser makes of the text. -/
def buildUpstreamUri {υ : Type} (parseUri : Str → Option υ) (scheme upstream : Str)
    (originalUri : Uri) : Option υ :=
  let query := (originalUri.query.map ('?' :: ·)).getD []
  parseUri (scheme ++ "://".toList ++ upstream ++ originalUri.path ++ query)

/-- The authority written as a Host value. -/
def authorityText (a : Authority) : Str :=
  match a.port with
  | some port => a.host ++ ':' :: decimal port.toNat
  | none => a.host

/-- The Host value to forward; the authority of the URI wins. -/
def hostHeader (req : Request V β) : Except UpstreamFailure (Option V) :=
  match req.uri.authority with
  | some authority =>
    match HeaderValue.fromStr (authorityText authority) with
    | some v => .ok (some v)
    | none => .error (.invalidHost (authorityText authority))
  | none => .ok (Multimap.get hostName req.headers)

def buildUpstreamRequest (req : Request V β) (upstreamUri : Uri) :
    Except UpstreamFailure (Request V β) := do
  let host ← hostHeader req
  let headers := Multimap.remove hostName req.headers
  let copied := headers.foldl (fun acc p => Multimap.append p.1 p.2 acc) []
  let headers := match host with
    | some host => Multimap.append hostName host copied
    | none => copied
  return { method := req.method, uri := upstreamUri, headers := headers, body := req.body }

/-! ### The handler -/

/-- The first Host value, if it is text. -/
def hostText (req : Request V β) : Option Str :=
  (Multimap.get hostName req.headers).bind HeaderValue.toStr

def pickHost (req : Request V β) : Str := ((hostText req).or req.uri.host).getD []

/-- What the handler knows of a request once it is routed. -/
structure Routed (V β : Type) where
  host : Str
  site : SiteConfig
  request : Request V β

def upstreamAddr (site : SiteConfig) : Str := site.upstreamScheme ++ "://".toList ++ site.upstream

/-- `duration_ms` of a completed call. -/
def millis (t : ℚ) : UInt64 := UInt64.ofNat (1000 * t).floor.toNat

def requestRecord (remoteAddr : SocketAddr) (req : Request V β) (host : Str) (site : SiteConfig)
    (status : ℕ) (elapsed : ℚ) : LogRecord :=
  .request remoteAddr.ip.toText host req.method req.uri.path status site.upstream (millis elapsed)

def badGateway (remoteAddr : SocketAddr) (req : Request V β) (host : Str) (site : SiteConfig)
    (failure : UpstreamFailure) : Outcome V β where
  response := statusResponse 502
  log := [.upstreamError host (upstreamAddr site) failure,
    requestRecord remoteAddr req host site 502 0]

/-- Everything before the upstream call; an outcome is an early return. -/
def prepare [Lowercase] (parseUri : Str → Option Uri) (config : DynamicConfig)
    (remoteAddr : SocketAddr) (req : Request V β) : Except (Outcome V β) (Routed V β) :=
  let host := pickHost req
  if host = [] then .error ⟨ProxyError.missingHost.intoResponse, []⟩
  else
    match config.lookup host with
    | none => .error ⟨ProxyError.unknownHost.intoResponse, []⟩
    | some site =>
      let rewritten := { req with
        headers := removeHopByHop (injectProxyHeaders remoteAddr req.headers) }
      match buildUpstreamUri parseUri site.upstreamScheme site.upstream req.uri with
      | none => .error (badGateway remoteAddr req host site .malformedUpstreamUri)
      | some upstreamUri =>
        match buildUpstreamRequest rewritten upstreamUri with
        | .error failure => .error (badGateway remoteAddr req host site failure)
        | .ok request => .ok { host := host, site := site, request := request }

/-- The upstream call under the two timeouts of the site, the connect timeout
inside the request timeout. -/
def callUpstream {α : Type} (site : SiteConfig) (request : Timed α) : Timed (Option (Option α)) :=
  timeout site.upstreamRequestTimeoutSecs.toNat
    (timeout site.upstreamConnectTimeoutSecs.toNat request)

/-- The response that passes an upstream response on. -/
def forwardResponse (resp : Response V β) : Response V (Body β) where
  status := resp.status
  headers := Multimap.remove "server".toList (removeHopByHop resp.headers)
  body := .upstream resp.body

def answer (remoteAddr : SocketAddr) (req : Request V β) (routed : Routed V β)
    (result : Timed (Option (Option (Except ClientError (Response V β))))) : Outcome V β :=
  let record := fun status =>
    requestRecord remoteAddr req routed.host routed.site status result.completesAt
  let failed := LogRecord.upstreamError routed.host (upstreamAddr routed.site)
  match result.value with
  | some (some (.ok resp)) => ⟨forwardResponse resp, [record resp.status]⟩
  | some (some (.error e)) =>
    if e.isConnect then
      ⟨(ProxyError.upstreamConnection e).intoResponse, [failed (.client e.text), record 502]⟩
    else
      ⟨(ProxyError.badGateway routed.host (upstreamAddr routed.site)).intoResponse,
        [failed .badGateway, record 502]⟩
  -- the inner timeout, then the outer one
  | some none => ⟨ProxyError.upstreamTimeout.intoResponse, [failed .connectTimeout, record 504]⟩
  | none => ⟨ProxyError.upstreamTimeout.intoResponse, [failed .timeout, record 504]⟩

/-- The two clients of the proxy state. -/
structure Clients (V β : Type) where
  http : Request V β → Timed (Except ClientError (Response V β))
  https : Request V β → Timed (Except ClientError (Response V β))

def Clients.request (clients : Clients V β) (site : SiteConfig) :
    Request V β → Timed (Except ClientError (Response V β)) :=
  if site.upstreamScheme = "https".toList then clients.https else clients.http

def proxyHandler [Lowercase] (parseUri : Str → Option Uri) (clients : Clients V β)
    (config : DynamicConfig) (remoteAddr : SocketAddr) (req : Request V β) : Outcome V β :=
  match prepare parseUri config remoteAddr req with
  | .error outcome => outcome
  | .ok routed =>
    answer remoteAddr req routed
      (callUpstream routed.site (clients.request routed.site routed.request))

/-- `prepare` succeeds just when a host is picked and leads to a site, the
upstream URI parses, and the upstream request can be built. -/
theorem prepare_eq_ok_iff [Lowercase] {parseUri : Str → Option Uri} {config : DynamicConfig}
    {remoteAddr : SocketAddr} {req : Request V β} {routed : Routed V β} :
    prepare parseUri config remoteAddr req = .ok routed ↔
      pickHost req ≠ [] ∧ routed.host = pickHost req ∧
      config.lookup (pickHost req) = some routed.site ∧
      ∃ uri, buildUpstreamUri parseUri routed.site.upstreamScheme routed.site.upstream req.uri
          = some uri ∧
        buildUpstreamRequest { req with
          headers := removeHopByHop (injectProxyHeaders remoteAddr req.headers) } uri
            = .ok routed.request := by
  constructor
  · intro h
    simp only [prepare] at h
    split at h
    · cases h
    · next hne =>
      split at h
      · cases h
      · next site hsite =>
        split at h
        · cases h
        · next uri huri =>
          split at h
          · cases h
          · next request hrequest =>
            cases h
            exact ⟨hne, rfl, hsite, uri, huri, hrequest⟩
  · rintro ⟨hne, hhost, hsite, uri, huri, hrequest⟩
    simp only [prepare, if_neg hne, hsite, huri, hrequest]
    rw [← hhost]

/-- A request that reaches the upstream call has been routed by the host it
was picked, and carries the headers that were rewritten. -/
theorem prepare_eq_ok [Lowercase] {parseUri : Str → Option Uri} {config : DynamicConfig}
    {remoteAddr : SocketAddr} {req : Request V β} {routed : Routed V β}
    (h : prepare parseUri config remoteAddr req = .ok routed) :
    pickHost req ≠ [] ∧ config.lookup (pickHost req) = some routed.site ∧
      ∃ uri, buildUpstreamRequest { req with
        headers := removeHopByHop (injectProxyHeaders remoteAddr req.headers) } uri
          = .ok routed.request := by
  obtain ⟨hne, -, hsite, uri, -, hrequest⟩ := prepare_eq_ok_iff.mp h
  exact ⟨hne, hsite, uri, hrequest⟩

end Handler
