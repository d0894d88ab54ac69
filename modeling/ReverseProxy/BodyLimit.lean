/-
The limit on request bodies.

`body_limit_middleware` turns a request away when its Content-Length is above
the limit, and otherwise hands it on with a body that fails once the frames add
up to more.  That failure is met by the upstream client, inside the proxy
handler, which knows nothing of the limit.

* `size_limitFrames`, `failed_limitFrames` — what the body lets through;
* `proxyHandler_ne` — the handler never answers 413;
* `payloadTooLarge_iff` — an oversized body gets 413 only if it is announced;
* `oversized_badGateway` — otherwise the client gets 502;
* `chunked_badGateway` — five bytes in two frames under a limit of four.
-/
import ReverseProxy.RateLimitLog
import ReverseProxy.UpstreamTimeout
import ReverseProxy.Validation

open Text AddrParser NetAddr Config Http Handler RateLimit

namespace BodyLimit

/-! ### Bodies -/

/-- What polling a body yields: data frames, and at the end an error or not. -/
structure Payload where
  frames : List (List UInt8)
  failed : Bool
  deriving DecidableEq

def Payload.size (p : Payload) : ℕ := (p.frames.map List.length).sum

/-- `http_body_util::Limited` with so many bytes remaining: the frames that it
passes, and whether it ends with its error. -/
def limitFrames : ℕ → List (List UInt8) → List (List UInt8) × Bool
  | _, [] => ([], false)
  | remaining, frame :: frames =>
    if remaining < frame.length then ([], true)
    else
      let rest := limitFrames (remaining - frame.length) frames
      (frame :: rest.1, rest.2)

def Payload.limited (limit : ℕ) (p : Payload) : Payload where
  frames := (limitFrames limit p.frames).1
  failed := (limitFrames limit p.frames).2 || p.failed

theorem size_limitFrames (frames : List (List UInt8)) : ∀ remaining : ℕ,
    ((limitFrames remaining frames).1.map List.length).sum ≤ remaining := by
  induction frames with
  | nil => exact fun remaining => Nat.zero_le remaining
  | cons frame frames ih =>
    intro remaining
    rw [limitFrames]
    split
    · exact Nat.zero_le remaining
    · next hfits =>
      have hrest := ih (remaining - frame.length)
      rw [List.map_cons, List.sum_cons]
      omega

theorem failed_limitFrames (frames : List (List UInt8)) : ∀ remaining : ℕ,
    (limitFrames remaining frames).2 = true ↔ remaining < (frames.map List.length).sum := by
  induction frames with
  | nil => exact fun remaining => by simp [limitFrames]
  | cons frame frames ih =>
    intro remaining
    rw [limitFrames, List.map_cons, List.sum_cons]
    split
    · next htoo =>
      refine iff_of_true rfl ?_
      omega
    · next hfits =>
      rw [ih (remaining - frame.length)]
      omega

/-! ### The middleware -/

section middleware

variable {V : Type} [HeaderValue V]

/-- `str::parse::<u64>`. -/
def parseU64 (s : Str) : Option UInt64 :=
  (parseWith (readNumber 10 (2 ^ 64) none true) ((stripPrefix '+' s).getD s)).map UInt64.ofNat

def defaultBodyLimitBytes : UInt64 := 104857600

/-- The limit in force. -/
def bodyLimit (config : DynamicConfig) : UInt64 :=
  if config.body.limitBytes = 0 then defaultBodyLimitBytes else config.body.limitBytes

def contentLengthName : Str := "content-length".toList

/-- The Content-Length, if it is text and a number. -/
def contentLength (req : Request V Payload) : Option UInt64 :=
  ((Multimap.get contentLengthName req.headers).bind HeaderValue.toStr).bind parseU64

def payloadTooLarge : Response V (Body Payload) where
  status := 413
  headers := [("content-type".toList, HeaderValue.fromStatic "text/plain; charset=utf-8".toList)]
  body := .text "Payload Too Large".toList

def limitRequest (config : DynamicConfig) (req : Request V Payload) : Request V Payload :=
  { req with body := req.body.limited (bodyLimit config).toNat }

def bodyLimitMiddleware (config : DynamicConfig)
    (next : Request V Payload → Response V (Body Payload)) (req : Request V Payload) :
    Response V (Body Payload) :=
  if (contentLength req).any (bodyLimit config < ·) then payloadTooLarge
  else next (limitRequest config req)

/-- The rate limit around the body limit around the proxy handler. -/
def buildRouter [Lowercase] (parseUri : Str → Option Uri) (clients : Clients V Payload)
    (config : DynamicConfig) (limiter : RateLimiter) (now : ℚ) (peer : SocketAddr)
    (req : Request V Payload) : Handled V Payload :=
  rateLimitMiddleware limiter now (some peer)
    (bodyLimitMiddleware config fun req => (proxyHandler parseUri clients config peer req).response)
    req

/-! ### Announced lengths -/

theorem stripPrefix_plus_decimal (n : ℕ) : stripPrefix '+' (decimal n) = none := by
  have hplus : '+' ∉ decimal n := not_mem_decimal (by decide) n
  cases hd : decimal n with
  | nil => rfl
  | cons c s =>
    rw [stripPrefix, if_neg]
    rintro rfl
    exact hplus (hd ▸ List.mem_cons_self)

/-- A number is read back unless it takes more than 64 bits. -/
theorem parseU64_decimal (n : ℕ) :
    parseU64 (decimal n) = if n < 2 ^ 64 then some (UInt64.ofNat n) else none := by
  rw [parseU64, stripPrefix_plus_decimal, Option.getD_none]
  split
  · next hn =>
    have hread : readNumber 10 (2 ^ 64) none true (decimal n ++ []) = some (n, []) :=
      readNumber_toDigits (by omega) (by omega) hn rfl true (by simp)
    rw [List.append_nil] at hread
    rw [parseWith_eq_some.mpr hread, Option.map_some]
  · next hn =>
    have hread : readNumber 10 (2 ^ 64) none true (decimal n) = none :=
      readNumber_toDigits_of_le (by omega) (by omega) (by omega) (not_lt.mp hn) true
    rw [parseWith, hread]
    rfl

/-- The Content-Length, where there is one, is the length of the body. -/
def Announces (req : Request V Payload) : Prop :=
  ∀ v, Multimap.get contentLengthName req.headers = some v →
    HeaderValue.toStr v = some (decimal req.body.size)

/-- When the middleware turns a request away. -/
theorem contentLength_any_iff {req : Request V Payload} (h : Announces req)
    (config : DynamicConfig) :
    (contentLength req).any (bodyLimit config < ·) = true ↔
      (Multimap.get contentLengthName req.headers).isSome = true ∧ req.body.size < 2 ^ 64 ∧
        (bodyLimit config).toNat < req.body.size := by
  rw [contentLength]
  cases hv : Multimap.get contentLengthName req.headers with
  | none => simp
  | some v =>
    rw [Option.bind_some, h v hv, Option.bind_some, parseU64_decimal]
    by_cases hn : req.body.size < 2 ^ 64
    · rw [if_pos hn, Option.any_some, decide_eq_true_eq, UInt64.lt_iff_toNat_lt,
        UInt64.toNat_ofNat', Nat.mod_eq_of_lt hn]
      exact ⟨fun hlt => ⟨rfl, hn, hlt⟩, fun h => h.2.2⟩
    · rw [if_neg hn]
      exact iff_of_false Bool.false_ne_true fun h => hn h.2.1

/-! ### The answers of the handler -/

theorem intoResponse_ne (e : ProxyError) :
    e.intoResponse ≠ (payloadTooLarge : Response V (Body Payload)) := by
  intro h
  have hstatus : e.statusCode = 413 := congrArg Response.status h
  cases e <;> simp [ProxyError.statusCode] at hstatus

theorem forwardResponse_ne_payloadTooLarge (resp : Response V Payload) :
    forwardResponse resp ≠ payloadTooLarge := by
  intro h
  have hbody : (Body.upstream resp.body : Body Payload) = .text "Payload Too Large".toList :=
    congrArg Response.body h
  cases hbody

theorem prepare_error_ne [Lowercase] {parseUri : Str → Option Uri} {config : DynamicConfig}
    {peer : SocketAddr} {req : Request V Payload} {outcome : Outcome V Payload}
    (h : prepare parseUri config peer req = .error outcome) :
    outcome.response ≠ payloadTooLarge := by
  have hbad : (statusResponse 502 : Response V (Body Payload)) ≠ payloadTooLarge := by
    intro heq
    have hstatus : 502 = 413 := congrArg Response.status heq
    omega
  simp only [prepare] at h
  split at h
  · exact Except.error.inj h ▸ intoResponse_ne _
  · split at h
    · exact Except.error.inj h ▸ intoResponse_ne _
    · split at h
      · exact Except.error.inj h ▸ hbad
      · split at h
        · exact Except.error.inj h ▸ hbad
        · cases h

/-- **The handler never answers 413 itself.**  Its errors are others, and the
responses of the upstream are passed on as such. -/
theorem proxyHandler_ne [Lowercase] (parseUri : Str → Option Uri) (clients : Clients V Payload)
    (config : DynamicConfig) (peer : SocketAddr) (req : Request V Payload) :
    (proxyHandler parseUri clients config peer req).response ≠ payloadTooLarge := by
  rw [proxyHandler]
  cases hprepare : prepare parseUri config peer req with
  | error outcome => exact prepare_error_ne hprepare
  | ok routed =>
    simp only [answer]
    split
    · exact forwardResponse_ne_payloadTooLarge _
    · split
      · exact intoResponse_ne _
      · exact intoResponse_ne _
    · exact intoResponse_ne _
    · exact intoResponse_ne _

theorem response_buildRouter [Lowercase] (parseUri : Str → Option Uri)
    (clients : Clients V Payload) (config : DynamicConfig) {limiter : RateLimiter} {now : ℚ}
    {peer : SocketAddr} (hadmitted : (limiter.checkAndConsume now peer.ip).2 = true)
    (req : Request V Payload) :
    (buildRouter parseUri clients config limiter now peer req).response =
      bodyLimitMiddleware config
        (fun req => (proxyHandler parseUri clients config peer req).response) req := by
  simp only [buildRouter, rateLimitMiddleware, hadmitted, if_true]

/-- The request that is handed to the upstream client has the body of the
incoming one. -/
theorem body_of_prepare [Lowercase] {parseUri : Str → Option Uri} {config : DynamicConfig}
    {peer : SocketAddr} {req : Request V Payload} {routed : Routed V Payload}
    (h : prepare parseUri config peer req = .ok routed) : routed.request.body = req.body := by
  obtain ⟨-, -, uri, hrequest⟩ := prepare_eq_ok h
  obtain ⟨host, hhost⟩ := hostHeader_of_buildUpstreamRequest hrequest
  obtain ⟨out, hout, -, -, hbody, -⟩ := buildUpstreamRequest_of_hostHeader hhost uri
  rw [Except.ok.inj (hrequest.symm.trans hout), hbody]

/-- No more than the limit is passed on. -/
theorem size_of_prepare_limitRequest [Lowercase] {parseUri : Str → Option Uri}
    {config : DynamicConfig} {peer : SocketAddr} {req : Request V Payload}
    {routed : Routed V Payload}
    (h : prepare parseUri config peer (limitRequest config req) = .ok routed) :
    routed.request.body.size ≤ (bodyLimit config).toNat := by
  rw [body_of_prepare h]
  exact size_limitFrames ..

/-- The early check alone decides about 413. -/
theorem response_eq_payloadTooLarge_iff [Lowercase] (parseUri : Str → Option Uri)
    (clients : Clients V Payload) (config : DynamicConfig) {limiter : RateLimiter} {now : ℚ}
    {peer : SocketAddr} (hadmitted : (limiter.checkAndConsume now peer.ip).2 = true)
    {req : Request V Payload} (hlength : Announces req) :
    (buildRouter parseUri clients config limiter now peer req).response = payloadTooLarge ↔
      (Multimap.get contentLengthName req.headers).isSome = true ∧
        req.body.size < 2 ^ 64 ∧ (bodyLimit config).toNat < req.body.size := by
  rw [response_buildRouter parseUri clients config hadmitted, bodyLimitMiddleware,
    ← contentLength_any_iff hlength config]
  split
  · next hearly => exact iff_of_true rfl hearly
  · next hlate =>
    exact iff_of_false (proxyHandler_ne parseUri clients config peer (limitRequest config req))
      hlate

/-- **Oversized bodies.**  A request that the rate limiter lets through gets 413
exactly if its body is longer than the limit, and never more than the limit is
passed on: this is so for the bodies within the limit, and for those whose
length is announced and takes no more than 64 bits. -/
theorem payloadTooLarge_iff [Lowercase] (parseUri : Str → Option Uri) (clients : Clients V Payload)
    (config : DynamicConfig) (limiter : RateLimiter) (now : ℚ) (peer : SocketAddr)
    (hadmitted : (limiter.checkAndConsume now peer.ip).2 = true) (req : Request V Payload)
    (hlength : Announces req) :
    (((buildRouter parseUri clients config limiter now peer req).response = payloadTooLarge ↔
        (bodyLimit config).toNat < req.body.size) ∧
      ∀ routed, prepare parseUri config peer (limitRequest config req) = .ok routed →
        routed.request.body.size ≤ (bodyLimit config).toNat) ↔
    (req.body.size ≤ (bodyLimit config).toNat ∨
      (Multimap.get contentLengthName req.headers).isSome = true ∧ req.body.size < 2 ^ 64) := by
  rw [response_eq_payloadTooLarge_iff parseUri clients config hadmitted hlength]
  constructor
  · rintro ⟨hiff, -⟩
    by_cases hle : req.body.size ≤ (bodyLimit config).toNat
    · exact Or.inl hle
    · obtain ⟨hannounced, hsmall, -⟩ := hiff.mpr (not_le.mp hle)
      exact Or.inr ⟨hannounced, hsmall⟩
  · rintro (hle | ⟨hannounced, hsmall⟩)
    · refine ⟨iff_of_false ?_ (not_lt.mpr hle), fun _ => size_of_prepare_limitRequest⟩
      exact fun h => not_lt.mpr hle h.2.2
    · refine ⟨⟨fun h => h.2.2, ?_⟩, fun _ => size_of_prepare_limitRequest⟩
      exact fun hlt => ⟨hannounced, hsmall, hlt⟩

/-- A client reports that the body of its request failed, and the upstream does
not answer before it has all of it. -/
def ReadsWholeBody (clients : Clients V Payload) : Prop :=
  ∀ site req, req.body.failed = true →
    ∃ e, (clients.request site req).value = .error e ∧ e.isConnect = false

/-- The other oversized bodies end as a bad gateway. -/
theorem oversized_badGateway [Lowercase] {parseUri : Str → Option Uri}
    {clients : Clients V Payload} (hreads : ReadsWholeBody clients) {config : DynamicConfig}
    {limiter : RateLimiter} {now : ℚ} {peer : SocketAddr}
    (hadmitted : (limiter.checkAndConsume now peer.ip).2 = true) {req : Request V Payload}
    (hsilent : Multimap.get contentLengthName req.headers = none)
    (hsize : (bodyLimit config).toNat < req.body.size) {routed : Routed V Payload}
    (hprepare : prepare parseUri config peer (limitRequest config req) = .ok routed)
    (htime : (clients.request routed.site routed.request).completesAt
        ≤ min (connectTimeout routed.site) (requestTimeout routed.site)) :
    (buildRouter parseUri clients config limiter now peer req).response
      = (ProxyError.badGateway routed.host (upstreamAddr routed.site)).intoResponse := by
  have hfailed : routed.request.body.failed = true := by
    rw [body_of_prepare hprepare]
    show (_ || _) = true
    rw [(failed_limitFrames _ _).mpr hsize, Bool.true_or]
  obtain ⟨e, he, hconnect⟩ := hreads routed.site routed.request hfailed
  have hnone : contentLength req = none := by rw [contentLength, hsilent]; rfl
  rw [response_buildRouter parseUri clients config hadmitted, bodyLimitMiddleware, hnone]
  simp only [Option.any_none, Bool.false_eq_true, if_false, proxyHandler, hprepare, answer,
    callUpstream_value, if_pos (htime.trans (min_le_left ..)),
    if_pos (htime.trans (min_le_right ..)), he, hconnect]

end middleware

/-! ### Uploads -/

/-- A configuration with a limit of four bytes. -/
def smallLimit [Lowercase] : DynamicConfig := { twoSites with body := ⟨4⟩ }

/-- A client that reads all of the body and answers after a second. -/
def readingClients : Clients Str Payload :=
  let request := fun req : Request Str Payload =>
    { completesAt := 1
      value := if req.body.failed then .error ⟨false, "body error".toList⟩
        else .ok { status := 200, headers := [], body := ⟨[], false⟩ } }
  ⟨request, request⟩

theorem readingClients_readsWholeBody : ReadsWholeBody readingClients := by
  intro site req hfailed
  refine ⟨⟨false, "body error".toList⟩, ?_, rfl⟩
  rw [Clients.request]
  split
  · exact if_pos hfailed
  · exact if_pos hfailed

/-- Five bytes in two frames, with these headers besides the Host. -/
def upload (headers : HeaderMap Str) : Request Str Payload where
  method := "POST".toList
  uri := { authority := none, path := "/".toList, query := none }
  headers := (hostName, "b.com".toList) :: headers
  body := ⟨[[1, 2, 3], [4, 5]], false⟩

theorem payloadTooLarge_upload : letI := asciiLowercase; letI := textHeaderValue
    (buildRouter (fun _ => some ⟨none, [], none⟩) readingClients smallLimit
      (RateLimiter.new ⟨10, 20⟩) 0 samplePeer
      (upload [(contentLengthName, "5".toList)])).response = payloadTooLarge := by
  let _ := asciiLowercase
  let _ := textHeaderValue
  have hlength : Announces (upload [(contentLengthName, "5".toList)]) := by
    intro v hv
    obtain rfl : "5".toList = v := Option.some_inj.mp hv
    rfl
  refine ((payloadTooLarge_iff _ _ smallLimit (RateLimiter.new ⟨10, 20⟩) 0 samplePeer ?_ _
    hlength).mpr (Or.inr ⟨rfl, ?_⟩)).1.mpr ?_
  · decide +kernel
  · decide +kernel
  · decide +kernel

/-- The same body in chunks, without a Content-Length: the site is found and the
client reads all of the body, and the answer is 502. -/
theorem chunked_badGateway : letI := asciiLowercase; letI := textHeaderValue
    let req := upload [("transfer-encoding".toList, "chunked".toList)]
    smallLimit.lookup (pickHost req) = some (siteOf "b.com".toList "10.0.0.2:80".toList) ∧
    ReadsWholeBody readingClients ∧ (bodyLimit smallLimit).toNat < req.body.size ∧
    (buildRouter (fun _ => some ⟨none, [], none⟩) readingClients smallLimit
      (RateLimiter.new ⟨10, 20⟩) 0 samplePeer req).response.status = 502 := by
  refine ⟨rfl, readingClients_readsWholeBody, by decide +kernel, by decide +kernel⟩

end BodyLimit
