/-
The headers that the upstream and the client are sent.

Three functions edit the headers of a routed request one after the other:
`injectProxyHeaders` replaces, `removeHopByHop` deletes, and
`buildUpstreamRequest` copies what is left and puts one Host value back.

* `getAll_rewritten` — the values of every name after the first two of them;
* `Rewritten`, `rewritten_of_prepare` — the headers of the upstream request;
* `prepare_of_sameElsewhere` — they do not depend on what the client sent under
  the names that the proxy decides about;
* `getAll_forwardResponse` — the headers of the response;
* `headers_exact` — the three together.
-/
import ReverseProxy.ForwardedHost

open Text NetAddr AddrParser Config Http

namespace Handler

variable {V β : Type} [HeaderValue V]

/-! ### The values the proxy writes -/

theorem isVisible_of_addrChar {c : Char} (h : AddrChar c) : 32 ≤ c.toNat ∧ c.toNat ≤ 126 := by
  have hrange : ∀ {lo hi : Char}, lo ≤ c ∧ c ≤ hi → lo.toNat ≤ c.toNat ∧ c.toNat ≤ hi.toNat :=
    fun h => ⟨UInt32.le_iff_toNat_le.mp h.1, UInt32.le_iff_toNat_le.mp h.2⟩
  rcases h with hdigit | rfl | rfl
  · -- a digit stands in one of the three ranges
    rw [toDigit, digitVal] at hdigit
    split at hdigit
    · next h09 => exact (hrange h09).imp (le_trans (by decide)) (le_trans · (by decide))
    · split at hdigit
      · next haz => exact (hrange haz).imp (le_trans (by decide)) (le_trans · (by decide))
      · split at hdigit
        · next hAZ => exact (hrange hAZ).imp (le_trans (by decide)) (le_trans · (by decide))
        · exact absurd hdigit (by simp)
  · decide
  · decide

theorem isVisible_ipText (ip : IpAddr) : IsVisibleAscii ip.toText := fun c hc =>
  Or.inl (isVisible_of_addrChar (IpAddr.addrChar_of_parse (IpAddr.parse_toText ip) c hc))

/-- The value under which a peer is named. -/
def ipValue (remoteAddr : SocketAddr) : V :=
  (HeaderValue.fromStr remoteAddr.ip.toText).getD (HeaderValue.fromStatic "0.0.0.0".toList)

/-- The fallback is never taken: an address is always a header value. -/
theorem toStr_ipValue (remoteAddr : SocketAddr) :
    HeaderValue.toStr (ipValue remoteAddr : V) = some remoteAddr.ip.toText := by
  obtain ⟨v, hv, hstr⟩ := HeaderValue.toStr_fromStr (V := V) (isVisible_ipText remoteAddr.ip)
  rw [ipValue, hv, Option.getD_some, hstr]

def protoValue : V := HeaderValue.fromStatic "https".toList

theorem toStr_protoValue : HeaderValue.toStr (protoValue : V) = some "https".toList :=
  HeaderValue.toStr_fromStatic (by simp [IsVisibleAscii])

/-! ### The values of every name -/

/-- The names whose values the proxy writes itself. -/
def injectedNames : List Str :=
  ["x-real-ip".toList, "x-forwarded-for".toList, "x-forwarded-proto".toList]

theorem getAll_rewritten (remoteAddr : SocketAddr) (headers : HeaderMap V) (name : Str) :
    Multimap.getAll name (removeHopByHop (injectProxyHeaders remoteAddr headers))
      = if name ∈ hopByHop then []
        else if "x-forwarded-proto".toList = name then [protoValue]
        else if "x-forwarded-for".toList = name then [ipValue remoteAddr]
        else if "x-real-ip".toList = name then [ipValue remoteAddr]
        else Multimap.getAll name headers := by
  rw [removeHopByHop, Multimap.getAll_foldl_remove, injectProxyHeaders, Multimap.getAll_insert,
    Multimap.getAll_insert, Multimap.getAll_insert]
  by_cases hhop : name ∈ hopByHop
  · rw [if_pos hhop, if_pos hhop]
  · rw [if_neg hhop, if_neg hhop]
    rfl

theorem getAll_rewritten_other (remoteAddr : SocketAddr) (headers : HeaderMap V) {name : Str}
    (hinj : name ∉ injectedNames) (hhop : name ∉ hopByHop) :
    Multimap.getAll name (removeHopByHop (injectProxyHeaders remoteAddr headers))
      = Multimap.getAll name headers := by
  rw [getAll_rewritten, if_neg hhop]
  simp only [injectedNames, List.mem_cons, List.not_mem_nil, or_false, not_or] at hinj
  rw [if_neg (Ne.symm hinj.2.2), if_neg (Ne.symm hinj.2.1), if_neg (Ne.symm hinj.1)]

/-- Under a name of the proxy's own the client's values do not matter. -/
theorem getAll_rewritten_own (remoteAddr : SocketAddr) (headers headers' : HeaderMap V)
    {name : Str} (h : name ∈ injectedNames ∨ name ∈ hopByHop) :
    Multimap.getAll name (removeHopByHop (injectProxyHeaders remoteAddr headers))
      = Multimap.getAll name (removeHopByHop (injectProxyHeaders remoteAddr headers')) := by
  rw [getAll_rewritten, getAll_rewritten]
  by_cases hhop : name ∈ hopByHop
  · rw [if_pos hhop, if_pos hhop]
  · have hinj := h.resolve_right hhop
    simp only [injectedNames, List.mem_cons, List.not_mem_nil, or_false] at hinj
    rcases hinj with rfl | rfl | rfl
    · rfl
    · rfl
    · rfl

/-! ### The upstream request -/

/-- What becomes of the headers `sent` by the client at `remoteAddr`. -/
structure Rewritten (remoteAddr : SocketAddr) (sent forwarded : HeaderMap V) : Prop where
  realIp : ∃ v, Multimap.getAll "x-real-ip".toList forwarded = [v] ∧
    HeaderValue.toStr v = some remoteAddr.ip.toText
  forwardedFor : ∃ v, Multimap.getAll "x-forwarded-for".toList forwarded = [v] ∧
    HeaderValue.toStr v = some remoteAddr.ip.toText
  forwardedProto : ∃ v, Multimap.getAll "x-forwarded-proto".toList forwarded = [v] ∧
    HeaderValue.toStr v = some "https".toList
  noHopByHop : ∀ name ∈ hopByHop, Multimap.getAll name forwarded = []
  oneHost : ∃ v, Multimap.getAll hostName forwarded = [v]
  others : ∀ name, name ∉ injectedNames → name ∉ hopByHop → name ≠ hostName →
    Multimap.getAll name forwarded = Multimap.getAll name sent

/-- Two requests that differ at most in the values under the names that the
proxy decides about. -/
structure SameElsewhere (req req' : Request V β) : Prop where
  method : req'.method = req.method
  uri : req'.uri = req.uri
  body : req'.body = req.body
  headers : ∀ name, name ∉ injectedNames → name ∉ hopByHop →
    Multimap.getAll name req'.headers = Multimap.getAll name req.headers

theorem SameElsewhere.pickHost_eq {req req' : Request V β} (h : SameElsewhere req req') :
    pickHost req' = pickHost req := by
  rw [pickHost, pickHost, hostText, hostText, Multimap.get, Multimap.get, h.uri,
    h.headers hostName (by decide) (by decide)]

/-- After the rewriting they do not differ any more. -/
theorem SameElsewhere.getAll_rewritten_eq {req req' : Request V β} (h : SameElsewhere req req')
    (remoteAddr : SocketAddr) (name : Str) :
    Multimap.getAll name (removeHopByHop (injectProxyHeaders remoteAddr req'.headers))
      = Multimap.getAll name (removeHopByHop (injectProxyHeaders remoteAddr req.headers)) := by
  by_cases hown : name ∈ injectedNames ∨ name ∈ hopByHop
  · exact getAll_rewritten_own remoteAddr req'.headers req.headers hown
  · obtain ⟨hinj, hhop⟩ := not_or.mp hown
    rw [getAll_rewritten_other remoteAddr _ hinj hhop,
      getAll_rewritten_other remoteAddr _ hinj hhop, h.headers name hinj hhop]

/-- The Host value that is put back is read off the URI or the Host header. -/
theorem SameElsewhere.hostHeader_eq {req req' : Request V β} (h : SameElsewhere req req')
    (remoteAddr : SocketAddr) :
    hostHeader { req' with
        headers := removeHopByHop (injectProxyHeaders remoteAddr req'.headers) }
      = hostHeader { req with
        headers := removeHopByHop (injectProxyHeaders remoteAddr req.headers) } := by
  simp only [hostHeader, Multimap.get, h.getAll_rewritten_eq, h.uri]

section prepare

variable [Lowercase] {parseUri : Str → Option Uri} {config : DynamicConfig}
  {remoteAddr : SocketAddr} {req : Request V β} {routed : Routed V β}

theorem getAll_of_prepare (h : prepare parseUri config remoteAddr req = .ok routed) {name : Str}
    (hname : name ≠ hostName) : Multimap.getAll name routed.request.headers
      = Multimap.getAll name (removeHopByHop (injectProxyHeaders remoteAddr req.headers)) := by
  obtain ⟨-, -, uri, hbuild⟩ := prepare_eq_ok h
  obtain ⟨host, hhost⟩ := hostHeader_of_buildUpstreamRequest hbuild
  obtain ⟨out, hout, -, -, -, hall⟩ := buildUpstreamRequest_of_hostHeader hhost uri
  rw [Except.ok.inj (hbuild.symm.trans hout), hall name, if_neg (Ne.symm hname)]

theorem rewritten_of_prepare (h : prepare parseUri config remoteAddr req = .ok routed) :
    Rewritten remoteAddr req.headers routed.request.headers where
  realIp := by
    refine ⟨ipValue remoteAddr, ?_, toStr_ipValue remoteAddr⟩
    rw [getAll_of_prepare h (by decide), getAll_rewritten]
    rfl
  forwardedFor := by
    refine ⟨ipValue remoteAddr, ?_, toStr_ipValue remoteAddr⟩
    rw [getAll_of_prepare h (by decide), getAll_rewritten]
    rfl
  forwardedProto := by
    refine ⟨protoValue, ?_, toStr_protoValue⟩
    rw [getAll_of_prepare h (by decide), getAll_rewritten]
    rfl
  noHopByHop name hname := by
    have hhost : name ≠ hostName := by
      rintro rfl
      exact absurd hname (by decide)
    rw [getAll_of_prepare h hhost, getAll_rewritten, if_pos hname]
  oneHost := by
    obtain ⟨v, hv, -⟩ := forwarded_host h
    exact ⟨v, hv⟩
  others name hinj hhop hhost := by
    rw [getAll_of_prepare h hhost, getAll_rewritten_other remoteAddr _ hinj hhop]

/-- The request that the other one becomes is routed alike, and agrees with it
in every header. -/
theorem prepare_of_sameElsewhere (h : prepare parseUri config remoteAddr req = .ok routed)
    {req' : Request V β} (hsame : SameElsewhere req req') :
    ∃ routed', prepare parseUri config remoteAddr req' = .ok routed' ∧
      routed'.host = routed.host ∧ routed'.site = routed.site ∧
      routed'.request.method = routed.request.method ∧
      routed'.request.uri = routed.request.uri ∧ routed'.request.body = routed.request.body ∧
      ∀ name, Multimap.getAll name routed'.request.headers
        = Multimap.getAll name routed.request.headers := by
  obtain ⟨hne, hhost, hsite, uri, huri, hbuild⟩ := prepare_eq_ok_iff.mp h
  obtain ⟨v, hv⟩ := hostHeader_of_buildUpstreamRequest hbuild
  have hv' := (hsame.hostHeader_eq remoteAddr).trans hv
  obtain ⟨out, hout, hmethod, hurl, hbody, hall⟩ := buildUpstreamRequest_of_hostHeader hv uri
  obtain rfl : routed.request = out := Except.ok.inj (hbuild.symm.trans hout)
  obtain ⟨out', hout', hmethod', hurl', hbody', hall'⟩ :=
    buildUpstreamRequest_of_hostHeader hv' uri
  refine ⟨⟨routed.host, routed.site, out'⟩, prepare_eq_ok_iff.mpr ?_, rfl, rfl, ?_, ?_, ?_, ?_⟩
  · rw [hsame.pickHost_eq]
    exact ⟨hne, hhost, hsite, uri, by rw [hsame.uri]; exact huri, hout'⟩
  · rw [hmethod', hmethod]
    exact hsame.method
  · rw [hurl', hurl]
  · rw [hbody', hbody]
    exact hsame.body
  · intro name
    rw [hall', hall]
    by_cases hname : hostName = name
    · rw [if_pos hname, if_pos hname]
    · rw [if_neg hname, if_neg hname]
      dsimp only
      exact hsame.getAll_rewritten_eq remoteAddr name

end prepare

/-! ### The response -/

omit [HeaderValue V] in
theorem getAll_forwardResponse (resp : Response V β) (name : Str) :
    Multimap.getAll name (forwardResponse resp).headers
      = if name ∈ hopByHop ∨ name = "server".toList then []
        else Multimap.getAll name resp.headers := by
  rw [forwardResponse, Multimap.getAll_remove, removeHopByHop, Multimap.getAll_foldl_remove]
  by_cases hserver : "server".toList = name
  · rw [if_pos hserver, if_pos (Or.inr hserver.symm)]
  · rw [if_neg hserver]
    by_cases hhop : name ∈ hopByHop
    · rw [if_pos hhop, if_pos (Or.inl hhop)]
    · rw [if_neg hhop, if_neg (not_or.mpr ⟨hhop, Ne.symm hserver⟩)]

/-- **Header rewriting is exact.**  A routed request reaches the upstream with
the peer's address and the protocol written by the proxy, without hop-by-hop
headers, with one Host value and with all its other headers; the client has no
influence through the names the proxy decides about; and the upstream's
response is passed on without its hop-by-hop headers and `server`. -/
theorem headers_exact [Lowercase] (parseUri : Str → Option Uri) (config : DynamicConfig)
    (remoteAddr : SocketAddr) (req : Request V β) (routed : Routed V β)
    (h : prepare parseUri config remoteAddr req = .ok routed) :
    Rewritten remoteAddr req.headers routed.request.headers ∧
    (∀ req', SameElsewhere req req' →
      ∃ routed', prepare parseUri config remoteAddr req' = .ok routed' ∧
        routed'.site = routed.site ∧
        ∀ name, Multimap.getAll name routed'.request.headers
          = Multimap.getAll name routed.request.headers) ∧
    ∀ t resp name,
      Multimap.getAll name
          (answer remoteAddr req routed ⟨t, some (some (.ok resp))⟩).response.headers
        = if name ∈ hopByHop ∨ name = "server".toList then []
          else Multimap.getAll name resp.headers := by
  refine ⟨rewritten_of_prepare h, fun req' hsame => ?_, fun t resp name => ?_⟩
  · obtain ⟨routed', hrouted', -, hsite, -, -, -, hall⟩ := prepare_of_sameElsewhere h hsame
    exact ⟨routed', hrouted', hsite, hall⟩
  · exact getAll_forwardResponse resp name

/-- A request that names another client and asks for its connection to be
kept. -/
def spoofingRequest : Request Str Unit :=
  { requestWithHost "b.com".toList with
    headers := [(hostName, "b.com".toList), ("x-real-ip".toList, "203.0.113.7".toList),
      ("accept".toList, "text/html".toList), ("connection".toList, "keep-alive".toList),
      ("x-real-ip".toList, "203.0.113.8".toList), ("accept".toList, "*/*".toList)] }

theorem headers_exact_spoofing : letI := asciiLowercase; letI := textHeaderValue
    ∃ routed, prepare (fun _ => some ⟨none, [], none⟩) twoSites samplePeer spoofingRequest
        = .ok routed ∧
      Rewritten samplePeer spoofingRequest.headers routed.request.headers ∧
      Multimap.getAll "x-real-ip".toList routed.request.headers = ["192.0.2.7".toList] ∧
      Multimap.getAll "accept".toList routed.request.headers
        = ["text/html".toList, "*/*".toList] := by
  let _ := asciiLowercase
  let _ := textHeaderValue
  obtain ⟨routed, hrouted⟩ : ∃ routed, prepare (fun _ => some ⟨none, [], none⟩) twoSites
      samplePeer spoofingRequest = .ok routed := ⟨_, rfl⟩
  have hrewritten := (headers_exact _ _ _ _ routed hrouted).1
  refine ⟨routed, hrouted, hrewritten, ?_, ?_⟩
  · rw [← Except.ok.inj hrouted]
    decide +kernel
  · rw [hrewritten.others "accept".toList (by decide) (by decide) (by decide)]
    decide +kernel

end Handler
