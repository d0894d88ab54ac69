/-
The URI of an upstream request.

`build_upstream_uri` writes the scheme and the upstream of the site and the path
and query of the request one after the other and parses the text again.  The
validator accepts upstreams by a grammar of its own.

* `cases_of_isValidUpstream` — the upstreams that the validator accepts, told
  apart by their hosts;
* `parse_of_unbracketedIpv6`, `parse_asterisk` — the two texts that do not come
  apart as they were put together;
* `upstream_usable_iff` — those that the parser takes are all but the IPv6
  addresses without brackets;
* `upstream_target_iff` — the parsed URI is the one that was meant unless the
  path is `*`.
-/
import ReverseProxy.ForwardedHost
import ReverseProxy.HostnameGrammar
import ReverseProxy.Routing
import ReverseProxy.UriParser

open Text AddrParser NetAddr Config Http Handler Validation Routing

namespace UpstreamUri

/-! ### Upstreams -/

/-- A host name, an IPv4 address, or an IPv6 address in brackets. -/
def IsUpstreamHost (host : Str) : Prop :=
  isValidHostname host = true ∨ (∃ v4, IpAddr.parse host = some (.v4 v4)) ∨
    ∃ inner ip, host = '[' :: inner ++ [']'] ∧ Ipv6Addr.parse inner = some ip

/-- What stands before the last colon is an IPv6 address without brackets. -/
def UnbracketedIpv6 (upstream : Str) : Prop :=
  ∃ host port ip, upstream = host ++ ':' :: port ∧ ':' ∉ port ∧ Ipv6Addr.parse host = some ip

theorem isNameChar_of_digit {radix : ℕ} (hradix : radix ≤ 36) {c : Char}
    (h : (toDigit radix c).isSome = true) : isNameChar c = true := by
  have hval : digitVal c < 36 := by
    rw [toDigit] at h
    split at h
    · omega
    · cases h
  rw [isNameChar, Bool.or_eq_true]
  left
  rw [digitVal] at hval
  simp only [Char.isAlphanum, Char.isAlpha, Char.isUpper, Char.isLower, Char.isDigit,
    Bool.or_eq_true, Bool.and_eq_true, decide_eq_true_eq]
  split at hval
  · next hrange => exact Or.inr hrange
  · split at hval
    · next hrange => exact Or.inl (Or.inr hrange)
    · split at hval
      · next hrange => exact Or.inl (Or.inl hrange)
      · omega

theorem isNameChar_of_parseU16 {s : Str} {port : UInt16} (h : parseU16 s = some port) :
    ∀ c ∈ s, isNameChar c = true := by
  intro c hc
  rcases digit_or_plus_of_parseU16 h c hc with hdigit | rfl
  · exact isNameChar_of_digit (by omega) hdigit
  · decide

theorem colon_not_mem_of_isNameChar {s : Str} (h : ∀ c ∈ s, isNameChar c = true) : ':' ∉ s :=
  fun hmem => absurd (h _ hmem) (by decide)

/-- The host of an accepted upstream, told apart by whether it may stand in a
URI. -/
theorem cases_of_isValidUpstream {upstream : Str} (h : isValidUpstream upstream = true) :
    ∃ host port, upstream = host ++ ':' :: port ∧ (∀ c ∈ port, isNameChar c = true) ∧
      (IsUpstreamHost host ∨ ∃ ip, Ipv6Addr.parse host = some ip) := by
  obtain ⟨host, port, value, hupstream, hparse, hhost⟩ := hostPart_of_isValidUpstream h
  refine ⟨host, port, hupstream, isNameChar_of_parseU16 hparse, ?_⟩
  rcases hhost with hbracketed | ⟨ip, hip⟩ | hname
  · exact Or.inl (Or.inr (Or.inr hbracketed))
  · cases ip with
    | v4 v4 => exact Or.inl (Or.inr (Or.inl ⟨v4, hip⟩))
    | v6 ip => exact Or.inr ⟨ip, ipv6_of_parse hip⟩
  · exact Or.inl (Or.inl hname)

theorem isNameChar_of_addrChar {c : Char} (h : AddrChar c) (hcolon : c ≠ ':') :
    isNameChar c = true := by
  rcases h with hdigit | rfl | rfl
  · exact isNameChar_of_digit (by omega) hdigit
  · exact absurd rfl hcolon
  · decide

/-- Name characters around one colon. -/
theorem name_colon_name {name port : Str} (hname : ∀ c ∈ name, isNameChar c = true)
    (hport : ∀ c ∈ port, isNameChar c = true) :
    (∀ c ∈ name ++ ':' :: port, isNameChar c = true ∨ c = ':') ∧
      (name ++ ':' :: port).count ':' ≤ 1 := by
  constructor
  · intro c hc
    rcases List.mem_append.mp hc with hc | hc
    · exact Or.inl (hname c hc)
    · rcases List.mem_cons.mp hc with rfl | hc
      · exact Or.inr rfl
      · exact Or.inl (hport c hc)
  · rw [List.count_append, List.count_cons_self,
      List.count_eq_zero_of_not_mem (colon_not_mem_of_isNameChar hname),
      List.count_eq_zero_of_not_mem (colon_not_mem_of_isNameChar hport)]

theorem authorityText_of_host {host port : Str} (hhost : IsUpstreamHost host)
    (hport : ∀ c ∈ port, isNameChar c = true) : AuthorityText (host ++ ':' :: port) := by
  refine ⟨by simp, ?_⟩
  rcases hhost with hname | ⟨v4, hv4⟩ | ⟨inner, ip, rfl, hip⟩
  · have hchars : ∀ c ∈ host, isNameChar c = true := by
      intro c hc
      rcases hostChar_of_isValidHostname hname c hc with hhost | rfl
      · rw [isNameChar, Bool.or_eq_true]
        rcases (Bool.or_eq_true _ _).mp hhost with halnum | hdash
        · exact Or.inl halnum
        · rw [eq_of_beq hdash]
          exact Or.inr (by decide)
      · decide
    exact ⟨[], _, rfl, Or.inl rfl, name_colon_name hchars hport⟩
  · have hcolon := colon_not_mem_of_v4 hv4
    have hchars : ∀ c ∈ host, isNameChar c = true := fun c hc =>
      isNameChar_of_addrChar (IpAddr.addrChar_of_parse hv4 c hc) fun heq => hcolon (heq ▸ hc)
    exact ⟨[], _, rfl, Or.inl rfl, name_colon_name hchars hport⟩
  · have hnone : ∀ c ∈ ([] : Str), isNameChar c = true := fun c hc => absurd hc List.not_mem_nil
    exact ⟨_, ':' :: port, rfl, Or.inr ⟨inner, ip, rfl, hip⟩, name_colon_name hnone hport⟩

theorem not_mem_of_ipv6 {host port : Str} {ip : Ipv6Addr} (hip : Ipv6Addr.parse host = some ip)
    (hport : ∀ c ∈ port, isNameChar c = true) {c : Char} (haddr : ¬ AddrChar c)
    (hname : isNameChar c = false) : c ∉ host ++ ':' :: port := by
  intro hmem
  rcases List.mem_append.mp hmem with hmem | hmem
  · exact haddr (readIpv6Addr_readsOnly.of_parseWith hip c hmem)
  · rcases List.mem_cons.mp hmem with rfl | hmem
    · exact haddr (by decide)
    · exact absurd (hport c hmem) (by rw [hname]; exact Bool.false_ne_true)

/-- Without brackets an IPv6 address and the port make two colons and more. -/
theorem colonsOutside_of_ipv6 {host port : Str} {ip : Ipv6Addr}
    (hip : Ipv6Addr.parse host = some ip) (hport : ∀ c ∈ port, isNameChar c = true) :
    1 < colonsOutside false (host ++ ':' :: port) := by
  rw [colonsOutside_of_no_brackets false (not_mem_of_ipv6 hip hport (by decide) (by decide))
    (not_mem_of_ipv6 hip hport (by decide) (by decide)), if_neg Bool.false_ne_true,
    List.count_append, List.count_cons_self]
  have hpos := List.count_pos_iff.mpr (colon_mem_of_ipv6 hip)
  omega

/-! ### Usable upstreams -/

/-- The URI of the upstream request can be built, and no request that is routed
to the site ends in the branch for a malformed one.  `view` is the accessors of
the parsed URI. -/
def Usable [Lowercase] (uris : UriParser) (view : UriParts → Uri) (config : DynamicConfig)
    (site : SiteConfig) (uri : Uri) : Prop :=
  (buildUpstreamUri uris.parse site.upstreamScheme site.upstream uri).isSome = true ∧
  ∀ (V β : Type) [HeaderValue V] (peer : SocketAddr) (req : Request V β), req.uri = uri →
    pickHost req ≠ [] → config.lookup (pickHost req) = some site →
    prepare (fun s => (uris.parse s).map view) config peer req
      ≠ .error (badGateway peer req (pickHost req) site .malformedUpstreamUri)

theorem buildUpstreamUri_eq {υ : Type} (parse : Str → Option υ) (scheme upstream : Str)
    (uri : Uri) :
    buildUpstreamUri parse scheme upstream uri
      = parse (uriText scheme upstream uri.path uri.query) := rfl

/-- The rest of the upstream request fails only for its Host value. -/
theorem buildUpstreamRequest_error {V β : Type} [HeaderValue V] {req : Request V β} {uri : Uri}
    {failure : UpstreamFailure} (h : buildUpstreamRequest req uri = .error failure) :
    ∃ text, failure = .invalidHost text := by
  cases hhost : hostHeader req with
  | ok host =>
    obtain ⟨out, hout, -⟩ := buildUpstreamRequest_of_hostHeader hhost uri
    rw [hout] at h
    cases h
  | error e =>
    rw [buildUpstreamRequest, hhost] at h
    obtain rfl : e = failure := Except.error.inj h
    rw [hostHeader] at hhost
    split at hhost
    · split at hhost
      · cases hhost
      · exact ⟨_, (Except.error.inj hhost).symm⟩
    · cases hhost

theorem prepare_ne_malformed [Lowercase] {V β : Type} [HeaderValue V]
    {parseUri : Str → Option Uri} {config : DynamicConfig} {peer : SocketAddr}
    {req : Request V β} {site : SiteConfig} (hhost : pickHost req ≠ [])
    (hsite : config.lookup (pickHost req) = some site) {uri : Uri}
    (huri : buildUpstreamUri parseUri site.upstreamScheme site.upstream req.uri = some uri) :
    prepare parseUri config peer req
      ≠ .error (badGateway peer req (pickHost req) site .malformedUpstreamUri) := by
  intro h
  simp only [prepare, if_neg hhost, hsite, huri] at h
  split at h
  · next failure hfailure =>
    obtain ⟨text, rfl⟩ := buildUpstreamRequest_error hfailure
    have hlog := congrArg Outcome.log (Except.error.inj h)
    simp [badGateway] at hlog
  · cases h

theorem not_delim_of_isValidUpstream {upstream : Str} (h : isValidUpstream upstream = true) :
    ∀ c ∈ upstream, isDelim c = false := by
  intro c hc
  by_contra hdelim
  have hchar := upstreamChar_of_isValidUpstream h c hc
  rcases of_decide_eq_true (Bool.eq_true_of_not_eq_false hdelim) with rfl | rfl | rfl
  · exact absurd hchar (by decide)
  · exact absurd hchar (by decide)
  · exact absurd hchar (by decide)

/-- Without brackets the upstream is all of the authority, and has a colon too
many. -/
theorem parse_of_unbracketedIpv6 (uris : UriParser) {scheme upstream path : Str}
    (hscheme : IsScheme scheme) (hvalid : isValidUpstream upstream = true)
    (hipv6 : UnbracketedIpv6 upstream) (hrooted : Rooted path) (query : Option Str) :
    uris.parse (uriText scheme upstream path query) = none := by
  obtain ⟨host, port, hupstream, hport, -⟩ := cases_of_isValidUpstream hvalid
  obtain ⟨host', port', ip, hupstream', hport', hip⟩ := hipv6
  obtain ⟨rfl, rfl⟩ := append_cons_inj_of_last (colon_not_mem_of_isNameChar hport) hport'
    (hupstream.symm.trans hupstream')
  have hauthority := (authorityOf_append (not_delim_of_isValidUpstream hvalid)
    (head_delim hrooted query)).1.trans hupstream
  rw [uriText_eq]
  refine uris.rejects hscheme ?_ ?_ ?_
  · rw [hauthority]
    exact not_mem_of_ipv6 hip hport (by decide) (by decide)
  · rw [hauthority]
    exact not_mem_of_ipv6 hip hport (by decide) (by decide)
  · rw [hauthority]
    exact colonsOutside_of_ipv6 hip hport

theorem parse_of_bracketed (uris : UriParser) {scheme upstream path : Str} {query : Option Str}
    (hscheme : IsScheme scheme) (hvalid : isValidUpstream upstream = true)
    (hbracketed : ¬ UnbracketedIpv6 upstream) (hrooted : Rooted path)
    (hok : uris.pathOk path query) (hfits : uris.fits (uriText scheme upstream path query)) :
    ∃ parts, uris.parse (uriText scheme upstream path query) = some parts := by
  obtain ⟨host, port, hupstream, hport, hhost⟩ := cases_of_isValidUpstream hvalid
  have hhost' : IsUpstreamHost host := by
    rcases hhost with hhost | ⟨ip, hip⟩
    · exact hhost
    · exact absurd ⟨host, port, ip, hupstream, colon_not_mem_of_isNameChar hport, hip⟩ hbracketed
  refine Option.isSome_iff_exists.mp (uris.accepts hscheme ?_ hrooted hok hfits)
  rw [hupstream]
  exact authorityText_of_host hhost' hport

/-- **Usable upstreams.**  For the sites of an accepted configuration and the
request URIs with a path from the root, within the limit on the length, the
upstream URI can be built unless the upstream is an IPv6 address without
brackets. -/
theorem upstream_usable_iff [Lowercase] (uris : UriParser) (view : UriParts → Uri)
    (pathExists : Str → Bool) (full : FullConfig) (cli : Bool)
    (hvalid : validate pathExists full.intoStaticAndDynamic.1 full.intoStaticAndDynamic.2 cli
      = .ok ()) (site : SiteConfig) (hsite : site ∈ allSites full) (uri : Uri)
    (hroot : uri.path.head? = some '/') (hok : uris.pathOk uri.path uri.query)
    (hfits : uris.fits (uriText site.upstreamScheme site.upstream uri.path uri.query)) :
    Usable uris view full.intoStaticAndDynamic.2 site uri ↔ ¬ UnbracketedIpv6 site.upstream := by
  have haccepted : SiteAccepted site := (accepted_of_validate pathExists hvalid).sites site hsite
  have hrooted : Rooted uri.path := Or.inr hroot
  constructor
  · rintro ⟨hsome, -⟩ hipv6
    rw [buildUpstreamUri_eq, parse_of_unbracketedIpv6 uris haccepted.scheme haccepted.upstream
      hipv6 hrooted] at hsome
    cases hsome
  · intro hbracketed
    obtain ⟨parts, hparts⟩ := parse_of_bracketed uris haccepted.scheme haccepted.upstream
      hbracketed hrooted hok hfits
    refine ⟨?_, ?_⟩
    · rw [buildUpstreamUri_eq, hparts, Option.isSome_some]
    · rintro V β _ peer req rfl hpick hlookup
      have huri : buildUpstreamUri (fun text => (uris.parse text).map view) site.upstreamScheme
          site.upstream req.uri = some (view parts) := by
        rw [buildUpstreamUri_eq, hparts, Option.map_some]
      exact prepare_ne_malformed hpick hlookup huri

/-- A view that forgets the authority. -/
def pathView (parts : UriParts) : Uri := ⟨none, parts.path, parts.query⟩

def rootUri : Uri := ⟨none, "/a".toList, some "b=c".toList⟩

theorem upstream_usable_sample : letI := asciiLowercase
    buildUpstreamUri simpleParser.parse sampleSite.upstreamScheme sampleSite.upstream rootUri
      = some ⟨"http".toList, "127.0.0.1:8080".toList, "/a".toList, some "b=c".toList⟩ ∧
    Usable simpleParser pathView sampleConfig.intoStaticAndDynamic.2 sampleSite rootUri := by
  let _ := asciiLowercase
  refine ⟨by decide +kernel, (upstream_usable_iff simpleParser pathView (fun _ => true) sampleConfig
    false validate_sampleConfig sampleSite (by decide +kernel) rootUri rfl trivial ?_).mpr ?_⟩
  · show List.length _ ≤ _
    decide +kernel
  · rintro ⟨host, port, ip, hupstream, hport, hip⟩
    obtain ⟨rfl, -⟩ := append_cons_inj_of_last (by decide) hport
      ((show "127.0.0.1".toList ++ ':' :: "8080".toList = sampleSite.upstream from rfl).trans
        hupstream)
    have hnone : Ipv6Addr.parse "127.0.0.1".toList = none := by decide +kernel
    rw [hnone] at hip
    cases hip

def unbracketedSite : SiteConfig where
  host := "Example.com".toList
  upstream := "::1:3000".toList

def unbracketedConfig : FullConfig :=
  { sampleConfig with listeners := [{ sampleListener with sites := [unbracketedSite] }] }

/-- The validator accepts the IPv6 loopback address without brackets; the URI
cannot be built. -/
theorem unbracketed_malformed : letI := asciiLowercase
    validate (fun _ => true) unbracketedConfig.intoStaticAndDynamic.1
      unbracketedConfig.intoStaticAndDynamic.2 false = .ok () ∧
    unbracketedSite ∈ allSites unbracketedConfig ∧
    buildUpstreamUri simpleParser.parse unbracketedSite.upstreamScheme unbracketedSite.upstream
      rootUri = none :=
  ⟨rfl, List.mem_cons_self, by decide +kernel⟩

/-! ### The target -/

/-- A URI that is built is the configured scheme and upstream with the path and
the query of the request. -/
def HitsTarget (uris : UriParser) (scheme upstream : Str) (uri : Uri) : Prop :=
  ∀ u, buildUpstreamUri uris.parse scheme upstream uri = some u →
    u = ⟨scheme, upstream, if uri.path = [] then "/".toList else uri.path, uri.query⟩

/-- The asterisk is read as the end of the authority. -/
theorem parse_asterisk (uris : UriParser) {scheme host portStr : Str} {query : Option Str}
    (hscheme : IsScheme scheme) (hhost : IsUpstreamHost host)
    (hport : ∀ c ∈ portStr, isNameChar c = true) (hok : uris.pathOk "*".toList query)
    (hfits : uris.fits (uriText scheme (host ++ ':' :: portStr) "*".toList query)) :
    ∃ u, uris.parse (uriText scheme (host ++ ':' :: portStr) "*".toList query) = some u ∧
      u.authority = host ++ ':' :: portStr ++ "*".toList := by
  have hport' : ∀ c ∈ portStr ++ "*".toList, isNameChar c = true := by
    intro c hc
    rcases List.mem_append.mp hc with hc | hc
    · exact hport c hc
    · rw [List.mem_singleton.mp hc]
      decide
  have hauthority : AuthorityText (host ++ ':' :: portStr ++ "*".toList) := by
    rw [List.append_assoc, List.cons_append]
    exact authorityText_of_host hhost hport'
  have htext : uriText scheme (host ++ ':' :: portStr) "*".toList query
      = uriText scheme (host ++ ':' :: portStr ++ "*".toList) [] query := by
    rw [uriText, uriText, List.append_nil, ← List.append_assoc _ (host ++ ':' :: portStr)]
  rw [htext] at hfits ⊢
  obtain ⟨u, hu⟩ := Option.isSome_iff_exists.mp
    (uris.accepts hscheme hauthority (Or.inl rfl) (uris.pathOk_nil hok) hfits)
  refine ⟨u, hu, ?_⟩
  rw [uriText_eq] at hu
  rw [uris.parts hscheme hu]
  exact (authorityOf_append hauthority.not_delim (head_delim (Or.inl rfl) query)).1

/-- **The upstream target.**  For a host name, an IPv4 address or an IPv6 address
in brackets with a port, and a request URI whose path is from the root, empty or
`*`: what is built is the target unless the path is `*`, which is then read as
part of the authority, or the text is over the limit. -/
theorem upstream_target_iff (uris : UriParser) (scheme : Str) (hscheme : IsScheme scheme)
    (host : Str) (hhost : IsUpstreamHost host) (portStr : Str) (port : UInt16)
    (hport : parseU16 portStr = some port) (uri : Uri)
    (hform : Rooted uri.path ∨ uri.path = "*".toList) (hclean : PathAndQuery uri.path uri.query)
    (hok : uris.pathOk uri.path uri.query) :
    HitsTarget uris scheme (host ++ ':' :: portStr) uri ↔
      uri.path ≠ "*".toList ∨
        ¬ uris.fits (uriText scheme (host ++ ':' :: portStr) uri.path uri.query) := by
  have hchars := isNameChar_of_parseU16 hport
  constructor
  · intro htarget
    by_contra hno
    obtain ⟨hstar, hfits⟩ := not_or.mp hno
    rw [not_not] at hstar hfits
    rw [hstar] at hok hfits
    obtain ⟨u, hu, hauthority⟩ := parse_asterisk uris hscheme hhost hchars hok hfits
    have hsame := htarget u (by rw [buildUpstreamUri_eq, hstar, hu])
    rw [hsame] at hauthority
    exact absurd (congrArg List.length hauthority) (by simp)
  · rintro (hpath | hlong) u hu
    · have hroot : Rooted uri.path := hform.resolve_right hpath
      have hauthority := authorityText_of_host hhost hchars
      rw [buildUpstreamUri_eq, uriText_eq] at hu
      rw [uris.parts hscheme hu, splitParts_append scheme hauthority.not_delim hroot hclean]
    · rw [buildUpstreamUri_eq, uris.tooLong hlong] at hu
      cases hu

theorem upstream_target_sample :
    HitsTarget simpleParser "https".toList ("[::1]".toList ++ ':' :: "8443".toList) rootUri := by
  refine (upstream_target_iff simpleParser "https".toList (Or.inr rfl) "[::1]".toList
    (Or.inr (Or.inr ⟨"::1".toList, ⟨[0, 0, 0, 0, 0, 0, 0, 1], rfl⟩, rfl, ?_⟩)) "8443".toList 8443
    ?_ rootUri (Or.inl (Or.inr rfl)) ⟨?_, ?_⟩ trivial).mpr (Or.inl ?_)
  · decide +kernel
  · decide +kernel
  · simp [rootUri, isPathEnd]
  · rintro q hq
    obtain rfl : "b=c".toList = q := Option.some_inj.mp hq
    decide
  · decide

/-- `OPTIONS *`: the asterisk ends up behind the port, and the path is lost. -/
theorem asterisk_in_authority :
    buildUpstreamUri simpleParser.parse "http".toList "10.0.0.1:80".toList
      ⟨none, "*".toList, none⟩
      = some ⟨"http".toList, "10.0.0.1:80*".toList, "/".toList, none⟩ ∧
    ¬ HitsTarget simpleParser "http".toList "10.0.0.1:80".toList ⟨none, "*".toList, none⟩ := by
  have hbuilt : buildUpstreamUri simpleParser.parse "http".toList "10.0.0.1:80".toList
      ⟨none, "*".toList, none⟩
      = some ⟨"http".toList, "10.0.0.1:80*".toList, "/".toList, none⟩ := by decide +kernel
  refine ⟨hbuilt, fun htarget => ?_⟩
  exact absurd (htarget _ hbuilt) (by decide +kernel)

end UpstreamUri
