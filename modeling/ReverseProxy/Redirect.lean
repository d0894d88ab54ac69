/-
The redirect from HTTP to HTTPS.

The listener for plain HTTP answers every request with the same address under
`https`: the host of the request without its port, the HTTPS port of the
listener unless it is the standard one, and the path and query as they were.
It does not know the sites, so whether the address is good for anything depends
on how the router reads the host that the client will send next.

* `normalizeHost_congr` — the router looks at nothing but the stripped host;
* `stripPortFromHost_authority` — stripping the new port again gives the old
  host, for every host that is routed at all;
* `redirect_lands_on_site` — the redirect leads to the site that the request
  named;
* `redirectHandler_lands` — so does the answer of the listener.
-/
import ReverseProxy.Handler
import ReverseProxy.Routing

open Text AddrParser NetAddr Http Handler Config Validation Routing

namespace Redirect

/-! ### The redirect -/

def acmeChallengePrefix : Str := "/.well-known/acme-challenge/".toList

def portSuffix (httpsPort : UInt16) : Str :=
  if httpsPort = 443 then [] else ':' :: decimal httpsPort.toNat

def pathPart (path : Str) : Str :=
  if path.isEmpty || path.head? ≠ some '/' then '/' :: path else path

def buildRedirectUrl (host : Str) (httpsPort : UInt16) (path query : Str) : Str :=
  let hostname := stripPortFromHost host
  if query.isEmpty then
    "https://".toList ++ hostname ++ portSuffix httpsPort ++ pathPart path
  else
    "https://".toList ++ hostname ++ portSuffix httpsPort ++ pathPart path ++ '?' :: query

section handler

variable {V β : Type} [HeaderValue V]

/-- A text as a response body brings its content type. -/
def textResponse (status : ℕ) (text : Str) : Response V (Body β) where
  status := status
  headers := [("content-type".toList, HeaderValue.fromStatic "text/plain; charset=utf-8".toList)]
  body := .text text

def redirectHandler (httpsPort : UInt16) (req : Request V β) : Response V (Body β) :=
  match (hostText req).filter fun s => !s.isEmpty with
  | none => textResponse 400 "Bad Request".toList
  | some host =>
    let path := req.uri.path
    let query := req.uri.query.getD []
    if acmeChallengePrefix.isPrefixOf path then textResponse 404 "Not Found".toList
    else
      match HeaderValue.fromStr (buildRedirectUrl host httpsPort path query) with
      | some location =>
        let resp := textResponse 301 "301 Moved Permanently".toList
        { resp with headers := Multimap.insert "location".toList location resp.headers }
      | none => textResponse 500 "Internal Server Error".toList

end handler

/-! ### Authority and path -/

/-- What the client will send as its next host. -/
def authority (h : Str) (httpsPort : UInt16) : Str := stripPortFromHost h ++ portSuffix httpsPort

/-- The redirect is to that authority, with path and query. -/
theorem buildRedirectUrl_eq (h : Str) (httpsPort : UInt16) (path query : Str) :
    buildRedirectUrl h httpsPort path query
      = "https://".toList ++ authority h httpsPort ++ pathPart path
        ++ if query = [] then [] else '?' :: query := by
  rw [buildRedirectUrl, authority]
  by_cases hquery : query = []
  · rw [if_pos hquery, hquery]
    simp only [List.isEmpty_nil, if_true, List.append_nil, List.append_assoc]
  · rw [if_neg hquery, if_neg (by rwa [List.isEmpty_iff])]
    simp only [List.append_assoc]

theorem pathPart_eq (path : Str) :
    pathPart path = if path.head? = some '/' then path else '/' :: path := by
  rw [pathPart]
  cases path with
  | nil => rfl
  | cons c path =>
    by_cases hc : c = '/'
    · simp [hc]
    · simp [hc]

theorem slash_not_mem_portSuffix (httpsPort : UInt16) : '/' ∉ portSuffix httpsPort := by
  rw [portSuffix]
  split
  · exact List.not_mem_nil
  · rw [List.mem_cons, not_or]
    exact ⟨by decide, not_mem_decimal (by decide) _⟩

theorem pathPart_cons (path : Str) : ∃ rest, pathPart path = '/' :: rest := by
  rw [pathPart_eq]
  split
  · next hslash =>
    obtain ⟨rest, hrest⟩ := List.head?_eq_some_iff.mp hslash
    exact ⟨rest, hrest⟩
  · exact ⟨path, rfl⟩

/-! ### Hosts that are routed -/

section

variable [Lowercase]

/-- The router looks at nothing but the stripped host. -/
theorem normalizeHost_congr {h h' : Str} (heq : stripPortFromHost h = stripPortFromHost h') :
    normalizeHost h = normalizeHost h' := by
  rw [normalizeHost, normalizeHost, heq]

theorem lookup_congr {h h' : Str} (heq : stripPortFromHost h = stripPortFromHost h')
    (config : DynamicConfig) : config.lookup h = config.lookup h' := by
  rw [DynamicConfig.lookup, DynamicConfig.lookup, normalizeHost_congr heq]

variable [LawfulLowercase]

/-- Normalisation takes away brackets and nothing else. -/
theorem mem_normalizeHost {h : Str} {c : Char} (hascii : c.toNat < 128)
    (hletter : c.isAlpha = false) (hopen : c ≠ '[') (hclose : c ≠ ']')
    (hc : c ∈ stripPortFromHost h) : c ∈ normalizeHost h := by
  have hlower : c ∈ toLowercase (stripPortFromHost h) :=
    (LawfulLowercase.mem_toLowercase hascii hletter).mpr hc
  have hinner : c ∈ (stripPrefix '[' (toLowercase (stripPortFromHost h))).getD
      (toLowercase (stripPortFromHost h)) := by
    cases hstrip : stripPrefix '[' (toLowercase (stripPortFromHost h)) with
    | none => exact hlower
    | some inner => exact mem_of_stripPrefix hstrip hlower hopen
  show c ∈ (stripSuffix ']' ((stripPrefix '[' (toLowercase (stripPortFromHost h))).getD
    (toLowercase (stripPortFromHost h)))).getD (toLowercase (stripPortFromHost h))
  cases hstrip : stripSuffix ']' ((stripPrefix '[' (toLowercase (stripPortFromHost h))).getD
      (toLowercase (stripPortFromHost h))) with
  | none => exact hlower
  | some inner => exact mem_of_stripSuffix hstrip hinner hclose

/-- A bracket that is not closed stays. -/
theorem open_mem_normalizeHost {inner : Str} (hclose : ']' ∉ inner) :
    '[' ∈ normalizeHost ('[' :: inner) := by
  have hlower : '[' ∈ toLowercase ('[' :: inner) :=
    (LawfulLowercase.mem_toLowercase (by decide) (by decide)).mpr List.mem_cons_self
  have hno : ']' ∉ toLowercase ('[' :: inner) := by
    rw [LawfulLowercase.mem_toLowercase (by decide) (by decide), List.mem_cons, not_or]
    exact ⟨by decide, hclose⟩
  have hsuffix : stripSuffix ']' ((stripPrefix '[' (toLowercase ('[' :: inner))).getD
      (toLowercase ('[' :: inner))) = none := by
    refine stripSuffix_eq_none fun hlast => hno ?_
    exact mem_of_mem_getD_stripPrefix (List.mem_of_getLast? hlast)
  rw [normalizeHost, stripPortFromHost_open hclose, hsuffix]
  exact hlower

/-- The host of a routed text has no character that host names do not have,
other than brackets. -/
theorem not_mem_stripped {h host : Str} (hvalid : isValidHostname host = true)
    (heq : normalizeHost h = host.map Char.toLower) {c : Char} (hascii : c.toNat < 128)
    (hletter : c.isAlpha = false) (hhost : isHostChar c = false) (hdot : c ≠ '.')
    (hopen : c ≠ '[') (hclose : c ≠ ']') : c ∉ stripPortFromHost h := by
  intro hc
  have hmem := mem_normalizeHost hascii hletter hopen hclose hc
  rw [heq, mem_map_toLower hletter] at hmem
  exact not_mem_of_isValidHostname hvalid hhost hdot hmem

theorem colon_not_mem_stripped {h host : Str} (hvalid : isValidHostname host = true)
    (heq : normalizeHost h = host.map Char.toLower) : ':' ∉ stripPortFromHost h :=
  not_mem_stripped hvalid heq (by decide) (by decide) (by decide) (by decide) (by decide)
    (by decide)

/-- Of a routed text the stripped host is a text in brackets, or one that opens
none and has no port. -/
theorem stripped_cases {h host : Str} (hvalid : isValidHostname host = true)
    (heq : normalizeHost h = host.map Char.toLower) :
    (∃ inner, stripPortFromHost h = '[' :: inner ++ [']'] ∧ ']' ∉ inner) ∨
      (stripPortFromHost h).head? ≠ some '[' := by
  by_cases hfirst : h.head? = some '['
  · obtain ⟨inner, rfl⟩ := List.head?_eq_some_iff.mp hfirst
    by_cases hclose : ']' ∈ inner
    · obtain ⟨name, rest, rfl, hname⟩ := List.eq_append_cons_of_mem hclose
      exact Or.inl ⟨name, stripPortFromHost_bracket hname rest, hname⟩
    · have hopen := open_mem_normalizeHost hclose
      rw [heq, mem_map_toLower (by decide)] at hopen
      exact absurd hopen (not_mem_of_isValidHostname hvalid (by decide) (by decide))
  · right
    by_cases hcolon : ':' ∈ h
    · obtain ⟨name, port, rfl, hport⟩ := exists_last_of_mem hcolon
      rw [stripPortFromHost_port hfirst hport]
      intro hhead
      exact hfirst (by rw [List.head?_append, hhead]; rfl)
    · rw [stripPortFromHost_noPort hfirst hcolon]
      exact hfirst

/-- Appending the port of the listener and stripping it again. -/
theorem stripPortFromHost_authority {h host : Str} (hvalid : isValidHostname host = true)
    (heq : normalizeHost h = host.map Char.toLower) (httpsPort : UInt16) :
    stripPortFromHost (authority h httpsPort) = stripPortFromHost h := by
  rw [authority]
  have hcolon := colon_not_mem_stripped hvalid heq
  rcases stripped_cases hvalid heq with ⟨inner, hinner, hclose⟩ | hfirst
  · rw [hinner, List.append_assoc, List.singleton_append]
    exact stripPortFromHost_bracket hclose _
  · by_cases hport : httpsPort = 443
    · rw [portSuffix, if_pos hport, List.append_nil]
      exact stripPortFromHost_noPort hfirst hcolon
    · rw [portSuffix, if_neg hport]
      refine stripPortFromHost_port ?_ (not_mem_decimal (by decide) _)
      rw [List.head?_append]
      cases hhead : (stripPortFromHost h).head? with
      | none => exact fun heq => absurd (Option.some_inj.mp heq) (by decide)
      | some c => exact fun heq => hfirst (hhead.trans heq)

theorem lookup_authority {config : DynamicConfig} {h host : Str} {s : SiteConfig}
    (hvalid : isValidHostname host = true) (heq : normalizeHost h = host.map Char.toLower)
    (httpsPort : UInt16) (hlookup : config.lookup h = some s) :
    config.lookup (authority h httpsPort) = some s := by
  rw [lookup_congr (stripPortFromHost_authority hvalid heq httpsPort), hlookup]

/-- **The redirect lands on the site that would have served the request.**  For
an accepted configuration and a host that it routes to a site, the redirect is
to an authority that it routes to the same site, on the HTTPS port, with the
path and the query of the request. -/
theorem redirect_lands_on_site (pathExists : Str → Bool) (full : FullConfig) (cli : Bool)
    (haccept : validate pathExists full.intoStaticAndDynamic.1 full.intoStaticAndDynamic.2 cli
      = .ok ()) (httpsPort : UInt16) (h : Str) (s : SiteConfig)
    (hlookup : full.intoStaticAndDynamic.2.lookup h = some s) (path query : Str) :
    ∃ a p q, buildRedirectUrl h httpsPort path query = "https://".toList ++ a ++ p ++ q ∧
      '/' ∉ a ∧ full.intoStaticAndDynamic.2.lookup a = some s ∧
      (httpsPort ≠ 443 → ∃ name, a = name ++ ':' :: decimal httpsPort.toNat) ∧
      (httpsPort = 443 → ':' ∉ a) ∧
      p = (if path.head? = some '/' then path else '/' :: path) ∧
      q = (if query = [] then [] else '?' :: query) := by
  have hacc := accepted_of_validate pathExists haccept
  obtain ⟨hs, heq⟩ := (lookup_eq_some_iff hacc).mp hlookup
  have hvalid := (hacc.sites s hs).hostname
  refine ⟨authority h httpsPort, pathPart path, if query = [] then [] else '?' :: query,
    buildRedirectUrl_eq .., ?_, ?_, fun hport => ?_, fun hport => ?_, pathPart_eq path, rfl⟩
  · rw [authority, List.mem_append, not_or]
    exact ⟨not_mem_stripped hvalid heq (by decide) (by decide) (by decide) (by decide) (by decide)
      (by decide), slash_not_mem_portSuffix httpsPort⟩
  · exact lookup_authority hvalid heq httpsPort hlookup
  · exact ⟨stripPortFromHost h, by rw [authority, portSuffix, if_neg hport]⟩
  · rw [authority, portSuffix, if_pos hport, List.append_nil]
    exact colon_not_mem_stripped hvalid heq

end

theorem redirect_lands_on_site_sample : letI := asciiLowercase
    ∃ a p q, buildRedirectUrl "[EXAMPLE.com]:x".toList 8443 [] "a=1".toList
        = "https://".toList ++ a ++ p ++ q ∧
      sampleConfig.intoStaticAndDynamic.2.lookup a = some sampleSite := by
  let _ := asciiLowercase
  have := lawful_asciiLowercase
  obtain ⟨a, p, q, hurl, -, hlookup, -⟩ := redirect_lands_on_site (fun _ => true) sampleConfig false
    validate_sampleConfig 8443 "[EXAMPLE.com]:x".toList sampleSite rfl [] "a=1".toList
  exact ⟨a, p, q, hurl, hlookup⟩

/-! ### The listener -/

section

variable {V β : Type} [HeaderValue V]

/-- Where the listener sends a client to. -/
theorem redirectHandler_moved {httpsPort : UInt16} {req : Request V β}
    (hmoved : (redirectHandler httpsPort req).status = 301) :
    ∃ h location, hostText req = some h ∧
      Multimap.get "location".toList (redirectHandler httpsPort req).headers = some location ∧
      HeaderValue.fromStr (buildRedirectUrl h httpsPort req.uri.path (req.uri.query.getD []))
        = some location := by
  unfold redirectHandler at hmoved ⊢
  cases hhost : (hostText req).filter fun s => !s.isEmpty with
  | none =>
    rw [hhost] at hmoved
    exact absurd hmoved (show (400 : ℕ) ≠ 301 by decide)
  | some h =>
    rw [hhost] at hmoved
    simp only at hmoved ⊢
    split at hmoved
    · exact absurd hmoved (show (404 : ℕ) ≠ 301 by decide)
    · next hacme =>
      rw [if_neg hacme]
      split at hmoved
      · next location hvalue =>
        refine ⟨h, location, (Option.filter_eq_some_iff.mp hhost).1, ?_, hvalue⟩
        rw [Multimap.get, Multimap.getAll_insert, if_pos rfl, List.head?_cons]
      · exact absurd hmoved (show (500 : ℕ) ≠ 301 by decide)

variable [Lowercase] [LawfulLowercase]

/-- A client that follows the redirect asks for the site that the proxy itself
would have taken the request to. -/
theorem redirectHandler_lands (pathExists : Str → Bool) (full : FullConfig) (cli : Bool)
    (haccept : validate pathExists full.intoStaticAndDynamic.1 full.intoStaticAndDynamic.2 cli
      = .ok ()) (httpsPort : UInt16) (req : Request V β) (s : SiteConfig)
    (hroute : full.intoStaticAndDynamic.2.lookup (pickHost req) = some s)
    (hmoved : (redirectHandler httpsPort req).status = 301) :
    ∃ a rest location,
      Multimap.get "location".toList (redirectHandler httpsPort req).headers = some location ∧
      HeaderValue.fromStr ("https://".toList ++ a ++ '/' :: rest) = some location ∧
      full.intoStaticAndDynamic.2.lookup a = some s := by
  obtain ⟨h, location, hhost, hget, hvalue⟩ := redirectHandler_moved hmoved
  have hpick : pickHost req = h := by rw [pickHost, hhost, Option.some_or, Option.getD_some]
  rw [hpick] at hroute
  have hacc := accepted_of_validate pathExists haccept
  obtain ⟨hs, heq⟩ := (lookup_eq_some_iff hacc).mp hroute
  obtain ⟨rest, hrest⟩ := pathPart_cons req.uri.path
  rw [buildRedirectUrl_eq, hrest, List.append_assoc, List.cons_append] at hvalue
  refine ⟨authority h httpsPort, _, location, hget, hvalue, ?_⟩
  exact lookup_authority (hacc.sites s hs).hostname heq httpsPort hroute

end

end Redirect
