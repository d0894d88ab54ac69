/-
What `validate` reports.

The loops of `validate` carry sets of keys from one listener or site to the
next.  Up to the order of the errors they say this: the errors of each listener
and of each site alone, and each repeated key once less than it occurs.

* `validationErrors_perm` — the report;
* `validate_iff` — the accepted configurations, rule by rule;
* `reordered_report` — listeners and sites may be written in any order, and
  sites under any listener.
-/
import ReverseProxy.Repeats
import ReverseProxy.Routing

open Text Config List

namespace Validation

/-! ### The errors of one listener and of one site -/

section

variable (pathExists : Str → Bool)

def listenerErrors (allowWildcard : Bool) (l : ListenerConfig) : List ValidationError :=
  errorIf (l.bindAddr = "0.0.0.0".toList ∧ ¬ allowWildcard)
    (.wildcardBindNotAllowed l.bindAddr) ++
  errorIf (l.httpsPort = 0) (.httpsPortInvalid l.bindAddr l.httpsPort) ++
  errorIf (0 < l.httpPort ∧ l.httpPort = l.httpsPort)
    (.httpsAndHttpPortSame l.bindAddr l.httpPort l.httpsPort) ++
  tlsErrors pathExists l

/-- The keys of the HTTP ports that are in use. -/
def httpKeys (ls : List ListenerConfig) : List (Str × UInt16) :=
  (ls.filter (0 < ·.httpPort)).map ListenerConfig.httpKey

/-- A reported key as an error, whatever the membership is decided by. -/
theorem map_ite_singleton {κ : Type} {k : κ} {c : Prop} {inst inst' : Decidable c}
    (f : κ → ValidationError) : (@ite _ c inst [k] []).map f = @errorIf c inst' (f k) := by
  rw [errorIf]
  by_cases hc : c
  · rw [if_pos hc, if_pos hc, map_singleton]
  · rw [if_neg hc, if_neg hc, map_nil]

theorem scanListeners_perm (allowWildcard : Bool) (ls : List ListenerConfig) :
    ∀ seen seen' : List (Str × UInt16),
    (scanListeners pathExists allowWildcard seen seen' ls).Perm
      (ls.flatMap (listenerErrors pathExists allowWildcard) ++
        (repeats seen (ls.map ListenerConfig.httpsKey)).map
          (fun k => .duplicateHttpsBind k.1 k.2) ++
        (repeats seen' (httpKeys ls)).map fun k => .duplicateHttpBind k.1 k.2) := by
  induction ls with
  | nil => exact fun seen seen' => .nil
  | cons l ls ih =>
    intro seen seen'
    refine perm_iff_count.mpr fun e => ?_
    have hhttps : (repeats seen ((l :: ls).map ListenerConfig.httpsKey)).map
        (fun k => ValidationError.duplicateHttpsBind k.1 k.2) =
          errorIf (ListenerConfig.httpsKey l ∈ seen) (.duplicateHttpsBind l.bindAddr l.httpsPort) ++
          (repeats (ListenerConfig.httpsKey l :: seen) (ls.map ListenerConfig.httpsKey)).map
            fun k => .duplicateHttpsBind k.1 k.2 := by
      rw [map_cons, repeats, map_append]
      exact congrArg (· ++ _) (map_ite_singleton _)
    -- a disabled HTTP port has no key
    have hhttp : (repeats seen' (httpKeys (l :: ls))).map
        (fun k => ValidationError.duplicateHttpBind k.1 k.2) =
          errorIf (0 < l.httpPort ∧ ListenerConfig.httpKey l ∈ seen')
            (.duplicateHttpBind l.bindAddr l.httpPort) ++
          (repeats (if 0 < l.httpPort then ListenerConfig.httpKey l :: seen' else seen')
            (httpKeys ls)).map fun k => .duplicateHttpBind k.1 k.2 := by
      by_cases hpos : 0 < l.httpPort
      · rw [httpKeys, filter_cons_of_pos (by simpa using hpos), map_cons, repeats, map_append,
          if_pos hpos]
        simp only [hpos, true_and]
        exact congrArg (· ++ _) (map_ite_singleton _)
      · rw [httpKeys, filter_cons_of_neg (by simpa using hpos), if_neg hpos]
        simp only [hpos, false_and, errorIf, if_false, nil_append]
        rfl
    have hrest := (ih (ListenerConfig.httpsKey l :: seen)
      (if 0 < l.httpPort then ListenerConfig.httpKey l :: seen' else seen')).count_eq e
    rw [hhttps, hhttp]
    simp only [scanListeners, flatMap_cons, listenerErrors, count_append] at hrest ⊢
    omega

def siteErrors (s : SiteConfig) : List ValidationError :=
  errorIf (s.host = []) (.siteHostEmpty []) ++
  errorIf (s.upstream = []) (.siteUpstreamEmpty s.host) ++
  errorIf (':' ∈ s.host) (.siteHostContainsPort s.host) ++
  errorIf (¬ isValidHostname s.host) (.siteHostInvalid s.host) ++
  errorIf (s.upstream ≠ [] ∧ ¬ isValidUpstream s.upstream)
    (.upstreamInvalid s.host s.upstream) ++
  errorIf (s.upstreamScheme ≠ "http".toList ∧ s.upstreamScheme ≠ "https".toList)
    (.upstreamSchemeInvalid s.host s.upstreamScheme)

theorem scanSites_perm [Lowercase] (sites : List SiteConfig) : ∀ seen : List Str,
    (scanSites seen sites).Perm
      (sites.flatMap siteErrors ++ (repeats seen (hostKeys sites)).map .duplicateSiteHost) := by
  induction sites with
  | nil => exact fun seen => .nil
  | cons s sites ih =>
    intro seen
    refine perm_iff_count.mpr fun e => ?_
    have hhosts : (repeats seen (hostKeys (s :: sites))).map ValidationError.duplicateSiteHost =
        errorIf (toLowercase s.host ∈ seen) (.duplicateSiteHost (toLowercase s.host)) ++
        (repeats (toLowercase s.host :: seen) (hostKeys sites)).map .duplicateSiteHost := by
      rw [hostKeys, map_cons, repeats, map_append]
      exact congrArg (· ++ _) (map_ite_singleton _)
    have hrest := (ih (toLowercase s.host :: seen)).count_eq e
    rw [hhosts]
    simp only [scanSites, flatMap_cons, siteErrors, count_append] at hrest ⊢
    omega

/-! ### The report -/

variable [Lowercase]

/-- What does not depend on single listeners and sites. -/
def settingErrors (staticConfig : StaticConfig) (dynamicConfig : DynamicConfig) :
    List ValidationError :=
  errorIf (dynamicConfig.rateLimit.requestsPerSecond = 0) (.requestsPerSecondZero 0) ++
  errorIf (dynamicConfig.body.limitBytes = 0) (.bodyLimitBytesZero 0) ++
  adminKeyPathErrors staticConfig.adminKeyPath ++
  errorIf (staticConfig.connectionIdleTimeoutSecs = 0)
    (.connectionIdleTimeoutZero staticConfig.connectionIdleTimeoutSecs) ++
  errorIf (staticConfig.tlsHandshakeTimeoutSecs = 0)
    (.tlsHandshakeTimeoutZero staticConfig.tlsHandshakeTimeoutSecs) ++
  errorIf (staticConfig.maxConnections = 0) (.maxConnectionsZero staticConfig.maxConnections)

/-- The errors of a configuration with these listeners and sites. -/
def report (staticConfig : StaticConfig) (dynamicConfig : DynamicConfig) (cli : Bool)
    (ls : List ListenerConfig) (sites : List SiteConfig) : List ValidationError :=
  errorIf (ls = []) .noListeners ++
  ls.flatMap (listenerErrors pathExists (staticConfig.allowWildcardBind || cli)) ++
  (repeats [] (ls.map ListenerConfig.httpsKey)).map (fun k => .duplicateHttpsBind k.1 k.2) ++
  (repeats [] (httpKeys ls)).map (fun k => .duplicateHttpBind k.1 k.2) ++
  (if 0 < staticConfig.healthCheckPort then
    ls.flatMap (healthCheckErrors staticConfig.healthCheckPort)
  else []) ++
  sites.flatMap siteErrors ++
  (repeats [] (hostKeys sites)).map .duplicateSiteHost ++
  settingErrors staticConfig dynamicConfig

theorem validationErrors_perm (staticConfig : StaticConfig) (dynamicConfig : DynamicConfig)
    (cli : Bool) :
    (validationErrors pathExists staticConfig dynamicConfig cli).Perm
      (report pathExists staticConfig dynamicConfig cli staticConfig.listeners
        (staticConfig.listeners.flatMap (·.sites))) := by
  refine perm_iff_count.mpr fun e => ?_
  have hlisteners := (scanListeners_perm pathExists (staticConfig.allowWildcardBind || cli)
    staticConfig.listeners [] []).count_eq e
  have hsites := (scanSites_perm (staticConfig.listeners.flatMap (·.sites)) []).count_eq e
  simp only [validationErrors, report, settingErrors, count_append] at hlisteners hsites ⊢
  omega

/-! ### What is accepted -/

/-- A TLS section; a mode that is neither of the two is not looked at. -/
structure TlsValid (tls : TlsConfig) : Prop where
  acme : tls.mode = "acme".toList → tls.acmeDomains ≠ [] ∧
    ∃ email, tls.acmeContact = "mailto:".toList ++ email ∧ '@' ∈ email
  manual : tls.mode = "manual".toList → tls.certPath ≠ [] ∧ tls.keyPath ≠ [] ∧
    pathExists tls.certPath = true ∧ pathExists tls.keyPath = true

structure ListenerValid (allowWildcard : Bool) (l : ListenerConfig) : Prop where
  wildcard : l.bindAddr = "0.0.0.0".toList → allowWildcard = true
  ports : PortsAccepted l
  tls : TlsValid pathExists l.tls

/-- The rules of a configuration. -/
structure Valid (staticConfig : StaticConfig) (dynamicConfig : DynamicConfig) (cli : Bool) :
    Prop where
  nonempty : staticConfig.listeners ≠ []
  listeners : ∀ l ∈ staticConfig.listeners,
    ListenerValid pathExists (staticConfig.allowWildcardBind || cli) l
  accepted : Accepted staticConfig
  requestsPerSecond : dynamicConfig.rateLimit.requestsPerSecond ≠ 0
  limitBytes : dynamicConfig.body.limitBytes ≠ 0
  adminKeyPath : staticConfig.adminKeyPath = [] ∨
    staticConfig.adminKeyPath.head? = some '/' ∧ ¬ "..".toList <:+: staticConfig.adminKeyPath
  connectionIdleTimeout : staticConfig.connectionIdleTimeoutSecs ≠ 0
  tlsHandshakeTimeout : staticConfig.tlsHandshakeTimeoutSecs ≠ 0
  maxConnections : staticConfig.maxConnections ≠ 0

omit [Lowercase] in
theorem contact_valid_iff (contact : Str) :
    ¬ ((contact = [] ∨ ¬ "mailto:".toList <+: contact) ∨
        (contact.drop 7 = [] ∨ '@' ∉ contact.drop 7)) ↔
      ∃ email, contact = "mailto:".toList ++ email ∧ '@' ∈ email := by
  constructor
  · intro h
    push Not at h
    obtain ⟨⟨-, email, hemail⟩, -, hat⟩ := h
    refine ⟨email, hemail.symm, ?_⟩
    rw [← hemail] at hat
    exact hat
  · rintro ⟨email, rfl, hat⟩
    push Not
    refine ⟨⟨by simp, prefix_append _ _⟩, ?_, hat⟩
    rintro hnil
    have hnil' : email = [] := hnil
    rw [hnil'] at hat
    cases hat

omit [Lowercase] in
theorem tlsErrors_eq_nil {l : ListenerConfig} :
    tlsErrors pathExists l = [] ↔ TlsValid pathExists l.tls := by
  rw [tlsErrors]
  split
  · next hacme =>
    have hmanual : l.tls.mode ≠ "manual".toList := by rw [hacme]; decide
    rw [append_eq_nil_iff, errorIf_eq_nil]
    have hcontact : (if l.tls.acmeContact = [] ∨ ¬ "mailto:".toList <+: l.tls.acmeContact then
        [ValidationError.acmeContactInvalid l.bindAddr]
      else errorIf (l.tls.acmeContact.drop 7 = [] ∨ '@' ∉ l.tls.acmeContact.drop 7)
        (.acmeContactInvalid l.bindAddr)) = [] ↔
          ∃ email, l.tls.acmeContact = "mailto:".toList ++ email ∧ '@' ∈ email := by
      rw [← contact_valid_iff]
      split
      · next h => exact iff_of_false (by simp) fun hnot => hnot (Or.inl h)
      · next h => rw [errorIf_eq_nil, or_iff_right h]
    rw [hcontact]
    exact ⟨fun h => ⟨fun _ => h, fun hmode => absurd hmode hmanual⟩, fun h => h.acme hacme⟩
  · next hacme =>
    split
    · next hmanual =>
      split
      · next hmissing =>
        refine iff_of_false (by simp) fun h => ?_
        obtain ⟨hcert, hkey, -⟩ := h.manual hmanual
        exact hmissing.elim hcert hkey
      · next hpaths =>
        obtain ⟨hcert, hkey⟩ := not_or.mp hpaths
        rw [append_eq_nil_iff, errorIf_eq_nil, errorIf_eq_nil, not_not, not_not]
        refine ⟨fun h => ⟨fun hmode => absurd hmode hacme, fun _ => ⟨hcert, hkey, h⟩⟩, fun h => ?_⟩
        exact (h.manual hmanual).2.2
    · next hmanual =>
      exact iff_of_true rfl ⟨fun hmode => absurd hmode hacme, fun hmode => absurd hmode hmanual⟩

omit [Lowercase] in
theorem listenerErrors_eq_nil {allowWildcard : Bool} {l : ListenerConfig} :
    listenerErrors pathExists allowWildcard l = [] ↔
      ListenerValid pathExists allowWildcard l := by
  simp only [listenerErrors, append_eq_nil_iff, errorIf_eq_nil, tlsErrors_eq_nil]
  constructor
  · rintro ⟨⟨⟨hwildcard, hzero⟩, hsame⟩, htls⟩
    exact ⟨fun haddr => not_not.mp fun hflag => hwildcard ⟨haddr, hflag⟩,
      ⟨hzero, fun hpos heq => hsame ⟨hpos, heq⟩⟩, htls⟩
  · rintro ⟨hwildcard, ⟨hzero, hsame⟩, htls⟩
    exact ⟨⟨⟨fun h => h.2 (hwildcard h.1), hzero⟩, fun h => hsame h.1 h.2⟩, htls⟩

omit [Lowercase] in
theorem siteErrors_eq_nil {s : SiteConfig} : siteErrors s = [] ↔ SiteAccepted s := by
  simp only [siteErrors, append_eq_nil_iff, errorIf_eq_nil]
  constructor
  · rintro ⟨⟨⟨⟨⟨-, hne⟩, -⟩, hhost⟩, hupstream⟩, hscheme⟩
    exact ⟨not_not.mp hhost, not_not.mp fun hinvalid => hupstream ⟨hne, hinvalid⟩,
      or_iff_not_and_not.mpr hscheme⟩
  · rintro ⟨hhost, hupstream, hscheme⟩
    have hcolon : ':' ∉ s.host :=
      Routing.not_mem_of_isValidHostname hhost (by decide) (by decide)
    have hne : s.upstream ≠ [] := by
      intro hnil
      rw [hnil] at hupstream
      exact absurd hupstream (by decide)
    exact ⟨⟨⟨⟨⟨Routing.ne_nil_of_isValidHostname hhost, hne⟩, hcolon⟩, not_not.mpr hhost⟩,
      fun h => h.2 hupstream⟩, or_iff_not_and_not.mp hscheme⟩

omit [Lowercase] in
theorem adminKeyPathErrors_eq_nil {path : Str} :
    adminKeyPathErrors path = [] ↔
      path = [] ∨ path.head? = some '/' ∧ ¬ "..".toList <:+: path := by
  rw [adminKeyPathErrors]
  split
  · next hnil => exact iff_of_true rfl (Or.inl hnil)
  · next hne =>
    split
    · next hrelative => simp [hne, hrelative]
    · next habsolute => simp [hne, not_not.mp habsolute]

omit [Lowercase] in
theorem healthCheckErrors_eq_nil {port : UInt16} {l : ListenerConfig} :
    healthCheckErrors port l = [] ↔
      port ≠ l.httpsPort ∧ (0 < l.httpPort → port ≠ l.httpPort) := by
  simp only [healthCheckErrors, append_eq_nil_iff, errorIf_eq_nil, not_and, ne_eq]

/-- **What is accepted.**  `validate` accepts a configuration exactly if it
keeps all the rules. -/
theorem validate_iff (staticConfig : StaticConfig) (dynamicConfig : DynamicConfig) (cli : Bool) :
    validate pathExists staticConfig dynamicConfig cli = .ok () ↔
      Valid pathExists staticConfig dynamicConfig cli := by
  have hreport : validationErrors pathExists staticConfig dynamicConfig cli = [] ↔
      report pathExists staticConfig dynamicConfig cli staticConfig.listeners
        (staticConfig.listeners.flatMap (·.sites)) = [] := by
    have hperm := validationErrors_perm pathExists staticConfig dynamicConfig cli
    exact ⟨fun h => (h ▸ hperm).nil_eq.symm, fun h => (h ▸ hperm).eq_nil⟩
  have hhealth : (if 0 < staticConfig.healthCheckPort then
      staticConfig.listeners.flatMap (healthCheckErrors staticConfig.healthCheckPort)
    else []) = [] ↔ (0 < staticConfig.healthCheckPort → ∀ l ∈ staticConfig.listeners,
      staticConfig.healthCheckPort ≠ l.httpsPort ∧
        (0 < l.httpPort → staticConfig.healthCheckPort ≠ l.httpPort)) := by
    split
    · next hpos =>
      simp only [flatMap_eq_nil_iff, healthCheckErrors_eq_nil, hpos, true_implies]
    · next hzero => exact iff_of_true rfl fun hpos => absurd hpos hzero
  rw [validate_eq_ok, hreport]
  simp only [report, settingErrors, append_eq_nil_iff, errorIf_eq_nil, flatMap_eq_nil_iff,
    map_eq_nil_iff, repeats_eq_nil, hhealth, listenerErrors_eq_nil, siteErrors_eq_nil,
    adminKeyPathErrors_eq_nil]
  constructor
  · rintro ⟨⟨⟨⟨⟨⟨⟨hne, hlisteners⟩, hhttps⟩, hhttp⟩, hhealth⟩, hsites⟩, hhosts⟩,
      ⟨⟨⟨⟨hrate, hlimit⟩, hadmin⟩, hidle⟩, htls⟩, hmax⟩
    exact ⟨hne, hlisteners, ⟨hhttps.1, hhttp.1, fun l hl => (hlisteners l hl).ports, hhealth,
      hsites, hhosts.1⟩, hrate, hlimit, hadmin, hidle, htls, hmax⟩
  · rintro ⟨hne, hlisteners, ⟨hhttps, hhttp, -, hhealth, hsites, hhosts⟩, hrate, hlimit, hadmin,
      hidle, htls, hmax⟩
    exact ⟨⟨⟨⟨⟨⟨⟨hne, hlisteners⟩, hhttps, by simp⟩, hhttp, by simp⟩, hhealth⟩, hsites⟩, hhosts,
      by simp⟩, ⟨⟨⟨⟨hrate, hlimit⟩, hadmin⟩, hidle⟩, htls⟩, hmax⟩

/-! ### Another order -/

/-- A listener without its sites. -/
def withoutSites (l : ListenerConfig) : ListenerConfig := { l with sites := [] }

/-- The same listeners and the same sites, in another order; the sites may also
stand under other listeners. -/
structure Reordered (full full' : FullConfig) : Prop where
  listeners : (full.listeners.map withoutSites).Perm (full'.listeners.map withoutSites)
  sites : (Routing.allSites full).Perm (Routing.allSites full')
  rest : { full with listeners := full'.listeners } = full'

omit [Lowercase] in
theorem httpKeys_map_withoutSites (ls : List ListenerConfig) :
    httpKeys (ls.map withoutSites) = httpKeys ls := by
  rw [httpKeys, filter_map, map_map]
  rfl

/-- The rules for listeners do not look at the sites. -/
theorem report_withoutSites (staticConfig : StaticConfig) (dynamicConfig : DynamicConfig)
    (cli : Bool) (ls : List ListenerConfig) (sites : List SiteConfig) :
    report pathExists staticConfig dynamicConfig cli (ls.map withoutSites) sites =
      report pathExists staticConfig dynamicConfig cli ls sites := by
  simp only [report, map_eq_nil_iff, flatMap_map, map_map, httpKeys_map_withoutSites]
  rfl

theorem report_perm (staticConfig : StaticConfig) (dynamicConfig : DynamicConfig) (cli : Bool)
    {ls ls' : List ListenerConfig} {sites sites' : List SiteConfig} (hls : ls.Perm ls')
    (hsites : sites.Perm sites') :
    (report pathExists staticConfig dynamicConfig cli ls sites).Perm
      (report pathExists staticConfig dynamicConfig cli ls' sites') := by
  have hnil : ls = [] ↔ ls' = [] :=
    ⟨fun h => (h ▸ hls).nil_eq.symm, fun h => (h ▸ hls).eq_nil⟩
  have hhttps := repeats_perm (hls.map ListenerConfig.httpsKey) []
  have hhttp := repeats_perm ((hls.filter (0 < ·.httpPort)).map ListenerConfig.httpKey) []
  have hhosts : (repeats [] (hostKeys sites)).Perm (repeats [] (hostKeys sites')) :=
    repeats_perm (hsites.map _) []
  refine .append (.append (.append (.append (.append (.append (.append ?_ ?_) ?_) ?_) ?_) ?_) ?_)
    .rfl
  · simp only [errorIf, hnil]
    exact .rfl
  · exact hls.flatMap_right _
  · exact hhttps.map _
  · exact hhttp.map _
  · split
    · exact hls.flatMap_right _
    · exact .nil
  · exact hsites.flatMap_right _
  · exact hhosts.map _

theorem Reordered.errors {full full' : FullConfig} (h : Reordered full full') (cli : Bool) :
    (validationErrors pathExists full.intoStaticAndDynamic.1 full.intoStaticAndDynamic.2 cli).Perm
      (validationErrors pathExists full'.intoStaticAndDynamic.1 full'.intoStaticAndDynamic.2
        cli) := by
  refine (validationErrors_perm pathExists _ _ cli).trans
    (.trans ?_ (validationErrors_perm pathExists _ _ cli).symm)
  rw [← report_withoutSites pathExists full.intoStaticAndDynamic.1,
    ← report_withoutSites pathExists full'.intoStaticAndDynamic.1]
  have hsame : report pathExists full'.intoStaticAndDynamic.1 full'.intoStaticAndDynamic.2 cli =
      report pathExists full.intoStaticAndDynamic.1 full.intoStaticAndDynamic.2 cli := by
    rw [← h.rest]
    rfl
  rw [hsame]
  exact report_perm pathExists _ _ cli h.listeners h.sites

/-- **The order does not matter.**  When listeners and sites are written in
another order, or sites under another listener, the same errors are reported;
and if there are none, every host is routed as before. -/
theorem reordered_report (full full' : FullConfig) (h : Reordered full full') (cli : Bool) :
    (validationErrors pathExists full.intoStaticAndDynamic.1 full.intoStaticAndDynamic.2 cli).Perm
      (validationErrors pathExists full'.intoStaticAndDynamic.1 full'.intoStaticAndDynamic.2
        cli) ∧
    (validate pathExists full.intoStaticAndDynamic.1 full.intoStaticAndDynamic.2 cli = .ok () →
      ∀ host, full'.intoStaticAndDynamic.2.lookup host
        = full.intoStaticAndDynamic.2.lookup host) := by
  refine ⟨h.errors pathExists cli, fun hvalid host => ?_⟩
  have hvalid' : validate pathExists full'.intoStaticAndDynamic.1 full'.intoStaticAndDynamic.2 cli
      = .ok () := by
    rw [validate_eq_ok] at hvalid ⊢
    exact (hvalid ▸ h.errors pathExists cli).nil_eq.symm
  refine Option.ext fun s => ?_
  rw [Routing.lookup_eq_some_iff (accepted_of_validate pathExists hvalid'),
    Routing.lookup_eq_some_iff (accepted_of_validate pathExists hvalid), h.sites.mem_iff]

end

/-- A second listener, without HTTP. -/
def secondListener : ListenerConfig where
  bindAddr := "127.0.0.2".toList
  httpPort := 0
  tls := Routing.sampleListener.tls

def twoListeners : FullConfig :=
  { Routing.sampleConfig with listeners := [Routing.sampleListener, secondListener] }

/-- The other order, with the site under the other listener. -/
def twoListenersSwapped : FullConfig :=
  { Routing.sampleConfig with
    listeners := [{ secondListener with sites := [Routing.sampleSite] },
      { Routing.sampleListener with sites := [] }] }

theorem reordered_report_swapped : letI := asciiLowercase
    twoListenersSwapped.intoStaticAndDynamic.2.lookup "EXAMPLE.com:443".toList
      = twoListeners.intoStaticAndDynamic.2.lookup "EXAMPLE.com:443".toList := by
  let _ := asciiLowercase
  have hreordered : Reordered twoListeners twoListenersSwapped :=
    ⟨by decide +kernel, by decide +kernel, by decide +kernel⟩
  have hvalid : validate (fun _ => true) twoListeners.intoStaticAndDynamic.1
      twoListeners.intoStaticAndDynamic.2 false = .ok () := by
    rw [validate_eq_ok]
    decide +kernel
  exact (reordered_report (fun _ => true) twoListeners twoListenersSwapped hreordered false).2
    hvalid _

end Validation
