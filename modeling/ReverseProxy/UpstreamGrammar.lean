/-
The grammar of upstreams.

`is_valid_upstream` cuts the text at its last colon, parses the port, and tries
the host as an IPv6 address in brackets, as an address, and as a host name.
It also refuses a text that begins with `http://` or `https://`.

* `parseU16_eq_some` — the ports: digits, with a plus in front or not;
* `isHostname_of_v4`, `parse_of_ipv6` — the two kinds of addresses, one of
  which looks like a host name and the other does not;
* `isValidUpstream_iff` — the grammar, in which the refusal of the two schemes
  has no place: what follows them is never accepted.
-/
import ReverseProxy.HostnameGrammar
import ReverseProxy.Routing

open Text AddrParser NetAddr Validation Hostname Routing

namespace AddrParser

/-! ### What a number reader takes -/

theorem readDigits_length {radix limit : ℕ} {maxDigits : Option ℕ} {s : Str} :
    ∀ {acc count v n : ℕ} {t : Str},
      readDigits radix limit maxDigits acc count s = some ((v, n), t) →
        n + t.length = count + s.length := by
  induction s with
  | nil =>
    intro acc count v n t h
    simp only [readDigits, Option.some_inj, Prod.mk.injEq] at h
    obtain ⟨⟨-, rfl⟩, rfl⟩ := h
    rfl
  | cons c s ih =>
    intro acc count v n t h
    rw [readDigits] at h
    split at h
    · simp only [Option.some_inj, Prod.mk.injEq] at h
      obtain ⟨⟨-, rfl⟩, rfl⟩ := h
      rfl
    · split at h
      · have hrest := ih h
        rw [List.length_cons]
        omega
      · cases h

/-- A number has at least one digit. -/
theorem digits_of_readNumber {radix limit : ℕ} {maxDigits : Option ℕ} {zero : Bool} {s t : Str}
    {v : ℕ} (h : readNumber radix limit maxDigits zero s = some (v, t)) :
    ∃ ds, ds ≠ [] ∧ AllDigits radix ds ∧ s = ds ++ t := by
  obtain ⟨ds, rfl, hds⟩ := readNumber_readsOnly radix limit maxDigits zero s v t h
  refine ⟨ds, ?_, hds, rfl⟩
  rintro rfl
  rw [readNumber] at h
  split at h
  · cases h
  · next w count rest hread =>
    split at h
    · cases h
    · next hcount =>
      split at h
      · cases h
      · obtain ⟨rfl, rfl⟩ := Prod.mk.inj (Option.some_inj.mp h)
        have hlength := readDigits_length hread
        rw [List.nil_append] at hlength
        omega

/-- Digits whose value fits are read to the end. -/
theorem readDigits_all {limit : ℕ} {ds : Str} (hds : AllDigits 10 ds)
    (hfits : digitsValue 10 0 ds < limit) :
    readDigits 10 limit none 0 0 ds = some ((digitsValue 10 0 ds, 0 + ds.length), []) := by
  have hread : readDigits 10 limit none 0 0 (ds ++ []) = some ((_, _), []) :=
    readDigits_append (by omega) (by simp) hds hfits rfl
  rwa [List.append_nil] at hread

theorem parseWith_readNumber_iff {limit : ℕ} (hlimit : 0 < limit) {s : Str} {n : ℕ} :
    parseWith (readNumber 10 limit none true) s = some n ↔
      s ≠ [] ∧ AllDigits 10 s ∧ digitsValue 10 0 s = n ∧ n < limit := by
  rw [parseWith_eq_some]
  constructor
  · intro h
    obtain ⟨ds, hne, hds, hs⟩ := digits_of_readNumber h
    rw [List.append_nil] at hs
    subst hs
    refine ⟨hne, hds, ?_, readNumber_lt (by omega) hlimit h⟩
    by_cases hfits : digitsValue 10 0 s < limit
    · simp only [readNumber, readDigits_all hds hfits] at h
      split at h
      · cases h
      · exact (Prod.mk.inj (Option.some_inj.mp h)).1
    · have hread := readDigits_eq_none 0 hds hlimit (not_lt.mp hfits)
      simp only [readNumber, hread] at h
      cases h
  · rintro ⟨hne, hds, rfl, hlt⟩
    simp only [readNumber, readDigits_all hds hlt]
    rw [if_neg (by simpa using hne)]
    rfl

end AddrParser

namespace Hostname

/-! ### IPv4 addresses -/

theorem letterDigitHyphen_of_digit {c : Char} (h : (toDigit 10 c).isSome = true) :
    LetterDigitHyphen c ∧ c ≠ '-' := by
  refine ⟨?_, ?_⟩
  · rw [toDigit] at h
    split at h
    · next hlt =>
      rw [digitVal] at hlt
      split at hlt
      · next hrange => exact Or.inr (Or.inr (Or.inl hrange))
      · split at hlt
        · omega
        · split at hlt
          · omega
          · omega
    · cases h
  · rintro rfl
    exact absurd h (by decide)

theorem isLabel_of_digits {ds : Str} (hne : ds ≠ []) (hds : AllDigits 10 ds) : IsLabel ds where
  ne_nil := hne
  chars c hc := (letterDigitHyphen_of_digit (hds c hc)).1
  head_ne h := (letterDigitHyphen_of_digit (hds '-' (List.mem_of_head? h))).2 rfl
  getLast_ne h := (letterDigitHyphen_of_digit (hds '-' (List.mem_of_getLast? h))).2 rfl

theorem digits_of_readOctet {s t : Str} {x : UInt8} (h : readOctet s = some (x, t)) :
    ∃ ds, IsLabel ds ∧ s = ds ++ t := by
  obtain ⟨n, r, hn, hpure⟩ := bind_eq_some.mp h
  obtain ⟨-, rfl⟩ := pure_eq_some.mp hpure
  obtain ⟨ds, hne, hds, rfl⟩ := digits_of_readNumber hn
  exact ⟨ds, isLabel_of_digits hne hds, rfl⟩

/-- An IPv4 address has the form of a host name. -/
theorem isHostname_of_v4 {s : Str} {v4 : Ipv4Addr} (h : IpAddr.parse s = some (.v4 v4)) :
    IsHostname s := by
  have hread : readIpv4Addr s = some (v4, []) := by
    rw [IpAddr.parse, parseWith_eq_some, readIpAddr] at h
    cases hv4 : readIpv4Addr s with
    | some x =>
      rw [hv4, Option.map_some, Option.some_or, Option.some_inj] at h
      obtain ⟨hip, hrest⟩ := Prod.mk.inj h
      exact congrArg some (Prod.ext (IpAddr.v4.inj hip) hrest)
    | none =>
      rw [hv4, Option.map_none, Option.none_or, Option.map_eq_some_iff] at h
      obtain ⟨x, -, hx⟩ := h
      cases congrArg Prod.fst hx
  simp only [readIpv4Addr, bind_eq_some, pure_eq_some] at hread
  obtain ⟨a, s₁, ha, _, s₂, hdot₁, b, s₃, hb, _, s₄, hdot₂, c, s₅, hc, _, s₆, hdot₃, d, s₇, hd,
    -, rfl⟩ := hread
  rw [readGivenChar_eq_some] at hdot₁ hdot₂ hdot₃
  obtain ⟨first, hfirst, rfl⟩ := digits_of_readOctet ha
  obtain ⟨second, hsecond, rfl⟩ := digits_of_readOctet hb
  obtain ⟨third, hthird, rfl⟩ := digits_of_readOctet hc
  obtain ⟨fourth, hfourth, rfl⟩ := digits_of_readOctet hd
  refine ⟨[first, second, third, fourth], List.cons_ne_nil _ _, ?_, ?_⟩
  · rw [hdot₁, hdot₂, hdot₃]
    simp [List.intercalate, List.intersperse]
  · simp only [List.forall_mem_cons]
    exact ⟨hfirst, hsecond, hthird, hfourth, fun l hl => absurd hl List.not_mem_nil⟩

end Hostname

namespace Validation

/-! ### IPv6 addresses -/

/-- A text that begins with an IPv4 address is no IPv6 address. -/
theorem readIpv6Addr_of_v4 {s t : Str} {v4 : Ipv4Addr} (h : readIpv4Addr s = some (v4, t)) :
    readIpv6Addr s = none := by
  have hgroups : readGroups 8 true s = (v4.groups, true, t) := by
    rw [readGroups]
    have hread : readSeparator ':' true readIpv4Addr s = some (v4, t) := h
    rw [if_pos (by omega), hread]
  have hlength : v4.groups.length ≠ 8 := by
    show (2 : ℕ) ≠ 8
    omega
  simp only [readIpv6Addr, hgroups]
  rw [dif_neg hlength]
  exact if_pos trivial

theorem parse_of_ipv6 {s : Str} {ip : Ipv6Addr} (h : Ipv6Addr.parse s = some ip) :
    IpAddr.parse s = some (.v6 ip) := by
  rw [Ipv6Addr.parse, parseWith_eq_some] at h
  rw [IpAddr.parse, parseWith_eq_some, readIpAddr, h]
  cases hv4 : readIpv4Addr s with
  | none => rfl
  | some x =>
    rw [readIpv6Addr_of_v4 hv4] at h
    cases h

/-! ### Ports -/

/-- Digits with a plus in front or not, and their value. -/
def IsPort (s : Str) (n : ℕ) : Prop :=
  ∃ ds, (s = ds ∨ s = '+' :: ds) ∧ ds ≠ [] ∧ AllDigits 10 ds ∧ digitsValue 10 0 ds = n

theorem parseU16_eq_some {s : Str} {port : UInt16} :
    parseU16 s = some port ↔ IsPort s port.toNat := by
  have hnat : ∀ n : ℕ, n < 65536 → (UInt16.ofNat n).toNat = n := fun n hn =>
    UInt16.toNat_ofNat_of_lt' hn
  have hstrip : ∀ ds, AllDigits 10 ds → (stripPrefix '+' ds).getD ds = ds := by
    intro ds hds
    rw [stripPrefix_eq_none, Option.getD_none]
    intro hhead
    exact absurd (hds '+' (List.mem_of_head? hhead)) (by decide)
  rw [parseU16, Option.map_eq_some_iff]
  constructor
  · rintro ⟨n, hn, rfl⟩
    obtain ⟨hne, hds, hval, hlt⟩ := (parseWith_readNumber_iff (by omega)).mp hn
    refine ⟨(stripPrefix '+' s).getD s, ?_, hne, hds, hval.trans (hnat n hlt).symm⟩
    by_cases hplus : s.head? = some '+'
    · obtain ⟨rest, rfl⟩ := List.head?_eq_some_iff.mp hplus
      rw [stripPrefix_cons_self]
      exact Or.inr rfl
    · rw [stripPrefix_eq_none hplus]
      exact Or.inl rfl
  · rintro ⟨ds, hs, hne, hds, hval⟩
    have hdigits : (stripPrefix '+' s).getD s = ds := by
      rcases hs with rfl | rfl
      · exact hstrip s hds
      · rw [stripPrefix_cons_self, Option.getD_some]
    refine ⟨port.toNat, ?_, UInt16.ofNat_toNat⟩
    rw [hdigits]
    exact (parseWith_readNumber_iff (by omega)).mpr ⟨hne, hds, hval, port.toNat_lt⟩

/-! ### Upstreams -/

/-- A host name, with the IPv4 addresses among them, or an IPv6 address, with
brackets or without. -/
def IsUpstreamHostText (host : Str) : Prop :=
  IsHostname host ∨ (∃ ip, Ipv6Addr.parse host = some ip) ∨
    ∃ inner ip, host = '[' :: inner ++ [']'] ∧ Ipv6Addr.parse inner = some ip

theorem isUpstreamHostText_iff {host : Str} :
    IsUpstreamHostText host ↔ IsHostPart host := by
  constructor
  · rintro (hname | ⟨ip, hip⟩ | hbracketed)
    · by_cases hv4 : ∃ v4, IpAddr.parse host = some (.v4 v4)
      · obtain ⟨v4, hv4⟩ := hv4
        exact Or.inr (Or.inl ⟨_, hv4⟩)
      · exact Or.inr (Or.inr (isValidHostname_of_isHostname hname fun v4 h => hv4 ⟨v4, h⟩))
    · exact Or.inr (Or.inl ⟨_, parse_of_ipv6 hip⟩)
    · exact Or.inl hbracketed
  · rintro (hbracketed | ⟨ip, hip⟩ | hname)
    · exact Or.inr (Or.inr hbracketed)
    · cases ip with
      | v4 v4 => exact Or.inl (isHostname_of_v4 hip)
      | v6 ip => exact Or.inr (Or.inl ⟨ip, ipv6_of_parse hip⟩)
    · exact Or.inl (isHostname_of_isValidHostname hname)

/-- The test of the host: whichever branch is taken, it is the same. -/
theorem hostTest_iff {host : Str} :
    (if host.head? == some '[' && host.getLast? == some ']' then
        (Ipv6Addr.parse (host.drop 1).dropLast).isSome
      else (IpAddr.parse host).isSome || isValidHostname host) = true ↔ IsHostPart host := by
  constructor
  · intro h
    split at h
    · next hbrackets =>
      obtain ⟨hopen, hclose⟩ := (Bool.and_eq_true _ _).mp hbrackets
      obtain ⟨ip, hip⟩ := Option.isSome_iff_exists.mp h
      exact Or.inl ⟨_, ip, eq_bracketed (beq_iff_eq.mp hopen) (beq_iff_eq.mp hclose), hip⟩
    · rcases (Bool.or_eq_true _ _).mp h with hip | hname
      · exact Or.inr (Or.inl (Option.isSome_iff_exists.mp hip))
      · exact Or.inr (Or.inr hname)
  · intro h
    rcases h with ⟨inner, ip, rfl, hip⟩ | h
    · have hclose : ('[' :: inner ++ [']']).getLast? = some ']' := List.getLast?_concat
      have hinner : (('[' :: inner ++ [']']).drop 1).dropLast = inner := List.dropLast_concat
      rw [if_pos (by rw [hclose]; rfl), hinner, hip]
      rfl
    · -- neither an address nor a host name begins with a bracket
      have hopen : host.head? ≠ some '[' := by
        intro hhead
        have hmem := List.mem_of_head? hhead
        rcases h with ⟨ip, hip⟩ | hname
        · exact absurd (IpAddr.addrChar_of_parse hip '[' hmem) (by decide)
        · exact not_mem_of_isValidHostname hname (by decide) (by decide) hmem
      rw [if_neg (by simp [hopen])]
      rcases h with ⟨ip, hip⟩ | hname
      · rw [hip]
        rfl
      · rw [hname, Bool.or_true]

/-- No host part and no port has a slash in it. -/
theorem slash_not_mem {host port : Str} {n : ℕ} (hhost : IsHostPart host) (hport : IsPort port n) :
    '/' ∉ host ++ ':' :: port := by
  intro hmem
  rcases List.mem_append.mp hmem with hmem | hmem
  · exact absurd (upstreamChar_of_isHostPart hhost '/' hmem) (by decide)
  · rcases List.mem_cons.mp hmem with heq | hmem
    · cases heq
    · obtain ⟨ds, rfl | rfl, -, hds, -⟩ := hport
      · exact absurd (hds '/' hmem) (by decide)
      · rcases List.mem_cons.mp hmem with heq | hmem
        · cases heq
        · exact absurd (hds '/' hmem) (by decide)

theorem colon_not_mem_port {port : Str} {n : ℕ} (hport : IsPort port n) : ':' ∉ port := by
  intro hmem
  obtain ⟨ds, rfl | rfl, -, hds, -⟩ := hport
  · exact absurd (hds ':' hmem) (by decide)
  · rcases List.mem_cons.mp hmem with heq | hmem
    · cases heq
    · exact absurd (hds ':' hmem) (by decide)

theorem ne_nil_of_isHostPart {host : Str} (h : IsHostPart host) : host ≠ [] := by
  rintro rfl
  rcases h with ⟨inner, ip, heq, -⟩ | ⟨ip, hip⟩ | hname
  · cases heq
  · cases hip
  · cases hname

theorem isValidUpstream_append {host port : Str} (hlast : ':' ∉ port) :
    isValidUpstream (host ++ ':' :: port) = true ↔
      host ≠ [] ∧ ¬ ("http://".toList <+: host ++ ':' :: port ∨
        "https://".toList <+: host ++ ':' :: port) ∧
      ∃ value, parseU16 port = some value ∧ value ≠ 0 ∧ IsHostPart host := by
  have hport : (host ++ ':' :: port).drop (host.length + 1) = port := by
    rw [← List.drop_drop, List.drop_left, List.drop_one, List.tail_cons]
  have hscheme : ("http://".toList.isPrefixOf (host ++ ':' :: port) ||
      "https://".toList.isPrefixOf (host ++ ':' :: port)) = true ↔
      ("http://".toList <+: host ++ ':' :: port ∨ "https://".toList <+: host ++ ':' :: port) := by
    rw [Bool.or_eq_true, List.isPrefixOf_iff_prefix, List.isPrefixOf_iff_prefix]
  rw [isValidUpstream, rfind_append host hlast]
  simp only [List.take_left, hport]
  by_cases hne : host = []
  · rw [if_pos (List.isEmpty_iff.mpr hne)]
    exact iff_of_false Bool.false_ne_true fun h => h.1 hne
  rw [if_neg (mt List.isEmpty_iff.mp hne)]
  by_cases hstart : "http://".toList <+: host ++ ':' :: port ∨
      "https://".toList <+: host ++ ':' :: port
  · rw [if_pos (hscheme.mpr hstart)]
    exact iff_of_false Bool.false_ne_true fun h => h.2.1 hstart
  rw [if_neg (mt hscheme.mp hstart)]
  cases parseU16 port with
  | none =>
    refine iff_of_false Bool.false_ne_true ?_
    rintro ⟨-, -, _, h, -⟩
    cases h
  | some value =>
    dsimp only
    by_cases hzero : value = 0
    · rw [if_pos hzero]
      refine iff_of_false Bool.false_ne_true ?_
      rintro ⟨-, -, value', heq, hne', -⟩
      exact hne' (Option.some_inj.mp heq ▸ hzero)
    · rw [if_neg hzero, hostTest_iff]
      constructor
      · intro hhost
        exact ⟨hne, hstart, value, rfl, hzero, hhost⟩
      · rintro ⟨-, -, _, -, -, hhost⟩
        exact hhost

/-- **The grammar of upstreams.**  A text is accepted exactly if it is a host, a
colon and a port from 1 to 65535, where the host is a host name or IPv4 address,
or an IPv6 address with brackets or without, and the port is digits with a plus
in front or not. -/
theorem isValidUpstream_iff (upstream : Str) :
    isValidUpstream upstream = true ↔
      ∃ host port n, upstream = host ++ ':' :: port ∧ IsUpstreamHostText host ∧ IsPort port n ∧
        1 ≤ n ∧ n ≤ 65535 := by
  simp only [isUpstreamHostText_iff]
  constructor
  · intro h
    have hcolon : ':' ∈ upstream := by
      by_contra hno
      rw [isValidUpstream, rfind_eq_none.mpr hno] at h
      exact absurd h Bool.false_ne_true
    obtain ⟨host, port, rfl, hlast⟩ := exists_last_of_mem hcolon
    obtain ⟨-, -, value, hvalue, hzero, hhost⟩ := (isValidUpstream_append hlast).mp h
    have hpos : value.toNat ≠ 0 := fun hnat => hzero (UInt16.toNat_inj.mp hnat)
    have hlt := value.toNat_lt
    exact ⟨host, port, value.toNat, rfl, hhost, parseU16_eq_some.mp hvalue, by omega, by omega⟩
  · rintro ⟨host, port, n, rfl, hhost, hport, hpos, hle⟩
    have hnat : (UInt16.ofNat n).toNat = n :=
      UInt16.toNat_ofNat_of_lt' (Nat.lt_succ_of_le hle)
    refine (isValidUpstream_append (colon_not_mem_port hport)).mpr
      ⟨ne_nil_of_isHostPart hhost, ?_, UInt16.ofNat n, ?_, ?_, hhost⟩
    · -- the two schemes come with slashes
      have hslash := slash_not_mem hhost hport
      rintro (hstart | hstart)
      · exact hslash (hstart.subset (by decide))
      · exact hslash (hstart.subset (by decide))
    · exact parseU16_eq_some.mpr (hnat.symm ▸ hport)
    · intro hzero
      rw [hzero] at hnat
      have hnil : (0 : UInt16).toNat = 0 := rfl
      omega

end Validation
