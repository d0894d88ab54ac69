/-
The text of an IP address.

* `IpAddr.parse_toText` — every address is read back from its `Display` text;
* `IpAddr.addrChar_of_parse` — a text that parses is made of hexadecimal
  digits, colons and dots, so it has no spaces in it.

The IPv6 half rests on `readGroups_fmtSubslice`: the group reader takes the
written groups and stops at a `::` or at the end.  It offers every slot to
the IPv4 reader first, which fails on a text without a dot.
-/
import ReverseProxy.NetAddr

open Text AddrParser

namespace NetAddr

/-! ### Characters of numbers -/

theorem not_mem_toDigits {radix : ℕ} (h1 : 1 < radix) (h16 : radix ≤ 16) {c : Char}
    (hc : toDigit radix c = none) (n : ℕ) : c ∉ Nat.toDigits radix n := by
  intro hmem
  have hsome := allDigits_toDigits h1 h16 n c hmem
  rw [hc] at hsome
  exact absurd hsome (by simp)

theorem not_mem_hex {c : Char} (hc : toDigit 16 c = none) (n : ℕ) : c ∉ hex n :=
  not_mem_toDigits (by omega) (by omega) hc n

theorem not_mem_decimal {c : Char} (hc : toDigit 10 c = none) (n : ℕ) : c ∉ decimal n :=
  not_mem_toDigits (by omega) (by omega) hc n

/-! ### IPv4 -/

theorem readOctet_decimal (x : UInt8) {t : Str} (ht : ∀ c ∈ t.head?, toDigit 10 c = none) :
    readOctet (decimal x.toNat ++ t) = some (x, t) := by
  have hx : x.toNat < 256 := x.toNat_lt
  have hlen : (Nat.toDigits 10 x.toNat).length ≤ 3 :=
    (Nat.length_toDigits_le_iff (by omega) (by omega)).mpr (by omega)
  rw [readOctet, bind_apply, decimal,
    readNumber_toDigits (by omega) (by omega) hx (by simpa using hlen) false ht]
  show some (UInt8.ofNat x.toNat, t) = some (x, t)
  rw [UInt8.ofNat_toNat]

theorem readIpv4Addr_toText (v4 : Ipv4Addr) {t : Str}
    (ht : ∀ c ∈ t.head?, toDigit 10 c = none) :
    readIpv4Addr (v4.toText ++ t) = some (v4, t) := by
  have hdot : ∀ u : Str, ∀ c ∈ ('.' :: u).head?, toDigit 10 c = none := by
    intro u c hc
    rw [List.head?_cons, Option.mem_some_iff] at hc
    rw [← hc]
    decide
  rw [Ipv4Addr.toText]
  simp only [List.append_assoc, List.cons_append]
  simp only [readIpv4Addr, bind_apply, readOctet_decimal _ (hdot _), Option.bind_some,
    readGivenChar_self, readOctet_decimal _ ht]
  rfl

theorem readOctet_zero {s t : Str} (h : readOctet s = some (0, t)) : s = '0' :: t := by
  obtain ⟨n, r, hn, hpure⟩ := bind_eq_some.mp h
  obtain ⟨hzero, rfl⟩ := pure_eq_some.mp hpure
  obtain rfl : n = 0 := by
    have hlt : n < 256 := readNumber_lt (by omega) (by omega) hn
    have hmod := congrArg UInt8.toNat hzero
    rw [UInt8.toNat_ofNat_of_lt' hlt] at hmod
    exact hmod
  exact readNumber_zero hn

/-- The address `0.0.0.0` is written in one way. -/
theorem readIpv4Addr_zero {s t : Str} (h : readIpv4Addr s = some (⟨0, 0, 0, 0⟩, t)) :
    s = "0.0.0.0".toList ++ t := by
  simp only [readIpv4Addr, bind_eq_some, pure_eq_some] at h
  obtain ⟨a, s₁, ha, _, s₂, hdot₁, b, s₃, hb, _, s₄, hdot₂, c, s₅, hc, _, s₆, hdot₃, d, s₇, hd,
    hzero, rfl⟩ := h
  obtain ⟨rfl, rfl, rfl, rfl⟩ := Ipv4Addr.mk.inj hzero
  rw [readGivenChar_eq_some] at hdot₁ hdot₂ hdot₃
  rw [readOctet_zero ha, hdot₁, readOctet_zero hb, hdot₂, readOctet_zero hc, hdot₃,
    readOctet_zero hd]
  rfl

/-- Without a dot there is no IPv4 address to read. -/
theorem readIpv4Addr_eq_none {s : Str} (h : '.' ∉ s) : readIpv4Addr s = none := by
  rw [readIpv4Addr, bind_apply]
  rcases ho : readOctet s with _ | ⟨a, t⟩
  · rfl
  · have hreads : ReadsOnly (fun c => (toDigit 10 c).isSome) readOctet :=
      (readNumber_readsOnly 10 256 (some 3) false).bind fun n => ReadsOnly.pure _ _
    obtain ⟨u, rfl, -⟩ := hreads s a t ho
    have hg : readGivenChar '.' t = none := by
      rcases hg : readGivenChar '.' t with _ | ⟨x, r⟩
      · rfl
      · rw [readGivenChar_eq_some.mp hg] at h
        exact absurd h (by simp)
    rw [Option.bind_some, bind_apply, hg]
    rfl

/-! ### IPv6 groups -/

theorem readGroup_hex (g : UInt16) {t : Str} (ht : ∀ c ∈ t.head?, toDigit 16 c = none) :
    readGroup (hex g.toNat ++ t) = some (g, t) := by
  have hg : g.toNat < 65536 := g.toNat_lt
  have hlen : (Nat.toDigits 16 g.toNat).length ≤ 4 :=
    (Nat.length_toDigits_le_iff (by omega) (by omega)).mpr (by omega)
  rw [readGroup, bind_apply, hex,
    readNumber_toDigits (by omega) (by omega) hg (by simpa using hlen) true ht]
  show some (UInt16.ofNat g.toNat, t) = some (g, t)
  rw [UInt16.ofNat_toNat]

/-- The groups after the first one, each with its colon. -/
def moreGroups (gs : List UInt16) : Str := gs.flatMap fun g => ':' :: hex g.toNat

/-- Where the group reader stops for good: at the end or at a `::`. -/
def GroupsEnd (t : Str) : Prop := t = [] ∨ ∃ u, t = ':' :: ':' :: u

theorem head_moreGroups (gs : List UInt16) {t : Str} (ht : GroupsEnd t) :
    ∀ c ∈ (moreGroups gs ++ t).head?, toDigit 16 c = none := by
  intro c hc
  have hcolon : toDigit 16 ':' = none := by decide
  cases gs with
  | nil =>
    rcases ht with rfl | ⟨u, rfl⟩
    · simp [moreGroups] at hc
    · simp only [moreGroups, List.flatMap_nil, List.nil_append, List.head?_cons,
        Option.mem_some_iff] at hc
      rw [← hc, hcolon]
  | cons g gs =>
    simp only [moreGroups, List.flatMap_cons, List.cons_append, List.head?_cons,
      Option.mem_some_iff] at hc
    rw [← hc, hcolon]

theorem dot_not_mem_moreGroups (gs : List UInt16) : '.' ∉ moreGroups gs := by
  intro hmem
  obtain ⟨g, -, hg⟩ := List.mem_flatMap.mp hmem
  rcases List.mem_cons.mp hg with hg | hg
  · exact absurd hg (by decide)
  · exact not_mem_hex (by decide) _ hg

theorem readGroup_colon (s : Str) : readGroup (':' :: s) = none := by
  have hread : readNumber 16 65536 (some 4) true (':' :: s) = none := by
    simp [readNumber, readDigits, show toDigit 16 ':' = none by decide]
  rw [readGroup, bind_apply, hread]
  rfl

/-- The group reader stops at the end of the groups. -/
theorem readGroups_end (n : ℕ) (first : Bool) {t : Str} (hdot : '.' ∉ t) (ht : GroupsEnd t) :
    readGroups n first t = ([], false, t) := by
  cases n with
  | zero => rfl
  | succ n =>
    have hv4 : readSeparator ':' first readIpv4Addr t = none := by
      cases first with
      | true => exact readIpv4Addr_eq_none hdot
      | false =>
        rcases ht with rfl | ⟨u, rfl⟩
        · rfl
        · exact readIpv4Addr_eq_none fun hmem => hdot (List.mem_cons_of_mem _ hmem)
    have hgroup : readSeparator ':' first readGroup t = none := by
      rcases ht with rfl | ⟨u, rfl⟩
      · cases first <;> rfl
      · cases first with
        | true => exact readGroup_colon _
        | false => exact readGroup_colon u
    rw [readGroups, hv4, hgroup]
    simp

theorem readGroups_moreGroups {t : Str} (hdot : '.' ∉ t) (ht : GroupsEnd t) (gs : List UInt16) :
    ∀ n, gs.length ≤ n → readGroups n false (moreGroups gs ++ t) = (gs, false, t) := by
  induction gs with
  | nil => exact fun n _ => readGroups_end n false hdot ht
  | cons g gs ih =>
    intro n hn
    obtain ⟨m, rfl⟩ : ∃ m, n = m + 1 := ⟨n - 1, by rw [List.length_cons] at hn; omega⟩
    have htext : moreGroups (g :: gs) ++ t = ':' :: (hex g.toNat ++ (moreGroups gs ++ t)) := by
      simp [moreGroups]
    have hv4 : readSeparator ':' false readIpv4Addr (moreGroups (g :: gs) ++ t) = none := by
      rw [htext]
      refine readIpv4Addr_eq_none ?_
      simp only [List.mem_append, not_or]
      exact ⟨not_mem_hex (by decide) _, dot_not_mem_moreGroups gs, hdot⟩
    have hgroup : readSeparator ':' false readGroup (moreGroups (g :: gs) ++ t)
        = some (g, moreGroups gs ++ t) := by
      rw [htext]
      exact readGroup_hex g (head_moreGroups gs ht)
    rw [readGroups, hv4, hgroup, ite_self]
    simp only
    rw [ih m (by rw [List.length_cons] at hn; omega)]

theorem fmtSubslice_cons (g : UInt16) (gs : List UInt16) :
    fmtSubslice (g :: gs) = hex g.toNat ++ moreGroups gs := rfl

theorem dot_not_mem_fmtSubslice (gs : List UInt16) : '.' ∉ fmtSubslice gs := by
  cases gs with
  | nil => simp [fmtSubslice]
  | cons g gs =>
    rw [fmtSubslice_cons, List.mem_append, not_or]
    exact ⟨not_mem_hex (by decide) _, dot_not_mem_moreGroups gs⟩

/-- **The group reader takes exactly the written groups.** -/
theorem readGroups_fmtSubslice {t : Str} (hdot : '.' ∉ t) (ht : GroupsEnd t)
    (gs : List UInt16) {n : ℕ} (hn : gs.length ≤ n) :
    readGroups n true (fmtSubslice gs ++ t) = (gs, false, t) := by
  cases gs with
  | nil => exact readGroups_end n true hdot ht
  | cons g gs =>
    obtain ⟨m, rfl⟩ : ∃ m, n = m + 1 := ⟨n - 1, by rw [List.length_cons] at hn; omega⟩
    have hv4 : readSeparator ':' true readIpv4Addr (fmtSubslice (g :: gs) ++ t) = none := by
      refine readIpv4Addr_eq_none ?_
      rw [List.mem_append, not_or]
      exact ⟨dot_not_mem_fmtSubslice _, hdot⟩
    have hgroup : readSeparator ':' true readGroup (fmtSubslice (g :: gs) ++ t)
        = some (g, moreGroups gs ++ t) := by
      rw [fmtSubslice_cons, List.append_assoc]
      exact readGroup_hex g (head_moreGroups gs ht)
    rw [readGroups, hv4, hgroup, ite_self]
    simp only
    rw [readGroups_moreGroups hdot ht gs m (by rw [List.length_cons] at hn; omega)]

/-! ### The compressed run -/

/-- A span that covers nothing but zero groups. -/
def ZeroRun (segments : List UInt16) (span : Span) : Prop :=
  span.start + span.len ≤ segments.length ∧
    ∀ j, span.start ≤ j → j < span.start + span.len → segments[j]? = some 0

/-- The longest run found is a run of zeros.  The run `current` ends where the
search stands, unless it is empty. -/
theorem zeroRun_longestZeros (gs : List UInt16) : ∀ (pre : List UInt16) (longest current : Span),
    ZeroRun (pre ++ gs) longest → ZeroRun (pre ++ gs) current →
    (current.len = 0 ∨ current.start + current.len = pre.length) →
    ZeroRun (pre ++ gs) (longestZeros gs pre.length longest current) := by
  induction gs with
  | nil => exact fun pre longest current hl _ _ => hl
  | cons g gs ih =>
    intro pre longest current hl hc hend
    have hsplit : pre ++ g :: gs = (pre ++ [g]) ++ gs := by simp
    have hlen : (pre ++ [g]).length = pre.length + 1 := by simp
    rw [longestZeros, ← hlen]
    by_cases hg : g = 0
    · rw [if_pos hg]
      set next : Span := ⟨if current.len = 0 then pre.length else current.start, current.len + 1⟩
        with hnext
      -- the current run is extended by the group at position `pre.length`
      have hstart : next.start + next.len = pre.length + 1 := by
        rw [hnext]
        rcases hend with h0 | hne
        · simp [h0]
        · by_cases h0 : current.len = 0
          · simp [h0]
          · simp only [if_neg h0]
            omega
      have hrun : ZeroRun (pre ++ g :: gs) next := by
        refine ⟨by rw [hstart]; simp, fun j hj1 hj2 => ?_⟩
        by_cases hj : j = pre.length
        · rw [hj, List.getElem?_append_right (le_refl _)]
          simp [hg]
        · rcases hend with h0 | hne
          · rw [hnext, h0] at hj1
            simp only [if_true] at hj1
            omega
          · by_cases h0 : current.len = 0
            · rw [hnext, h0] at hj1
              simp only [if_true] at hj1
              omega
            · rw [hnext] at hj1
              simp only [if_neg h0] at hj1
              exact hc.2 j hj1 (by omega)
      rw [hsplit] at hl hrun ⊢
      refine ih (pre ++ [g]) _ next ?_ hrun (Or.inr (by rw [hstart, hlen]))
      split
      · exact hrun
      · exact hl
    · rw [if_neg hg]
      rw [hsplit] at hl ⊢
      exact ih (pre ++ [g]) longest ⟨0, 0⟩ hl ⟨Nat.zero_le _, fun j _ hj => absurd hj (by simp)⟩
        (Or.inl rfl)

/-- Cutting a run of zeros out leaves the groups on either side of it. -/
theorem ZeroRun.eq_append {segments : List UInt16} {span : Span} (h : ZeroRun segments span) :
    segments = segments.take span.start ++ List.replicate span.len 0
      ++ segments.drop (span.start + span.len) := by
  have hrep : (segments.drop span.start).take span.len = List.replicate span.len 0 := by
    refine List.ext_getElem? fun i => ?_
    by_cases hi : i < span.len
    · rw [List.getElem?_take_of_lt hi, List.getElem?_drop, h.2 _ (by omega) (by omega),
        List.getElem?_replicate_of_lt hi]
    · rw [List.getElem?_eq_none (by rw [List.length_take]; omega),
        List.getElem?_eq_none (by rw [List.length_replicate]; omega)]
  rw [← hrep, List.append_assoc, ← List.drop_drop, List.take_append_drop, List.take_append_drop]

theorem readIpv6Addr_groups {s : Str} {head : List UInt16} (hlen : head.length < 8) {t : Str}
    (h : readGroups 8 true s = (head, false, t)) : readIpv6Addr s = readTail head hlen t := by
  rw [readIpv6Addr]
  simp only [h]
  rw [dif_neg (by omega)]
  rfl

theorem readTail_colons {head tail : List UInt16} (hlen : head.length < 8) {s t : Str} {v4 : Bool}
    (h : readGroups (8 - (head.length + 1)) true s = (tail, v4, t))
    (hle : head.length + tail.length ≤ 8) :
    readTail head hlen (':' :: ':' :: s) = some (expandGroups head tail hle, t) := by
  simp only [readTail, bind_apply, readGivenChar_self, Option.bind_some, h]

/-- The reader on a text with `::` between two parts of written groups. -/
theorem readIpv6Addr_compressed {hs ts : List UInt16} (hlen : hs.length + ts.length ≤ 7) :
    readIpv6Addr (fmtSubslice hs ++ "::".toList ++ fmtSubslice ts)
      = some (expandGroups hs ts (by omega), []) := by
  have hhead : readGroups 8 true (fmtSubslice hs ++ ("::".toList ++ fmtSubslice ts))
      = (hs, false, "::".toList ++ fmtSubslice ts) := by
    refine readGroups_fmtSubslice ?_ (Or.inr ⟨fmtSubslice ts, rfl⟩) hs (by omega)
    show '.' ∉ ':' :: ':' :: fmtSubslice ts
    simp only [List.mem_cons, not_or]
    exact ⟨by decide, by decide, dot_not_mem_fmtSubslice ts⟩
  have htail : readGroups (8 - (hs.length + 1)) true (fmtSubslice ts) = (ts, false, []) := by
    have h := readGroups_fmtSubslice (t := []) (by simp) (Or.inl rfl) ts
      (show ts.length ≤ 8 - (hs.length + 1) by omega)
    rwa [List.append_nil] at h
  rw [List.append_assoc, readIpv6Addr_groups (by omega) hhead]
  exact readTail_colons (by omega) htail (by omega)

theorem readIpv6Addr_full {segments : List UInt16} (hlen : segments.length = 8) :
    readIpv6Addr (fmtSubslice segments) = some (⟨segments, hlen⟩, []) := by
  have hgroups : readGroups 8 true (fmtSubslice segments) = (segments, false, []) := by
    have h := readGroups_fmtSubslice (t := []) (by simp) (Or.inl rfl) segments
      (show segments.length ≤ 8 by omega)
    rwa [List.append_nil] at h
  rw [readIpv6Addr]
  simp only [hgroups]
  rw [dif_pos hlen]

/-! ### The IPv4-mapped form -/

theorem UInt16.ofNat_bytes (x : UInt16) :
    UInt16.ofNat ((UInt8.ofNat (x.toNat / 256)).toNat * 256 + (UInt8.ofNat x.toNat).toNat) = x := by
  have hx : x.toNat < 65536 := x.toNat_lt
  have hhi : (UInt8.ofNat (x.toNat / 256)).toNat = x.toNat / 256 := by
    rw [UInt8.toNat_ofNat', Nat.mod_eq_of_lt (by omega)]
  rw [hhi, UInt8.toNat_ofNat', show x.toNat / 256 * 256 + x.toNat % 2 ^ 8 = x.toNat by omega,
    UInt16.ofNat_toNat]

theorem segments_of_toIpv4Mapped {v6 : Ipv6Addr} {v4 : Ipv4Addr}
    (h : v6.toIpv4Mapped = some v4) : v6.segments = [0, 0, 0, 0, 0, 0xffff] ++ v4.groups := by
  rw [Ipv6Addr.toIpv4Mapped] at h
  split at h
  · rename_i ab cd heq
    rw [Option.some_inj] at h
    rw [heq, ← h, Ipv4Addr.groups, UInt16.ofNat_bytes, UInt16.ofNat_bytes]
    rfl
  · exact absurd h (by simp)

/-- After `::ffff:` the reader finds an IPv4 address in the second slot. -/
theorem readGroups_mapped (v4 : Ipv4Addr) :
    readGroups 7 true ("ffff:".toList ++ v4.toText) = (0xffff :: v4.groups, true, []) := by
  have hv4 : readIpv4Addr ("ffff:".toList ++ v4.toText) = none := rfl
  have hgroup : readGroup ("ffff:".toList ++ v4.toText) = some (0xffff, ':' :: v4.toText) :=
    readGroup_hex 0xffff (t := ':' :: v4.toText) (by
      intro c hc
      rw [List.head?_cons, Option.mem_some_iff] at hc
      rw [← hc]
      decide)
  have hnext : readIpv4Addr v4.toText = some (v4, []) := by
    have h := readIpv4Addr_toText v4 (t := []) (by simp)
    rwa [List.append_nil] at h
  have hrest : readGroups 6 false (':' :: v4.toText) = (v4.groups, true, []) := by
    rw [readGroups, if_pos (by omega),
      show readSeparator ':' false readIpv4Addr (':' :: v4.toText)
        = readIpv4Addr v4.toText from rfl,
      hnext]
  rw [readGroups, if_pos (by omega),
    show readSeparator ':' true readIpv4Addr = readIpv4Addr from rfl, hv4,
    show readSeparator ':' true readGroup = readGroup from rfl, hgroup]
  simp only
  rw [hrest]

theorem readIpv6Addr_mapped {v6 : Ipv6Addr} {v4 : Ipv4Addr} (h : v6.toIpv4Mapped = some v4) :
    readIpv6Addr ("::ffff:".toList ++ v4.toText) = some (v6, []) := by
  have hsegments := segments_of_toIpv4Mapped h
  have hhead : readGroups 8 true ("::ffff:".toList ++ v4.toText)
      = ([], false, "::ffff:".toList ++ v4.toText) := rfl
  rw [readIpv6Addr_groups (by simp) hhead]
  refine (@readTail_colons [] (0xffff :: v4.groups) (by simp) _ _ true (readGroups_mapped v4)
    (by simp [Ipv4Addr.groups])).trans ?_
  have hv6 : expandGroups [] (0xffff :: v4.groups) (by simp [Ipv4Addr.groups]) = v6 := by
    rw [Ipv6Addr.mk.injEq, hsegments]
    rfl
  rw [hv6]

/-! ### Round trip -/

theorem readIpv6Addr_toText (v6 : Ipv6Addr) : readIpv6Addr v6.toText = some (v6, []) := by
  rw [Ipv6Addr.toText]
  rcases hm : v6.toIpv4Mapped with _ | v4
  · simp only
    set zeroes := longestZeros v6.segments 0 ⟨0, 0⟩ ⟨0, 0⟩ with hz
    have hempty : ZeroRun ([] ++ v6.segments) ⟨0, 0⟩ :=
      ⟨Nat.zero_le _, fun j _ hj => absurd hj (by simp)⟩
    have hrun : ZeroRun v6.segments zeroes :=
      zeroRun_longestZeros v6.segments [] ⟨0, 0⟩ ⟨0, 0⟩ hempty hempty (Or.inl rfl)
    have hbound : zeroes.start + zeroes.len ≤ 8 := by
      rw [← v6.length_segments]
      exact hrun.1
    by_cases hlen : 1 < zeroes.len
    · -- what `::` stands for is put back between the two written parts
      rw [if_pos hlen]
      have htake : (v6.segments.take zeroes.start).length = zeroes.start := by
        rw [List.length_take, v6.length_segments]
        omega
      have hdrop : (v6.segments.drop (zeroes.start + zeroes.len)).length
          = 8 - (zeroes.start + zeroes.len) := by
        rw [List.length_drop, v6.length_segments]
      rw [readIpv6Addr_compressed (by rw [htake, hdrop]; omega)]
      have hv6 : expandGroups (v6.segments.take zeroes.start)
          (v6.segments.drop (zeroes.start + zeroes.len)) (by rw [htake, hdrop]; omega) = v6 := by
        rw [Ipv6Addr.mk.injEq, segments_expandGroups, htake, hdrop,
          show 8 - zeroes.start - (8 - (zeroes.start + zeroes.len)) = zeroes.len by omega]
        exact hrun.eq_append.symm
      rw [hv6]
    · rw [if_neg hlen]
      exact readIpv6Addr_full v6.length_segments
  · exact readIpv6Addr_mapped hm

/-- The text of an IPv6 address is no IPv4 address, nor does it begin with
one. -/
theorem readIpv4Addr_toText_v6 (v6 : Ipv6Addr) : readIpv4Addr v6.toText = none := by
  rw [Ipv6Addr.toText]
  rcases v6.toIpv4Mapped with _ | v4
  · refine readIpv4Addr_eq_none ?_
    simp only
    split
    · simp only [List.mem_append, not_or]
      exact ⟨⟨dot_not_mem_fmtSubslice _, by decide⟩, dot_not_mem_fmtSubslice _⟩
    · exact dot_not_mem_fmtSubslice _
  · rfl

/-- **Every IP address is read back from its text.** -/
theorem IpAddr.parse_toText (ip : IpAddr) : IpAddr.parse ip.toText = some ip := by
  rw [IpAddr.parse, parseWith_eq_some]
  cases ip with
  | v4 v4 =>
    have h := readIpv4Addr_toText v4 (t := []) (by simp)
    rw [List.append_nil] at h
    rw [readIpAddr, IpAddr.toText, h]
    rfl
  | v6 v6 =>
    rw [readIpAddr, IpAddr.toText, readIpv4Addr_toText_v6, readIpv6Addr_toText]
    rfl

/-! ### The characters of an address -/

/-- The characters an address is written with. -/
def AddrChar (c : Char) : Prop := (toDigit 16 c).isSome ∨ c = ':' ∨ c = '.'

instance (c : Char) : Decidable (AddrChar c) :=
  inferInstanceAs (Decidable ((toDigit 16 c).isSome = true ∨ c = ':' ∨ c = '.'))

theorem toDigit_isSome_mono {r r' : ℕ} (h : r ≤ r') {c : Char} (hc : (toDigit r c).isSome) :
    (toDigit r' c).isSome := by
  rw [toDigit] at hc ⊢
  split at hc
  · rw [if_pos (by omega)]
    rfl
  · exact absurd hc (by simp)

theorem readIpv4Addr_readsOnly : ReadsOnly AddrChar readIpv4Addr := by
  have hoctet : ReadsOnly AddrChar readOctet :=
    ((readNumber_readsOnly 10 256 (some 3) false).mono fun c hc =>
      Or.inl (toDigit_isSome_mono (by omega) hc)).bind fun _ => ReadsOnly.pure _ _
  have hdot : ReadsOnly AddrChar (readGivenChar '.') :=
    (readGivenChar_readsOnly '.').mono fun c hc => Or.inr (Or.inr hc)
  exact hoctet.bind fun _ => hdot.bind fun _ => hoctet.bind fun _ => hdot.bind fun _ =>
    hoctet.bind fun _ => hdot.bind fun _ => hoctet.bind fun _ => ReadsOnly.pure _ _

theorem readGroup_readsOnly : ReadsOnly AddrChar readGroup :=
  ((readNumber_readsOnly 16 65536 (some 4) true).mono fun _ hc => Or.inl hc).bind
    fun _ => ReadsOnly.pure _ _

theorem readGivenChar_colon_readsOnly : ReadsOnly AddrChar (readGivenChar ':') :=
  (readGivenChar_readsOnly ':').mono fun _ hc => Or.inr (Or.inl hc)

theorem readSeparator_readsOnly {α : Type} {p : Parser α} (hp : ReadsOnly AddrChar p)
    (first : Bool) : ReadsOnly AddrChar (readSeparator ':' first p) := by
  cases first with
  | true => exact hp
  | false => exact readGivenChar_colon_readsOnly.bind fun _ => hp

theorem readGroups_readsOnly (n : ℕ) : ∀ (first : Bool) (s : Str),
    ∃ u, s = u ++ (readGroups n first s).2.2 ∧ ∀ c ∈ u, AddrChar c := by
  induction n with
  | zero => exact fun _ s => ⟨[], rfl, by simp⟩
  | succ n ih =>
    intro first s
    rw [readGroups]
    split
    · rename_i v4 t heq
      split at heq
      · exact readSeparator_readsOnly readIpv4Addr_readsOnly first s v4 t heq
      · exact absurd heq (by simp)
    · split
      · rename_i g t heq
        obtain ⟨u, hu, hchars⟩ := readSeparator_readsOnly readGroup_readsOnly first s g t heq
        obtain ⟨v, hv, hchars'⟩ := ih false t
        refine ⟨u ++ v, ?_, fun c hc => ?_⟩
        · rw [List.append_assoc, ← hv]
          exact hu
        · rcases List.mem_append.mp hc with hc | hc
          · exact hchars c hc
          · exact hchars' c hc
      · exact ⟨[], rfl, by simp⟩

theorem readTail_readsOnly (head : List UInt16) (hlen : head.length < 8) :
    ReadsOnly AddrChar (readTail head hlen) := by
  refine readGivenChar_colon_readsOnly.bind fun _ => readGivenChar_colon_readsOnly.bind fun _ => ?_
  intro s v6 t h
  rw [Option.some_inj, Prod.mk.injEq] at h
  rw [← h.2]
  exact readGroups_readsOnly _ true s

theorem readIpv6Addr_readsOnly : ReadsOnly AddrChar readIpv6Addr := by
  intro s v6 t h
  obtain ⟨u, hu, hchars⟩ := readGroups_readsOnly 8 true s
  simp only [readIpv6Addr] at h
  split at h
  · rw [Option.some_inj, Prod.mk.injEq] at h
    rw [← h.2]
    exact ⟨u, hu, hchars⟩
  · split at h
    · exact absurd h (by simp)
    · obtain ⟨v, hv, hchars'⟩ := readTail_readsOnly _ _ _ _ _ h
      refine ⟨u ++ v, ?_, fun c hc => ?_⟩
      · rw [List.append_assoc, ← hv]
        exact hu
      · rcases List.mem_append.mp hc with hc | hc
        · exact hchars c hc
        · exact hchars' c hc

theorem readIpAddr_readsOnly : ReadsOnly AddrChar readIpAddr := by
  intro s ip t h
  rw [readIpAddr] at h
  rcases h4 : readIpv4Addr s with _ | ⟨v4, r⟩
  · rw [h4, Option.map_none, Option.none_or, Option.map_eq_some_iff] at h
    obtain ⟨⟨v6, r⟩, h6, heq⟩ := h
    rw [Prod.mk.injEq] at heq
    rw [← heq.2]
    exact readIpv6Addr_readsOnly s v6 r h6
  · rw [h4, Option.map_some, Option.some_or, Option.some_inj, Prod.mk.injEq] at h
    rw [← h.2]
    exact readIpv4Addr_readsOnly s v4 r h4

/-- **A text that parses as an IP address is made of address characters.** -/
theorem IpAddr.addrChar_of_parse {s : Str} {ip : IpAddr} (h : IpAddr.parse s = some ip) :
    ∀ c ∈ s, AddrChar c :=
  readIpAddr_readsOnly.of_parseWith h

theorem IpAddr.not_mem_of_parse {x : Char} (hx : ¬ AddrChar x) {s : Str} {ip : IpAddr}
    (h : IpAddr.parse s = some ip) : x ∉ s :=
  fun hmem => hx (IpAddr.addrChar_of_parse h x hmem)

end NetAddr
