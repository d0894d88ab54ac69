/-
The grammar of host names.

`is_valid_hostname` tests a text in one way if it has a dot in it and in another
if it has none, after a few tests for both.  It describes the texts that are
labels joined by dots, without the IPv4 addresses, which look the same.

* `colon_mem_of_ipv6` — IPv6 addresses are no matter here, since they have
  colons;
* `isValidHostname_iff` — the grammar.
-/
import ReverseProxy.SocketAddrText
import ReverseProxy.Validation

open Text AddrParser NetAddr Validation

namespace NetAddr

/-! ### Colons in addresses -/

/-- An IPv4 address is read no further than to a colon. -/
theorem colon_not_mem_of_v4 {s : Str} {v4 : Ipv4Addr} (h : IpAddr.parse s = some (.v4 v4)) :
    ':' ∉ s := by
  intro hmem
  obtain ⟨a, b, rfl⟩ := List.append_of_mem hmem
  have hstop : StopsAt ':' readIpv4Addr :=
    readIpv4Addr_stopsAt (by decide) (by decide) (by decide)
  rw [IpAddr.parse, parseWith_eq_some, readIpAddr, hstop a b] at h
  cases hv4 : readIpv4Addr a with
  | some x =>
    rw [hv4, Option.map_some, Option.map_some, Option.some_or, Option.some_inj] at h
    have hrest := congrArg Prod.snd h
    simp at hrest
  | none =>
    rw [hv4, Option.map_none, Option.map_none, Option.none_or, Option.map_eq_some_iff] at h
    obtain ⟨x, -, hx⟩ := h
    cases congrArg Prod.fst hx

theorem ipv6_of_parse {s : Str} {ip : Ipv6Addr} (h : IpAddr.parse s = some (.v6 ip)) :
    Ipv6Addr.parse s = some ip := by
  rw [IpAddr.parse, parseWith_eq_some, readIpAddr] at h
  rw [Ipv6Addr.parse, parseWith_eq_some]
  cases hv4 : readIpv4Addr s with
  | some x =>
    rw [hv4, Option.map_some, Option.some_or, Option.some_inj] at h
    cases congrArg Prod.fst h
  | none =>
    rw [hv4, Option.map_none, Option.none_or, Option.map_eq_some_iff] at h
    obtain ⟨⟨ip', t⟩, hx, heq⟩ := h
    obtain ⟨hip, rfl⟩ := Prod.mk.inj heq
    obtain rfl : ip' = ip := IpAddr.v6.inj hip
    exact hx

/-- Without a colon there is no separator. -/
theorem readSeparator_eq_none {α : Type} (p : Parser α) {s : Str} (h : ':' ∉ s) :
    readSeparator ':' false p s = none := by
  have hcolon : readGivenChar ':' s = none := by
    cases s with
    | nil => rfl
    | cons c s =>
      rw [readGivenChar_cons, if_neg]
      rintro rfl
      exact h List.mem_cons_self
  show (readGivenChar ':' s).bind _ = none
  rw [hcolon, Option.bind_none]

theorem length_readGroups_of_no_colon {s : Str} (h : ':' ∉ s) :
    (readGroups 8 true s).1.length ≤ 2 := by
  rw [readGroups]
  split
  · exact le_rfl
  · split
    · next g t hgroup =>
      obtain ⟨u, rfl, -⟩ := readSeparator_readsOnly readGroup_readsOnly true s g t hgroup
      have ht : ':' ∉ t := fun hmem => h (List.mem_append_right u hmem)
      rw [readGroups, readSeparator_eq_none readIpv4Addr ht, readSeparator_eq_none readGroup ht,
        ite_self]
      simp
    · exact Nat.zero_le _

/-- The eight groups of an IPv6 address are written with colons. -/
theorem colon_mem_of_ipv6 {s : Str} {ip : Ipv6Addr} (h : Ipv6Addr.parse s = some ip) : ':' ∈ s := by
  by_contra hno
  rw [Ipv6Addr.parse, parseWith_eq_some] at h
  simp only [readIpv6Addr] at h
  split at h
  · next hlength =>
    have hshort := length_readGroups_of_no_colon hno
    omega
  · split at h
    · cases h
    · -- the tail begins with a colon
      obtain ⟨u, hu, -⟩ := readGroups_readsOnly 8 true s
      have hrest : ':' ∉ (readGroups 8 true s).2.2 := fun hmem =>
        hno (hu ▸ List.mem_append_right u hmem)
      obtain ⟨⟨x, t⟩, hcolon, -⟩ := Option.bind_eq_some_iff.mp h
      exact hrest (readGivenChar_eq_some.mp hcolon ▸ List.mem_cons_self)

end NetAddr

namespace Hostname

/-! ### Labels -/

/-- An ASCII letter, a digit or a hyphen. -/
def LetterDigitHyphen (c : Char) : Prop :=
  ('a' ≤ c ∧ c ≤ 'z') ∨ ('A' ≤ c ∧ c ≤ 'Z') ∨ ('0' ≤ c ∧ c ≤ '9') ∨ c = '-'

structure IsLabel (label : Str) : Prop where
  ne_nil : label ≠ []
  chars : ∀ c ∈ label, LetterDigitHyphen c
  head_ne : label.head? ≠ some '-'
  getLast_ne : label.getLast? ≠ some '-'

/-- Labels with single dots between them. -/
def IsHostname (h : Str) : Prop :=
  ∃ labels : List Str, labels ≠ [] ∧ h = ['.'].intercalate labels ∧ ∀ l ∈ labels, IsLabel l

theorem isHostChar_iff {c : Char} : isHostChar c = true ↔ LetterDigitHyphen c := by
  simp only [isHostChar, LetterDigitHyphen, Char.isAlphanum, Char.isAlpha, Char.isUpper,
    Char.isLower, Char.isDigit, Bool.or_eq_true, Bool.and_eq_true, decide_eq_true_eq, beq_iff_eq]
  constructor
  · rintro (((h | h) | h) | h)
    · exact Or.inr (Or.inl h)
    · exact Or.inl h
    · exact Or.inr (Or.inr (Or.inl h))
    · exact Or.inr (Or.inr (Or.inr h))
  · rintro (h | h | h | h)
    · exact Or.inl (Or.inl (Or.inr h))
    · exact Or.inl (Or.inl (Or.inl h))
    · exact Or.inl (Or.inr h)
    · exact Or.inr h

theorem isValidLabel_iff {label : Str} : isValidLabel label = true ↔ IsLabel label := by
  simp only [isValidLabel, Bool.and_eq_true, Bool.not_eq_true', Bool.or_eq_false_iff,
    List.isEmpty_eq_false_iff, beq_eq_false_iff_ne, List.all_eq_true, isHostChar_iff]
  constructor
  · rintro ⟨⟨hne, hhead, hlast⟩, hchars⟩
    exact ⟨hne, hchars, hhead, hlast⟩
  · rintro ⟨hne, hchars, hhead, hlast⟩
    exact ⟨⟨hne, hhead, hlast⟩, hchars⟩

theorem IsLabel.not_mem {label : Str} (h : IsLabel label) {c : Char} (hc : isHostChar c = false) :
    c ∉ label := by
  intro hmem
  rw [isHostChar_iff.mpr (h.chars c hmem)] at hc
  cases hc

/-! ### Joined labels -/

section intercalate

variable {x : Char} {labels : List Str}

/-- The text begins as its first label does. -/
theorem head?_intercalate (hne : labels ≠ []) (hall : ∀ l ∈ labels, l ≠ []) :
    ∃ l ∈ labels, ([x].intercalate labels).head? = l.head? := by
  obtain ⟨l, labels, rfl⟩ := List.exists_cons_of_ne_nil hne
  refine ⟨l, List.mem_cons_self, ?_⟩
  obtain ⟨c, l, rfl⟩ := List.exists_cons_of_ne_nil (hall l List.mem_cons_self)
  cases labels with
  | nil => rfl
  | cons l' labels => rfl

/-- It ends as its last label does. -/
theorem getLast?_intercalate (hne : labels ≠ []) (hall : ∀ l ∈ labels, l ≠ []) :
    ∃ l ∈ labels, ([x].intercalate labels).getLast? = l.getLast? := by
  induction labels with
  | nil => exact absurd rfl hne
  | cons l labels ih =>
    cases labels with
    | nil => exact ⟨l, List.mem_cons_self, by rw [List.intercalate_singleton]⟩
    | cons l' labels =>
      obtain ⟨last, hmem, hlast⟩ := ih (List.cons_ne_nil _ _)
        fun l hl => hall l (List.mem_cons_of_mem _ hl)
      refine ⟨last, List.mem_cons_of_mem _ hmem, ?_⟩
      obtain ⟨c, hc⟩ := Option.ne_none_iff_exists'.mp
        (mt List.getLast?_eq_none_iff.mp (hall last (List.mem_cons_of_mem _ hmem)))
      rw [List.intercalate_cons_cons, List.getLast?_append, hlast, hc, Option.some_or]

end intercalate

/-! ### The grammar -/

theorem IsHostname.not_mem {h : Str} (hh : IsHostname h) {c : Char} (hc : isHostChar c = false)
    (hdot : c ≠ '.') : c ∉ h := by
  obtain ⟨labels, -, rfl, hlabels⟩ := hh
  intro hmem
  rcases mem_intercalate hmem with heq | ⟨l, hl, hcl⟩
  · exact hdot heq
  · exact (hlabels l hl).not_mem hc hcl

/-- The labels are found again by a split. -/
theorem splitOn_intercalate_of_isLabel {labels : List Str} (hne : labels ≠ [])
    (hlabels : ∀ l ∈ labels, IsLabel l) : (['.'].intercalate labels).splitOn '.' = labels :=
  List.splitOn_intercalate '.' (fun l hl => (hlabels l hl).not_mem (by decide)) hne

/-- What the tests for both kinds of text come to. -/
theorem isValidHostname_of_isHostname {h : Str} (hh : IsHostname h)
    (hip : ∀ v4, IpAddr.parse h ≠ some (.v4 v4)) : isValidHostname h = true := by
  have hcolon : ':' ∉ h := hh.not_mem (by decide) (by decide)
  have hnone : (IpAddr.parse h).isSome = false := by
    cases hparse : IpAddr.parse h with
    | none => rfl
    | some ip =>
      cases ip with
      | v4 v4 => exact absurd hparse (hip v4)
      | v6 v6 => exact absurd (colon_mem_of_ipv6 (ipv6_of_parse hparse)) hcolon
  obtain ⟨labels, hne, rfl, hlabels⟩ := hh
  have hparts : ∀ l ∈ labels, l ≠ [] := fun l hl => (hlabels l hl).ne_nil
  obtain ⟨first, hfirst, hhead⟩ := head?_intercalate (x := '.') hne hparts
  obtain ⟨last, hlast, hend⟩ := getLast?_intercalate (x := '.') hne hparts
  have hsplit := splitOn_intercalate_of_isLabel hne hlabels
  have hempty : ['.'].intercalate labels ≠ [] := by
    intro hnil
    rw [hnil, List.head?_nil] at hhead
    exact hparts first hfirst (List.head?_eq_none_iff.mp hhead.symm)
  simp only [isValidHostname, Bool.if_false_left, Bool.and_eq_true, Bool.not_eq_true',
    Bool.or_eq_false_iff, decide_eq_false_iff_not, Bool.not_eq_true]
  refine ⟨List.isEmpty_eq_false_iff.mpr hempty, ?_, hnone, ⟨?_, ?_⟩, ?_⟩
  · exact Bool.eq_false_of_not_eq_true (mt List.contains_iff_mem.mp hcolon)
  · rw [hhead]
    exact beq_eq_false_iff_ne.mpr (hlabels first hfirst).head_ne
  · rw [hend]
    exact beq_eq_false_iff_ne.mpr (hlabels last hlast).getLast_ne
  · split
    · rw [hsplit, List.all_eq_true]
      exact fun l hl => isValidLabel_iff.mpr (hlabels l hl)
    · next hdot =>
      -- without a dot there is one label
      have hone := List.splitOn_eq_singleton (mt List.contains_iff_mem.mpr hdot)
      rw [hsplit] at hone
      have hlabel := hlabels _ (hone ▸ List.mem_singleton_self _)
      exact List.all_eq_true.mpr fun c hc => isHostChar_iff.mpr (hlabel.chars c hc)

theorem isHostname_of_isValidHostname {h : Str} (hvalid : isValidHostname h = true) :
    IsHostname h := by
  simp only [isValidHostname, Bool.if_false_left, Bool.and_eq_true, Bool.not_eq_true',
    Bool.or_eq_false_iff, decide_eq_false_iff_not, Bool.not_eq_true] at hvalid
  obtain ⟨hempty, -, -, ⟨hhead, hlast⟩, hchars⟩ := hvalid
  split at hchars
  · refine ⟨h.splitOn '.', List.splitOn_ne_nil '.' h, (List.intercalate_splitOn '.').symm, ?_⟩
    exact fun l hl => isValidLabel_iff.mp (List.all_eq_true.mp hchars l hl)
  · refine ⟨[h], List.cons_ne_nil _ _, (List.intercalate_singleton ..).symm, fun l hl => ?_⟩
    obtain rfl := List.mem_singleton.mp hl
    exact ⟨List.isEmpty_eq_false_iff.mp hempty,
      fun c hc => isHostChar_iff.mp (List.all_eq_true.mp hchars c hc),
      beq_eq_false_iff_ne.mp hhead, beq_eq_false_iff_ne.mp hlast⟩

/-- **The host name grammar.**  A text is accepted exactly if it is labels
joined by single dots and no IPv4 address. -/
theorem isValidHostname_iff (h : Str) :
    isValidHostname h = true ↔ IsHostname h ∧ ∀ v4, IpAddr.parse h ≠ some (.v4 v4) := by
  constructor
  · intro hvalid
    refine ⟨isHostname_of_isValidHostname hvalid, fun v4 hparse => ?_⟩
    simp only [isValidHostname, Bool.if_false_left, Bool.and_eq_true, Bool.not_eq_true',
      decide_eq_false_iff_not, Bool.not_eq_true] at hvalid
    obtain ⟨-, -, hip, -⟩ := hvalid
    rw [hparse] at hip
    cases hip
  · rintro ⟨hh, hip⟩
    exact isValidHostname_of_isHostname hh hip

end Hostname
