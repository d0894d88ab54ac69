/-
Text as Rust sees it.

A `str` is the list of its Unicode scalar values, and the operations of
`std::str` that a program uses to take host names and addresses apart are
written on that list:

* `find`, `rfind` — the first and the last position of a character
  (`find_append`, `rfind_append` place them, `find_eq_none`, `rfind_eq_none`
  say when there is none);
* `stripPrefix`, `stripSuffix` — one character off either end;
* `Lowercase` — `str::to_lowercase`, of which only the behaviour on ASCII text
  is fixed.  The Unicode tables stay a parameter, so a result that mentions
  `[Lowercase]` holds for every version of them;
* `EqIgnoreAsciiCase` — equality up to the case of ASCII letters.
-/
import Mathlib

namespace Text

/-- A Rust `str`: the list of its Unicode scalar values. -/
abbrev Str := List Char

/-! ### Searching for a character -/

/-- `str::find`: the position of the first `c`. -/
def find (c : Char) : Str → Option ℕ
  | [] => none
  | d :: s => if d = c then some 0 else (find c s).map (· + 1)

/-- `str::rfind`: the position of the last `c`. -/
def rfind (c : Char) : Str → Option ℕ
  | [] => none
  | d :: s =>
    match rfind c s with
    | some i => some (i + 1)
    | none => if d = c then some 0 else none

theorem find_eq_none {c : Char} {s : Str} : find c s = none ↔ c ∉ s := by
  induction s with
  | nil => simp [find]
  | cons d s ih =>
    rw [find]
    by_cases hd : d = c
    · simp [hd]
    · rw [if_neg hd, Option.map_eq_none_iff, ih]
      simp [Ne.symm hd]

theorem find_append {c : Char} {a : Str} (h : c ∉ a) (b : Str) :
    find c (a ++ c :: b) = some a.length := by
  induction a with
  | nil => simp [find]
  | cons d a ih =>
    rw [List.mem_cons, not_or] at h
    obtain ⟨hd, ha⟩ := h
    rw [List.cons_append, find, if_neg (Ne.symm hd), ih ha]
    rfl

theorem rfind_eq_none {c : Char} {s : Str} : rfind c s = none ↔ c ∉ s := by
  induction s with
  | nil => simp [rfind]
  | cons d s ih =>
    rw [rfind]
    rcases hs : rfind c s with _ | i
    · have hmem : c ∉ s := ih.mp hs
      by_cases hd : d = c
      · simp [hd]
      · simp [hd, hmem, Ne.symm hd]
    · have hmem : c ∈ s := by
        by_contra hc
        rw [ih.mpr hc] at hs
        exact absurd hs (by simp)
      simp [hmem]

theorem rfind_append {c : Char} (a : Str) {b : Str} (h : c ∉ b) :
    rfind c (a ++ c :: b) = some a.length := by
  induction a with
  | nil =>
    rw [List.nil_append, rfind, rfind_eq_none.mpr h]
    simp
  | cons d a ih =>
    rw [List.cons_append, rfind, ih]
    rfl

/-- A character that occurs has a last occurrence. -/
theorem exists_last_of_mem {c : Char} {s : Str} (h : c ∈ s) :
    ∃ a b, s = a ++ c :: b ∧ c ∉ b := by
  obtain ⟨a, b, hs, hb⟩ := List.eq_append_cons_of_mem (List.mem_reverse.mpr h)
  refine ⟨b.reverse, a.reverse, ?_, by simpa using hb⟩
  rw [← List.reverse_reverse s, hs]
  simp

/-- A text is cut in one way at the last `c`. -/
theorem append_cons_inj_of_last {c : Char} {a a' b b' : Str} (hb : c ∉ b) (hb' : c ∉ b')
    (h : a ++ c :: b = a' ++ c :: b') : a = a' ∧ b = b' := by
  have hlen : a.length = a'.length := by
    have h1 := rfind_append a hb
    rw [h, rfind_append a' hb'] at h1
    exact (Option.some_inj.mp h1).symm
  obtain ⟨ha, hcb⟩ := List.append_inj h hlen
  exact ⟨ha, List.tail_eq_of_cons_eq hcb⟩

theorem mem_intercalate {x c : Char} {ws : List Str} (h : c ∈ [x].intercalate ws) :
    c = x ∨ ∃ w ∈ ws, c ∈ w := by
  induction ws with
  | nil => simp at h
  | cons w ws ih =>
    cases ws with
    | nil => exact Or.inr ⟨w, by simp, by simpa using h⟩
    | cons w' ws =>
      rw [List.intercalate_cons_cons, List.append_assoc, List.mem_append] at h
      rcases h with h | h
      · exact Or.inr ⟨w, by simp, h⟩
      · rcases List.mem_cons.mp h with h | h
        · exact Or.inl h
        · obtain h | ⟨v, hv, hc⟩ := ih h
          · exact Or.inl h
          · exact Or.inr ⟨v, List.mem_cons_of_mem w hv, hc⟩

/-! ### Stripping one character -/

/-- `str::strip_prefix` for one character. -/
def stripPrefix (c : Char) : Str → Option Str
  | [] => none
  | d :: s => if d = c then some s else none

/-- `str::strip_suffix` for one character. -/
def stripSuffix (c : Char) (s : Str) : Option Str :=
  if s.getLast? = some c then some s.dropLast else none

@[simp] theorem stripPrefix_cons_self (c : Char) (s : Str) :
    stripPrefix c (c :: s) = some s := by simp [stripPrefix]

theorem stripPrefix_eq_none {c : Char} {s : Str} (h : s.head? ≠ some c) :
    stripPrefix c s = none := by
  cases s with
  | nil => rfl
  | cons d s =>
    rw [stripPrefix, if_neg (by simpa using h)]

@[simp] theorem stripSuffix_append (c : Char) (s : Str) :
    stripSuffix c (s ++ [c]) = some s := by simp [stripSuffix]

theorem stripSuffix_eq_none {c : Char} {s : Str} (h : s.getLast? ≠ some c) :
    stripSuffix c s = none := if_neg h

theorem mem_of_stripPrefix {c d : Char} {s t : Str} (h : stripPrefix c s = some t) (hd : d ∈ s)
    (hne : d ≠ c) : d ∈ t := by
  cases s with
  | nil => cases h
  | cons e s =>
    rw [stripPrefix] at h
    split at h
    · next he =>
      rw [← Option.some_inj.mp h]
      exact (List.mem_cons.mp hd).resolve_left (he ▸ hne)
    · cases h

theorem mem_of_mem_getD_stripPrefix {c d : Char} {s : Str} (h : d ∈ (stripPrefix c s).getD s) :
    d ∈ s := by
  cases s with
  | nil => exact h
  | cons e s =>
    rw [stripPrefix] at h
    split at h
    · exact List.mem_cons_of_mem e h
    · exact h

theorem mem_of_stripSuffix {c d : Char} {s t : Str} (h : stripSuffix c s = some t) (hd : d ∈ s)
    (hne : d ≠ c) : d ∈ t := by
  rw [stripSuffix] at h
  split at h
  · next hlast =>
    obtain ⟨s, rfl⟩ := List.getLast?_eq_some_iff.mp hlast
    rw [List.dropLast_concat, Option.some_inj] at h
    rw [← h]
    exact (List.mem_append.mp hd).resolve_right (mt List.mem_singleton.mp hne)
  · cases h

/-! ### ASCII and letter case -/

/-- Every character is an ASCII character. -/
def IsAscii (s : Str) : Prop := ∀ c ∈ s, c.toNat < 128

instance (s : Str) : Decidable (IsAscii s) :=
  decidable_of_iff (s.all fun c => c.toNat < 128) (by simp [IsAscii])

/-- `str::to_lowercase`.  On ASCII text it is ASCII lower-casing; what it does
elsewhere depends on the Unicode tables and is left open. -/
class Lowercase where
  toLowercase : Str → Str
  toLowercase_ascii : ∀ s, IsAscii s → toLowercase s = s.map Char.toLower

export Lowercase (toLowercase)

/-- The lower-casing that leaves every non-ASCII character alone. -/
@[reducible] def asciiLowercase : Lowercase where
  toLowercase s := s.map Char.toLower
  toLowercase_ascii _ _ := rfl

/-- `str::eq_ignore_ascii_case`: equal up to the case of ASCII letters. -/
def EqIgnoreAsciiCase (s t : Str) : Prop := s.map Char.toLower = t.map Char.toLower

instance (s t : Str) : Decidable (EqIgnoreAsciiCase s t) :=
  inferInstanceAs (Decidable (s.map Char.toLower = t.map Char.toLower))

theorem toLower_eq_iff {c d : Char} (hd : d.isAlpha = false) : c.toLower = d ↔ c = d := by
  have hlower : ∀ {e : Char}, e.isAlpha = false → e.toLower = e := fun {e} he =>
    Char.toLower_eq_of_not_isUpper fun hup => by simp [Char.isAlpha, hup] at he
  constructor
  · rintro rfl
    rw [Char.isAlpha_toLower_eq_isAlpha] at hd
    exact (hlower hd).symm
  · rintro rfl
    exact hlower hd

/-- Lower-casing neither adds nor removes a character that is not a letter. -/
theorem mem_map_toLower {d : Char} (hd : d.isAlpha = false) {s : Str} :
    d ∈ s.map Char.toLower ↔ d ∈ s := by
  rw [List.mem_map]
  constructor
  · rintro ⟨c, hc, hcd⟩
    exact (toLower_eq_iff hd).mp hcd ▸ hc
  · exact fun h => ⟨d, h, (toLower_eq_iff hd).mpr rfl⟩

/-- In the Unicode tables the ASCII characters that are not letters are the lower
case of themselves, and of nothing else. -/
class LawfulLowercase [Lowercase] : Prop where
  mem_toLowercase : ∀ {c : Char} {s : Str}, c.toNat < 128 → c.isAlpha = false →
    (c ∈ toLowercase s ↔ c ∈ s)

theorem lawful_asciiLowercase : @LawfulLowercase asciiLowercase :=
  @LawfulLowercase.mk asciiLowercase fun _ hletter => mem_map_toLower hletter

theorem EqIgnoreAsciiCase.mem_iff {s t : Str} (h : EqIgnoreAsciiCase s t) {d : Char}
    (hd : d.isAlpha = false) : d ∈ s ↔ d ∈ t := by
  rw [← mem_map_toLower hd, h, mem_map_toLower hd]

theorem head?_map_toLower {d : Char} (hd : d.isAlpha = false) {s : Str} :
    (s.map Char.toLower).head? = some d ↔ s.head? = some d := by
  cases s with
  | nil => simp
  | cons c s => simp [toLower_eq_iff hd]

theorem getLast?_map_toLower {d : Char} (hd : d.isAlpha = false) {s : Str} :
    (s.map Char.toLower).getLast? = some d ↔ s.getLast? = some d := by
  rw [List.getLast?_eq_head?_reverse, ← List.map_reverse, head?_map_toLower hd,
    List.getLast?_eq_head?_reverse]

theorem toNat_toLower_lt {c : Char} : c.toLower.toNat < 128 ↔ c.toNat < 128 := by
  by_cases hup : c.isUpper
  · have hle : c.toNat ≤ 90 := by
      simp only [Char.isUpper, decide_eq_true_eq] at hup
      exact hup.2
    rw [Char.toLower_eq_of_isUpper hup, Char.toNat_ofNat, if_pos (by unfold Nat.isValidChar; omega)]
    omega
  · rw [Char.toLower_eq_of_not_isUpper hup]

theorem isAscii_map_toLower {s : Str} : IsAscii (s.map Char.toLower) ↔ IsAscii s := by
  simp only [IsAscii, List.forall_mem_map, toNat_toLower_lt]

theorem EqIgnoreAsciiCase.isAscii_iff {s t : Str} (h : EqIgnoreAsciiCase s t) :
    IsAscii s ↔ IsAscii t := by
  rw [← isAscii_map_toLower, h, isAscii_map_toLower]

end Text
