/-
URIs as texts, and what is assumed of the parser of the `http` crate.

The parser is a parameter of everything that builds on it.  `UriParser` says what
is used of its documentation: after `scheme://` the authority extends to the
first `/`, `?` or `#` and the rest is path and query; an authority with more than
one colon outside brackets is rejected; one that is an `AuthorityText` is
accepted with any path and query that were accepted before, up to a limit on the
length.

* `splitParts_append` — the parts of a text that is put together from an
  authority, a path and a query;
* `AuthorityText.colonsOutside_le` — the authorities that are accepted have at
  most one such colon;
* `simpleParser` — a parser that is as assumed.
-/
import ReverseProxy.Handler

open Text NetAddr Http

namespace UpstreamUri

/-! ### The parts of a URI -/

structure UriParts where
  scheme : Str
  authority : Str
  path : Str
  query : Option Str
  deriving DecidableEq

def queryText (query : Option Str) : Str := (query.map ('?' :: ·)).getD []

def uriText (scheme authority path : Str) (query : Option Str) : Str :=
  scheme ++ "://".toList ++ authority ++ path ++ queryText query

/-- What ends the authority. -/
def isDelim (c : Char) : Bool := c = '/' ∨ c = '?' ∨ c = '#'

/-- What ends the path. -/
def isPathEnd (c : Char) : Bool := c = '?' ∨ c = '#'

def authorityOf (rest : Str) : Str := rest.takeWhile (!isDelim ·)

def queryOf (tail : Str) : Option Str :=
  match tail.dropWhile (!isPathEnd ·) with
  | '?' :: query => some (query.takeWhile (· ≠ '#'))
  | _ => none

/-- What stands after `scheme://`, cut into its parts.  An empty path reads as
`/`. -/
def splitParts (scheme rest : Str) : UriParts where
  scheme := scheme
  authority := authorityOf rest
  path :=
    let path := (rest.dropWhile (!isDelim ·)).takeWhile (!isPathEnd ·)
    if path = [] then "/".toList else path
  query := queryOf (rest.dropWhile (!isDelim ·))

/-- The path and the query of a URI: the path has no `?` or `#` in it and the
query no `#`. -/
structure PathAndQuery (path : Str) (query : Option Str) : Prop where
  path_clean : ∀ c ∈ path, isPathEnd c = false
  query_clean : ∀ q, query = some q → '#' ∉ q

/-- A path that does not run into the authority before it. -/
def Rooted (path : Str) : Prop := path = [] ∨ path.head? = some '/'

section split

variable {authority path : Str} {query : Option Str}

theorem head_delim (h : Rooted path) (query : Option Str) :
    ∀ c ∈ (path ++ queryText query).head?, isDelim c = true := by
  intro c hc
  rcases h with rfl | h
  · cases query with
    | none => cases hc
    | some q =>
      obtain rfl : '?' = c := Option.some_inj.mp hc
      rfl
  · have hne : path ≠ [] := fun hnil => by rw [hnil] at h; cases h
    rw [List.head?_append_of_ne_nil _ hne, h] at hc
    obtain rfl : '/' = c := Option.some_inj.mp hc
    rfl

/-- The authority ends where the path begins. -/
theorem authorityOf_append (hauthority : ∀ c ∈ authority, isDelim c = false) {tail : Str}
    (htail : ∀ c ∈ tail.head?, isDelim c = true) :
    authorityOf (authority ++ tail) = authority ∧
      (authority ++ tail).dropWhile (!isDelim ·) = tail := by
  have hall : ∀ c ∈ authority, (!isDelim c) = true := fun c hc => by rw [hauthority c hc]; rfl
  rw [authorityOf, List.takeWhile_append_of_pos hall, List.dropWhile_append_of_pos hall]
  cases tail with
  | nil => simp
  | cons c tail => simp [htail c rfl]

theorem takeWhile_path (h : PathAndQuery path query) :
    (path ++ queryText query).takeWhile (!isPathEnd ·) = path ∧
      queryOf (path ++ queryText query) = query := by
  have hall : ∀ c ∈ path, (!isPathEnd c) = true := fun c hc => by rw [h.path_clean c hc]; rfl
  rw [queryOf, List.takeWhile_append_of_pos hall, List.dropWhile_append_of_pos hall]
  cases query with
  | none => exact ⟨List.append_nil path, rfl⟩
  | some q =>
    have hq : ∀ c ∈ q, decide (c ≠ '#') = true := fun c hc =>
      decide_eq_true fun heq => h.query_clean q rfl (heq ▸ hc)
    refine ⟨List.append_nil path, ?_⟩
    exact congrArg some (List.takeWhile_eq_self_iff.mpr hq)

/-- **The parts of a text that is put together.** -/
theorem splitParts_append (scheme : Str) (hauthority : ∀ c ∈ authority, isDelim c = false)
    (hrooted : Rooted path) (hpath : PathAndQuery path query) :
    splitParts scheme (authority ++ (path ++ queryText query))
      = ⟨scheme, authority, if path = [] then "/".toList else path, query⟩ := by
  obtain ⟨ha, htail⟩ := authorityOf_append hauthority (head_delim hrooted query)
  obtain ⟨hp, hq⟩ := takeWhile_path hpath
  rw [splitParts, ha, htail, hp, hq]

end split

/-! ### Authorities -/

/-- The colons outside brackets. -/
def colonsOutside : Bool → Str → ℕ
  | _, [] => 0
  | inside, c :: s =>
    if c = '[' then colonsOutside true s
    else if c = ']' then colonsOutside false s
    else (if c = ':' ∧ inside = false then 1 else 0) + colonsOutside inside s

/-- Letters and digits, the other unreserved characters, and the sub-delimiters
of RFC 3986. -/
def isNameChar (c : Char) : Bool := c.isAlphanum || "-._~!$&'()*+,;=".toList.contains c

/-- An IPv6 address in brackets or nothing, and name characters with at most one
colon. -/
structure AuthorityText (a : Str) : Prop where
  ne_nil : a ≠ []
  form : ∃ literal rest, a = literal ++ rest ∧
    (literal = [] ∨ ∃ inner ip, literal = '[' :: inner ++ [']'] ∧ Ipv6Addr.parse inner = some ip) ∧
    (∀ c ∈ rest, isNameChar c = true ∨ c = ':') ∧ rest.count ':' ≤ 1

theorem colonsOutside_of_no_brackets (inside : Bool) {s : Str} (hopen : '[' ∉ s)
    (hclose : ']' ∉ s) : colonsOutside inside s = if inside then 0 else s.count ':' := by
  induction s with
  | nil => cases inside <;> rfl
  | cons c s ih =>
    rw [List.mem_cons, not_or] at hopen hclose
    rw [colonsOutside, if_neg (Ne.symm hopen.1), if_neg (Ne.symm hclose.1), ih hopen.2 hclose.2]
    cases inside with
    | true => simp
    | false =>
      by_cases hc : c = ':'
      · simp [hc, Nat.add_comm]
      · simp [hc]

/-- What is in brackets does not count. -/
theorem colonsOutside_literal {inner rest : Str} (hopen : '[' ∉ inner) (hclose : ']' ∉ inner) :
    colonsOutside false ('[' :: inner ++ [']'] ++ rest) = colonsOutside false rest := by
  have hinner : ∀ s : Str, '[' ∉ s → ']' ∉ s →
      colonsOutside true (s ++ ']' :: rest) = colonsOutside false rest := by
    intro s
    induction s with
    | nil => exact fun _ _ => rfl
    | cons c s ih =>
      intro ho hc
      rw [List.mem_cons, not_or] at ho hc
      rw [List.cons_append, colonsOutside, if_neg (Ne.symm ho.1), if_neg (Ne.symm hc.1),
        ih ho.2 hc.2]
      simp
  have htext : '[' :: inner ++ [']'] ++ rest = '[' :: (inner ++ ']' :: rest) := by simp
  rw [htext, colonsOutside, if_pos rfl, hinner inner hopen hclose]

theorem not_addrChar_bracket : ¬ AddrChar '[' ∧ ¬ AddrChar ']' := by decide

theorem AuthorityText.colonsOutside_le {a : Str} (h : AuthorityText a) :
    colonsOutside false a ≤ 1 := by
  obtain ⟨literal, rest, rfl, hliteral, hchars, hcount⟩ := h.form
  have hopen : '[' ∉ rest := fun hmem => absurd (hchars _ hmem) (by decide)
  have hclose : ']' ∉ rest := fun hmem => absurd (hchars _ hmem) (by decide)
  have hrest : colonsOutside false rest ≤ 1 := by
    rw [colonsOutside_of_no_brackets false hopen hclose]
    exact hcount
  rcases hliteral with rfl | ⟨inner, ip, rfl, hip⟩
  · exact hrest
  · have hinner := readIpv6Addr_readsOnly.of_parseWith hip
    rw [colonsOutside_literal (fun hmem => not_addrChar_bracket.1 (hinner _ hmem))
      fun hmem => not_addrChar_bracket.2 (hinner _ hmem)]
    exact hrest

theorem AuthorityText.not_delim {a : Str} (h : AuthorityText a) : ∀ c ∈ a, isDelim c = false := by
  obtain ⟨literal, rest, rfl, hliteral, hchars, -⟩ := h.form
  -- none of the three delimiters is a name character, an address character or a bracket
  have hdelims : ∀ c, isDelim c = true → isNameChar c = false ∧ ¬ AddrChar c ∧ c ≠ ':' ∧
      c ≠ '[' ∧ c ≠ ']' := by
    intro c hc
    rcases of_decide_eq_true hc with rfl | rfl | rfl <;> decide
  intro c hc
  by_contra hdelim
  obtain ⟨hname, haddr, hcolon, hopen, hclose⟩ := hdelims c (Bool.eq_true_of_not_eq_false hdelim)
  rcases List.mem_append.mp hc with hc | hc
  · rcases hliteral with rfl | ⟨inner, ip, rfl, hip⟩
    · exact absurd hc List.not_mem_nil
    · have hinner := readIpv6Addr_readsOnly.of_parseWith hip
      rcases List.mem_append.mp hc with hc | hc
      · rcases List.mem_cons.mp hc with heq | hc
        · exact hopen heq
        · exact haddr (hinner c hc)
      · exact hclose (List.mem_singleton.mp hc)
  · rcases hchars c hc with heq | heq
    · rw [hname] at heq
      cases heq
    · exact hcolon heq

/-! ### The parser -/

def IsScheme (scheme : Str) : Prop := scheme = "http".toList ∨ scheme = "https".toList

structure UriParser where
  parse : Str → Option UriParts
  /-- The text is within the limit on the length. -/
  fits : Str → Prop
  /-- The path and the query have been accepted as such. -/
  pathOk : Str → Option Str → Prop
  /-- A URI is its parts. -/
  parts : ∀ {scheme rest u}, IsScheme scheme →
    parse (scheme ++ "://".toList ++ rest) = some u → u = splitParts scheme rest
  /-- Two colons in an authority without brackets and user information. -/
  rejects : ∀ {scheme rest}, IsScheme scheme → '@' ∉ authorityOf rest → '[' ∉ authorityOf rest →
    1 < colonsOutside false (authorityOf rest) → parse (scheme ++ "://".toList ++ rest) = none
  tooLong : ∀ {text}, ¬ fits text → parse text = none
  accepts : ∀ {scheme authority path query}, IsScheme scheme → AuthorityText authority →
    Rooted path → pathOk path query → fits (uriText scheme authority path query) →
    (parse (uriText scheme authority path query)).isSome = true
  /-- A path can be left out. -/
  pathOk_nil : ∀ {path query}, pathOk path query → pathOk [] query

theorem uriText_eq (scheme authority path : Str) (query : Option Str) :
    uriText scheme authority path query
      = scheme ++ "://".toList ++ (authority ++ (path ++ queryText query)) := by
  rw [uriText, List.append_assoc, List.append_assoc]

/-! ### A parser of this kind -/

def stripScheme (s : Str) : Option (Str × Str) :=
  if "http://".toList.isPrefixOf s then some ("http".toList, s.drop 7)
  else if "https://".toList.isPrefixOf s then some ("https".toList, s.drop 8)
  else none

theorem stripScheme_append {scheme : Str} (h : IsScheme scheme) (rest : Str) :
    stripScheme (scheme ++ "://".toList ++ rest) = some (scheme, rest) := by
  rcases h with rfl | rfl <;> rfl

def simpleParse (s : Str) : Option UriParts :=
  if s.length ≤ 65534 then
    (stripScheme s).bind fun p =>
      if colonsOutside false (authorityOf p.2) ≤ 1 then some (splitParts p.1 p.2) else none
  else none

theorem simpleParse_append {scheme : Str} (h : IsScheme scheme) (rest : Str) :
    simpleParse (scheme ++ "://".toList ++ rest) =
      if (scheme ++ "://".toList ++ rest).length ≤ 65534 then
        if colonsOutside false (authorityOf rest) ≤ 1 then some (splitParts scheme rest) else none
      else none := by
  rw [simpleParse, stripScheme_append h, Option.bind_some]

def simpleParser : UriParser where
  parse := simpleParse
  fits s := s.length ≤ 65534
  pathOk _ _ := True
  parts {scheme rest u} hscheme h := by
    rw [simpleParse_append hscheme] at h
    split_ifs at h
    exact (Option.some_inj.mp h).symm
  rejects {scheme rest} hscheme _ _ hcolons := by
    rw [simpleParse_append hscheme, if_neg (not_le.mpr hcolons), ite_self]
  tooLong hlong := if_neg hlong
  accepts {scheme authority path query} hscheme hauthority hrooted _ hfits := by
    have ha := (authorityOf_append hauthority.not_delim (head_delim hrooted query)).1
    rw [uriText_eq] at hfits ⊢
    rw [simpleParse_append hscheme, if_pos hfits, ha, if_pos hauthority.colonsOutside_le]
    rfl
  pathOk_nil _ := trivial

end UpstreamUri
