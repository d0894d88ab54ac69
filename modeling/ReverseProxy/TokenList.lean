/-
Comma-separated lists of tokens, the list syntax of header values.

RFC 7230 lets the elements of a list be surrounded by blanks and tabs, and lets
elements be empty.

* `Lists` — a token stands in a value, between two commas;
* `tokens` — the tokens of a value, computed;
* `mem_tokens_iff` — the two agree, for every layout of the value.
-/
import ReverseProxy.Text

open Text

namespace TokenList

def isOws (c : Char) : Bool := c = ' ' || c = '\t'

/-- The characters of a token. -/
def isTchar (c : Char) : Bool := c.isAlphanum || "!#$%&'*+-.^_`|~".toList.contains c

def IsToken (t : Str) : Prop := t ≠ [] ∧ ∀ c ∈ t, isTchar c = true

instance (t : Str) : Decidable (IsToken t) :=
  decidable_of_iff (t ≠ [] ∧ t.all isTchar = true) (by rw [List.all_eq_true, IsToken])

/-- The token is an element of the list: up to blanks and tabs it stands between
two commas, the ends of the value counting as commas. -/
def Lists (value token : Str) : Prop :=
  IsToken token ∧ ∃ before left right after : Str,
    value = before ++ (left ++ token ++ right) ++ after ∧
    (before = [] ∨ ∃ l, before = l ++ [',']) ∧ (after = [] ∨ ∃ r, after = ',' :: r) ∧
    (∀ c ∈ left, isOws c = true) ∧ ∀ c ∈ right, isOws c = true

def trim (p : Char → Bool) (s : Str) : Str := (s.dropWhile p).rdropWhile p

def tokens (value : Str) : List Str :=
  ((value.splitOn ',').map (trim isOws)).filter fun t => decide (IsToken t)

/-! ### Splitting -/

/-- The parts of a split are what stands between two separators. -/
theorem mem_splitOn_iff {x : Char} {w s : Str} : w ∈ s.splitOn x ↔
    x ∉ w ∧ ∃ before after, s = before ++ w ++ after ∧
      (before = [] ∨ ∃ l, before = l ++ [x]) ∧ (after = [] ∨ ∃ r, after = x :: r) := by
  constructor
  · -- induction on the length: the first separator splits the first part off
    intro h
    induction hn : s.length using Nat.strong_induction_on generalizing s with
    | _ n ih =>
      subst hn
      by_cases hx : x ∈ s
      · obtain ⟨first, rest, rfl, hfirst⟩ := List.eq_append_cons_of_mem hx
        rw [List.splitOn_append_cons_self_of_not_mem hfirst] at h
        rcases List.mem_cons.mp h with rfl | h
        · exact ⟨hfirst, [], x :: rest, rfl, Or.inl rfl, Or.inr ⟨rest, rfl⟩⟩
        · have hlt : rest.length < (first ++ x :: rest).length := by
            rw [List.length_append, List.length_cons]
            omega
          obtain ⟨hw, before, after, rfl, hbefore, hafter⟩ := ih _ hlt h rfl
          refine ⟨hw, first ++ x :: before, after, by simp, Or.inr ?_, hafter⟩
          rcases hbefore with rfl | ⟨l, rfl⟩
          · exact ⟨first, rfl⟩
          · exact ⟨first ++ x :: l, by simp⟩
      · rw [List.splitOn_eq_singleton hx, List.mem_singleton] at h
        subst h
        exact ⟨hx, [], [], by simp, Or.inl rfl, Or.inl rfl⟩
  · rintro ⟨hw, before, after, rfl, hbefore, hafter⟩
    have hmem : w ∈ (w ++ after).splitOn x := by
      rcases hafter with rfl | ⟨r, rfl⟩
      · rw [List.append_nil, List.splitOn_eq_singleton hw]
        exact List.mem_singleton_self w
      · rw [List.splitOn_append_cons_self_of_not_mem hw]
        exact List.mem_cons_self
    rcases hbefore with rfl | ⟨l, rfl⟩
    · exact hmem
    · rw [List.append_assoc, List.append_assoc, List.singleton_append,
        List.splitOn_append_cons_self]
      exact List.mem_append_right _ hmem

/-! ### Trimming -/

section trim

variable {p : Char → Bool}

/-- What is trimmed off satisfies the predicate. -/
theorem exists_eq_append_trim (p : Char → Bool) (s : Str) : ∃ left right : Str,
    s = left ++ trim p s ++ right ∧ (∀ c ∈ left, p c = true) ∧ ∀ c ∈ right, p c = true := by
  refine ⟨s.takeWhile p, (s.dropWhile p).rtakeWhile p, ?_, fun c hc => List.mem_takeWhile_imp hc,
    fun c hc => List.mem_rtakeWhile_imp hc⟩
  rw [trim, List.append_assoc, List.rdropWhile_append_rtakeWhile,
    List.takeWhile_append_dropWhile]

theorem dropWhile_append_of_ends {left t : Str} (hleft : ∀ c ∈ left, p c = true) (hne : t ≠ [])
    (ht : ∀ c ∈ t, p c = false) (rest : Str) : (left ++ (t ++ rest)).dropWhile p = t ++ rest := by
  rw [List.dropWhile_append_of_pos hleft]
  obtain ⟨c, t, rfl⟩ := List.exists_cons_of_ne_nil hne
  rw [List.cons_append, List.dropWhile_cons_of_neg]
  rw [ht c List.mem_cons_self]
  exact Bool.false_ne_true

theorem trim_append {left t right : Str} (hleft : ∀ c ∈ left, p c = true) (hne : t ≠ [])
    (ht : ∀ c ∈ t, p c = false) (hright : ∀ c ∈ right, p c = true) :
    trim p (left ++ t ++ right) = t := by
  rw [trim, List.append_assoc, dropWhile_append_of_ends hleft hne ht, List.rdropWhile,
    List.reverse_append, ← List.append_nil t.reverse,
    dropWhile_append_of_ends (fun c hc => hright c (List.mem_reverse.mp hc))
      (mt List.reverse_eq_nil_iff.mp hne) (fun c hc => ht c (List.mem_reverse.mp hc)),
    List.append_nil, List.reverse_reverse]

end trim

/-! ### The tokens of a value -/

theorem isTchar_eq_false {c : Char} (h : isOws c = true ∨ c = ',') : isTchar c = false := by
  rcases h with h | rfl
  · rw [isOws, Bool.or_eq_true, decide_eq_true_eq, decide_eq_true_eq] at h
    rcases h with rfl | rfl
    · decide
    · decide
  · decide

theorem isOws_of_isTchar {c : Char} (h : isTchar c = true) : isOws c = false := by
  by_contra hows
  rw [isTchar_eq_false (Or.inl (Bool.eq_true_of_not_eq_false hows))] at h
  exact Bool.false_ne_true h

theorem mem_tokens_iff {value token : Str} : token ∈ tokens value ↔ Lists value token := by
  rw [tokens, List.mem_filter, List.mem_map, decide_eq_true_eq]
  constructor
  · rintro ⟨⟨w, hw, rfl⟩, htoken⟩
    obtain ⟨-, before, after, hvalue, hbefore, hafter⟩ := mem_splitOn_iff.mp hw
    obtain ⟨left, right, htrim, hleft, hright⟩ := exists_eq_append_trim isOws w
    refine ⟨htoken, before, left, right, after, ?_, hbefore, hafter, hleft, hright⟩
    rw [← htrim]
    exact hvalue
  · rintro ⟨htoken, before, left, right, after, hvalue, hbefore, hafter, hleft, hright⟩
    refine ⟨⟨left ++ token ++ right, mem_splitOn_iff.mpr ⟨?_, before, after, hvalue, hbefore,
      hafter⟩, ?_⟩, htoken⟩
    · -- neither a blank nor a token has a comma
      intro hcomma
      rcases List.mem_append.mp hcomma with hcomma | hcomma
      · rcases List.mem_append.mp hcomma with hcomma | hcomma
        · exact absurd (hleft _ hcomma) (by decide)
        · exact absurd (htoken.2 _ hcomma) (by decide)
      · exact absurd (hright _ hcomma) (by decide)
    · exact trim_append hleft htoken.1 (fun c hc => isOws_of_isTchar (htoken.2 c hc)) hright

example : tokens "close ,\tX-Foo,, keep-alive".toList
    = ["close".toList, "X-Foo".toList, "keep-alive".toList] := by decide +kernel

end TokenList
