/-
HTTP messages, as the `http` crate presents them to a program.

The crate itself is not modelled, only the view of it that its documentation
fixes:

* `Multimap` — a header map: any number of values under one name, in order
  (`getAll_append`, `getAll_insert`, `getAll_remove` say what each operation
  does to the values of every name);
* `HeaderValue` — the values, an arbitrary type with the two conversions to
  and from text;
* `Authority`, `Uri`, `Request`, `Response`;
* `Timed` — a future that has been run, with the moment it completed, and
  `timeout` on it.
-/
import ReverseProxy.Text

open Text

/-! ### Multimaps -/

/-- A multimap.  Only the order of the values under one key is meaningful. -/
abbrev Multimap (κ ν : Type) := List (κ × ν)

namespace Multimap

variable {κ ν : Type} [DecidableEq κ]

def getAll (k : κ) (m : Multimap κ ν) : List ν := (m.filter (·.1 = k)).map (·.2)

/-- The first value. -/
def get (k : κ) (m : Multimap κ ν) : Option ν := (getAll k m).head?

def append (k : κ) (v : ν) (m : Multimap κ ν) : Multimap κ ν := m ++ [(k, v)]

def remove (k : κ) (m : Multimap κ ν) : Multimap κ ν := m.filter (·.1 ≠ k)

/-- The new value replaces all the old ones. -/
def insert (k : κ) (v : ν) (m : Multimap κ ν) : Multimap κ ν := append k v (remove k m)

theorem getAll_append (k k' : κ) (v : ν) (m : Multimap κ ν) :
    getAll k (append k' v m) = if k' = k then getAll k m ++ [v] else getAll k m := by
  rw [getAll, append, List.filter_append, List.map_append]
  by_cases hk : k' = k
  · simp [hk, getAll]
  · simp [hk, getAll]

theorem getAll_remove (k k' : κ) (m : Multimap κ ν) :
    getAll k (remove k' m) = if k' = k then [] else getAll k m := by
  rw [getAll, remove, List.filter_filter]
  by_cases hk : k' = k
  · rw [if_pos hk, List.map_eq_nil_iff, List.filter_eq_nil_iff]
    rintro ⟨n, v⟩ - h
    simp_all
  · rw [if_neg hk, getAll]
    congr 1
    refine List.filter_congr fun p _ => ?_
    by_cases hp : p.1 = k
    · simp [hp, Ne.symm hk]
    · simp [hp]

theorem getAll_insert (k k' : κ) (v : ν) (m : Multimap κ ν) :
    getAll k (insert k' v m) = if k' = k then [v] else getAll k m := by
  rw [insert, getAll_append, getAll_remove]
  by_cases hk : k' = k
  · simp [hk]
  · simp [hk]

/-- Removing a list of names, one after the other. -/
theorem getAll_foldl_remove (k : κ) (names : List κ) : ∀ m : Multimap κ ν,
    getAll k (names.foldl (fun m name => remove name m) m)
      = if k ∈ names then [] else getAll k m := by
  induction names with
  | nil => simp
  | cons name names ih =>
    intro m
    rw [List.foldl_cons, ih, getAll_remove]
    by_cases hname : name = k
    · simp [hname]
    · simp [hname, Ne.symm hname]

omit [DecidableEq κ] in
/-- Appending every entry of a multimap to an empty one copies it. -/
theorem foldl_append_eq (m : Multimap κ ν) :
    m.foldl (fun acc p => append p.1 p.2 acc) [] = m := by
  have hacc : ∀ acc : Multimap κ ν, m.foldl (fun acc p => append p.1 p.2 acc) acc = acc ++ m := by
    induction m with
    | nil => simp
    | cons p m ih =>
      intro acc
      rw [List.foldl_cons, ih, append, List.append_assoc]
      rfl
  exact hacc []

end Multimap

namespace Http

/-! ### Header values -/

/-- Visible ASCII characters, spaces and tabs. -/
def IsVisibleAscii (s : Str) : Prop := ∀ c ∈ s, 32 ≤ c.toNat ∧ c.toNat ≤ 126 ∨ c = '\t'

/-- The type of header values with its conversions.  A value need not be
text. -/
class HeaderValue (V : Type) where
  toStr : V → Option Str
  fromStr : Str → Option V
  fromStatic : Str → V
  isVisible_of_toStr : ∀ {v s}, toStr v = some s → IsVisibleAscii s
  toStr_fromStr : ∀ {s}, IsVisibleAscii s → ∃ v, fromStr s = some v ∧ toStr v = some s
  toStr_fromStatic : ∀ {s}, IsVisibleAscii s → toStr (fromStatic s) = some s

/-- Header values kept as text; one with a character outside visible ASCII
is no `str`. -/
@[reducible] def textHeaderValue : HeaderValue Str where
  toStr s := if s.all fun c => (32 ≤ c.toNat && c.toNat ≤ 126) || c == '\t' then some s else none
  fromStr s := some s
  fromStatic s := s
  isVisible_of_toStr := by
    intro v s h
    split at h
    · next hall =>
      rw [← Option.some_inj.mp h]
      intro c hc
      simpa using List.all_eq_true.mp hall c hc
    · exact absurd h (by simp)
  toStr_fromStr := by
    intro s hs
    refine ⟨s, rfl, if_pos (List.all_eq_true.mpr fun c hc => ?_)⟩
    simpa using hs c hc
  toStr_fromStatic := by
    intro s hs
    refine if_pos (List.all_eq_true.mpr fun c hc => ?_)
    simpa using hs c hc

/-! ### Requests and responses -/

/-- The authority of a URI, as its accessors give it: user information and an
unreadable port are dropped, an IP literal keeps its brackets. -/
structure Authority where
  host : Str
  port : Option UInt16
  isVisible : IsVisibleAscii host
  form : host.head? ≠ some '[' ∧ ':' ∉ host ∨
    ∃ inner, host = '[' :: inner ++ [']'] ∧ ']' ∉ inner

structure Uri where
  authority : Option Authority
  path : Str
  query : Option Str

/-- `Uri::host`. -/
def Uri.host (uri : Uri) : Option Str := uri.authority.map (·.host)

/-- Header names are in lower case. -/
abbrev HeaderMap (V : Type) := Multimap Str V

structure Request (V β : Type) where
  method : Str
  uri : Uri
  headers : HeaderMap V
  body : β

structure Response (V β : Type) where
  status : ℕ
  headers : HeaderMap V
  body : β

/-! ### Futures with a deadline -/

/-- The outcome of a future and when it is there, counted in seconds from the
start. -/
structure Timed (α : Type) where
  completesAt : ℚ
  value : α

/-- `tokio::time::timeout`: `none` is the error, at the deadline. -/
def timeout {α : Type} (d : ℚ) (f : Timed α) : Timed (Option α) :=
  if f.completesAt ≤ d then ⟨f.completesAt, some f.value⟩ else ⟨d, none⟩

theorem timeout_value {α : Type} (d : ℚ) (f : Timed α) :
    (timeout d f).value = if f.completesAt ≤ d then some f.value else none := by
  rw [timeout]
  split <;> rfl

theorem timeout_completesAt {α : Type} (d : ℚ) (f : Timed α) :
    (timeout d f).completesAt = min f.completesAt d := by
  rw [timeout]
  split
  · next h => rw [min_eq_left h]
  · next h => rw [min_eq_right (not_le.mp h).le]

end Http
