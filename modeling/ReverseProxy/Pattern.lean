/-
Searching a text for a pattern.

A pattern is a sequence of pieces: a fixed word, a non-empty run of characters
of a class, or a group whose text is read as a value.  `Matches` says that a
text starts with the pattern, and what the groups capture; `ways` lists the
captures, those of the longest pieces first, and `search` takes the first one
at the first place of the text where there is one.

* `mem_ways` — the list holds what the relation says;
* `search_eq_of_matches`, `search_append` — a search that succeeds at the start
  of the text, and one that passes over what cannot start the pattern;
* `matches_run_word`, `matches_group_word` — a run of characters up to a
  separator, when the text before the separator may hold separators itself,
  and a group up to a separator;
* `matches_textWord`, `matches_textGroup`, `matches_textEnd` — patterns that ask
  for the end of the text;
* `atStart_textGroup_append` — a pattern that begins with `.*` finds its last
  match.
-/
import Mathlib

namespace Pattern

variable {τ κ : Type}

inductive Piece (τ κ : Type) where
  | word (w : List τ)
  | run (p : τ → Bool)
  | group (read : List τ → Option κ)

/-- The text starts with the pattern, whose groups capture the values. -/
def Matches : List (Piece τ κ) → List τ → List κ → Prop
  | [], _, ks => ks = []
  | .word w :: ps, s, ks => ∃ t, s = w ++ t ∧ Matches ps t ks
  | .run p :: ps, s, ks => ∃ u t, s = u ++ t ∧ u ≠ [] ∧ (∀ c ∈ u, p c) ∧ Matches ps t ks
  | .group read :: ps, s, ks => ∃ u t k ks', s = u ++ t ∧ read u = some k ∧ ks = k :: ks' ∧
      Matches ps t ks'

/-! ### The search -/

/-- All ways to cut a text in two, the longest first part first. -/
def cuts (s : List τ) : List (List τ × List τ) :=
  (List.range (s.length + 1)).reverse.map fun n => (s.take n, s.drop n)

theorem mem_cuts {s u t : List τ} : (u, t) ∈ cuts s ↔ s = u ++ t := by
  simp only [cuts, List.mem_map, List.mem_reverse, List.mem_range, Prod.mk.injEq]
  constructor
  · rintro ⟨n, -, rfl, rfl⟩
    exact (List.take_append_drop n s).symm
  · rintro rfl
    refine ⟨u.length, ?_, List.take_left, List.drop_left⟩
    rw [List.length_append]
    omega

section search

variable [DecidableEq τ]

def ways : List (Piece τ κ) → List τ → List (List κ)
  | [], _ => [[]]
  | .word w :: ps, s => if w <+: s then ways ps (s.drop w.length) else []
  | .run p :: ps, s =>
    ((cuts s).filter fun cut => cut.1 ≠ [] ∧ cut.1.all p).flatMap fun cut => ways ps cut.2
  | .group read :: ps, s => (cuts s).flatMap fun cut =>
    match read cut.1 with
    | some k => (ways ps cut.2).map (k :: ·)
    | none => []

theorem mem_ways {ps : List (Piece τ κ)} : ∀ {s : List τ} {ks : List κ},
    ks ∈ ways ps s ↔ Matches ps s ks := by
  induction ps with
  | nil => simp [ways, Matches]
  | cons piece ps ih =>
    intro s ks
    cases piece with
    | word w =>
      rw [ways, Matches]
      split
      · next h =>
        obtain ⟨t, rfl⟩ := h
        simp [ih]
      · next h =>
        simp only [List.not_mem_nil, false_iff]
        rintro ⟨t, rfl, -⟩
        exact h (List.prefix_append w t)
    | run p =>
      simp only [ways, Matches, List.mem_flatMap, List.mem_filter, decide_eq_true_eq, Prod.exists,
        mem_cuts, ih, List.all_eq_true, and_assoc]
    | group read =>
      simp only [ways, Matches, List.mem_flatMap, Prod.exists, mem_cuts]
      constructor
      · rintro ⟨u, t, hs, hks⟩
        rcases hread : read u with _ | k
        · simp [hread] at hks
        · simp only [hread, List.mem_map, ih] at hks
          obtain ⟨ks', hmatch, rfl⟩ := hks
          exact ⟨u, t, k, ks', hs, hread, rfl, hmatch⟩
      · rintro ⟨u, t, k, ks', hs, hread, rfl, hmatch⟩
        refine ⟨u, t, hs, ?_⟩
        simp only [hread, List.mem_map, ih]
        exact ⟨ks', hmatch, rfl⟩

/-- The captures of the leftmost match. -/
def search (ps : List (Piece τ κ)) : List τ → Option (List κ)
  | [] => (ways ps []).head?
  | c :: s => (ways ps (c :: s)).head?.or (search ps s)

/-- The captures of a match at the start, for a pattern that is anchored
there. -/
def atStart (ps : List (Piece τ κ)) (s : List τ) : Option (List κ) := (ways ps s).head?

theorem matches_of_atStart {ps : List (Piece τ κ)} {s : List τ} {ks : List κ}
    (h : atStart ps s = some ks) : Matches ps s ks :=
  mem_ways.mp (List.mem_of_head? h)

theorem exists_atStart {ps : List (Piece τ κ)} {s : List τ} {ks : List κ} (h : Matches ps s ks) :
    ∃ ks', atStart ps s = some ks' := by
  have hmem : ks ∈ ways ps s := mem_ways.mpr h
  rcases hways : ways ps s with _ | ⟨ks', rest⟩
  · rw [hways] at hmem
    exact absurd hmem List.not_mem_nil
  · exact ⟨ks', by rw [atStart, hways, List.head?_cons]⟩

/-- A match at the start, when its captures are determined. -/
theorem search_eq_of_matches {ps : List (Piece τ κ)} {s : List τ} {ks : List κ}
    (h : Matches ps s ks) (hunique : ∀ ks', Matches ps s ks' → ks' = ks) :
    search ps s = some ks := by
  have hhead : (ways ps s).head? = some ks := by
    rcases hways : ways ps s with _ | ⟨ks', rest⟩
    · rw [← mem_ways, hways] at h
      cases h
    · have hmem : ks' ∈ ways ps s := hways ▸ List.mem_cons_self
      rw [List.head?_cons, hunique ks' (mem_ways.mp hmem)]
  cases s with
  | nil => exact hhead
  | cons c s => rw [search, hhead, Option.some_or]

theorem search_cons {ps : List (Piece τ κ)} {c : τ} {s : List τ}
    (h : ∀ ks, ¬ Matches ps (c :: s) ks) : search ps (c :: s) = search ps s := by
  have hnil : ways ps (c :: s) = [] :=
    List.eq_nil_iff_forall_not_mem.mpr fun ks hks => h ks (mem_ways.mp hks)
  rw [search, hnil, List.head?_nil, Option.none_or]

/-- A text without the first character of the pattern is passed over. -/
theorem search_append {ps : List (Piece τ κ)} {x : τ} {w : List τ} {u : List τ} (hx : x ∉ u)
    (s : List τ) : search (.word (x :: w) :: ps) (u ++ s) = search (.word (x :: w) :: ps) s := by
  induction u with
  | nil => rfl
  | cons c u ih =>
    rw [List.mem_cons, not_or] at hx
    rw [List.cons_append, search_cons, ih hx.2]
    rintro ks ⟨t, heq, -⟩
    exact hx.1 (List.cons.inj heq).1.symm

omit [DecidableEq τ] in
theorem cuts_cons (c : τ) (s : List τ) :
    cuts (c :: s) = (cuts s).map (fun cut => (c :: cut.1, cut.2)) ++ [([], c :: s)] := by
  rw [cuts, List.length_cons, List.range_succ_eq_map, List.reverse_cons, List.map_append,
    ← List.map_reverse, List.map_map, cuts, List.map_map]
  rfl

/-- A group that takes any further character at its front, such as `.*`, tries
the later places first. -/
theorem ways_group_cons {read : List τ → Option κ} {c : τ} (hread : ∀ u, read (c :: u) = read u)
    (ps : List (Piece τ κ)) (s : List τ) :
    ways (.group read :: ps) (c :: s) = ways (.group read :: ps) s ++
      match read [] with
      | some k => (ways ps (c :: s)).map (k :: ·)
      | none => [] := by
  rw [ways, cuts_cons, List.flatMap_append, List.flatMap_map, List.flatMap_singleton, ways]
  simp only [hread]

/-- What stands before the last match is of no importance to it. -/
theorem atStart_group_append {read : List τ → Option κ} {x : List τ}
    (hread : ∀ c ∈ x, ∀ u, read (c :: u) = read u) {ps : List (Piece τ κ)} {s : List τ}
    {ks : List κ} (h : Matches (.group read :: ps) s ks) :
    atStart (.group read :: ps) (x ++ s) = atStart (.group read :: ps) s := by
  obtain ⟨ks', hks'⟩ := exists_atStart h
  induction x with
  | nil => rfl
  | cons c x ih =>
    have hrest := ih fun d hd => hread d (List.mem_cons_of_mem c hd)
    rw [hks', atStart] at hrest
    rw [hks', List.cons_append, atStart, ways_group_cons (hread c List.mem_cons_self),
      List.head?_append, hrest, Option.some_or]

end search

/-! ### Runs up to a separator -/

/-- A word that holds the separator only at its start begins either before or
after a given separator of the text. -/
theorem append_eq_word_append {x : τ} {w a z t : List τ} (hw : x ∉ w) (ha : a ≠ [])
    (h : a ++ x :: z = x :: w ++ t) : ∃ v, a = x :: w ++ v ∧ t = v ++ x :: z := by
  rcases List.append_eq_append_iff.mp h with ⟨v, hword, hrest⟩ | ⟨v, hv, ht⟩
  · cases v with
    | nil =>
      rw [List.append_nil] at hword
      exact ⟨[], by rw [List.append_nil, hword], hrest.symm⟩
    | cons y v =>
      -- the separator would stand inside the word
      obtain ⟨c, a', rfl⟩ := List.exists_cons_of_ne_nil ha
      obtain ⟨rfl, -⟩ := List.cons.inj hrest
      obtain ⟨-, rfl⟩ := List.cons.inj hword
      exact absurd (List.mem_append_right a' List.mem_cons_self) hw
  · exact ⟨v, hv, ht⟩

theorem not_mem_of_class {p : τ → Bool} {x : τ} (hx : p x = false) {u : List τ}
    (hu : ∀ c ∈ u, p c) : x ∉ u := by
  intro hmem
  rw [hu x hmem] at hx
  cases hx

theorem matches_run_word {p : τ → Bool} {x : τ} {w : List τ} (hx : p x = false) (hw : x ∉ w)
    {ps : List (Piece τ κ)} {u z : List τ} {ks : List κ} :
    Matches (.run p :: .word (x :: w) :: ps) (u ++ x :: z) ks ↔
      (u ≠ [] ∧ ∀ c ∈ u, p c) ∧ (∃ t, z = w ++ t ∧ Matches ps t ks) ∨
      ∃ b v, u = b ++ (x :: w ++ v) ∧ (b ≠ [] ∧ ∀ c ∈ b, p c) ∧ Matches ps (v ++ x :: z) ks := by
  constructor
  · rintro ⟨b, t', heq, hne, hall, t, rfl, hmatch⟩
    rcases List.append_eq_append_iff.mp heq with ⟨a, rfl, hrest⟩ | ⟨a, rfl, hrest⟩
    · -- the run may not go on over the separator
      cases a with
      | nil =>
        rw [List.append_nil] at hne hall
        exact Or.inl ⟨⟨hne, hall⟩, t, (List.cons.inj hrest).2, hmatch⟩
      | cons y a =>
        obtain ⟨rfl, -⟩ := List.cons.inj hrest
        exact absurd (List.mem_append_right u List.mem_cons_self) (not_mem_of_class hx hall)
    · cases a with
      | nil =>
        rw [List.append_nil]
        exact Or.inl ⟨⟨hne, hall⟩, t, (List.cons.inj hrest).2.symm, hmatch⟩
      | cons y a =>
        -- the run ends early, so the word stands before the separator
        obtain ⟨v, hv, rfl⟩ := append_eq_word_append hw (List.cons_ne_nil y a) hrest.symm
        exact Or.inr ⟨b, v, by rw [hv], ⟨hne, hall⟩, hmatch⟩
  · rintro (⟨⟨hne, hall⟩, t, rfl, hmatch⟩ | ⟨b, v, rfl, ⟨hne, hall⟩, hmatch⟩)
    · exact ⟨u, x :: (w ++ t), rfl, hne, hall, t, rfl, hmatch⟩
    · exact ⟨b, x :: w ++ v ++ x :: z, by rw [List.append_assoc], hne, hall, v ++ x :: z,
        by rw [List.append_assoc], hmatch⟩

/-- A text is cut in one way at the first separator. -/
theorem append_cons_inj_of_first {x : τ} {a a' b b' : List τ} (ha : x ∉ a) (ha' : x ∉ a')
    (h : a ++ x :: b = a' ++ x :: b') : a = a' ∧ b = b' := by
  rcases List.append_eq_append_iff.mp h with ⟨v, rfl, hrest⟩ | ⟨v, rfl, hrest⟩
  · cases v with
    | nil => exact ⟨(List.append_nil a).symm, (List.cons.inj hrest).2⟩
    | cons y v =>
      obtain ⟨rfl, -⟩ := List.cons.inj hrest
      exact absurd (List.mem_append_right a List.mem_cons_self) ha'
  · cases v with
    | nil => exact ⟨List.append_nil a', (List.cons.inj hrest).2.symm⟩
    | cons y v =>
      obtain ⟨rfl, -⟩ := List.cons.inj hrest
      exact absurd (List.mem_append_right a' List.mem_cons_self) ha

/-- A word without separators and with one after it, in a text that is cut at a
separator: it stands after the cut, or it ends at the cut, or before. -/
theorem append_word_cons_eq {x : τ} {a w z b c : List τ} (hw : x ∉ w)
    (h : a ++ (w ++ x :: z) = b ++ x :: c) :
    (∃ a', a = b ++ x :: a' ∧ c = a' ++ (w ++ x :: z)) ∨ (b = a ++ w ∧ c = z) ∨
      ∃ z', b = a ++ (w ++ x :: z') ∧ z = z' ++ x :: c := by
  rcases List.append_eq_append_iff.mp h with ⟨v, rfl, hrest⟩ | ⟨v, rfl, hrest⟩
  · rcases List.append_eq_append_iff.mp hrest with ⟨u, rfl, hz⟩ | ⟨u, rfl, hc⟩
    · cases u with
      | nil => exact Or.inr (Or.inl ⟨by rw [List.append_nil], (List.cons.inj hz).2.symm⟩)
      | cons y u =>
        obtain ⟨rfl, hz'⟩ := List.cons.inj hz
        exact Or.inr (Or.inr ⟨u, rfl, hz'⟩)
    · cases u with
      | nil => exact Or.inr (Or.inl ⟨by rw [List.append_nil], (List.cons.inj hc).2⟩)
      | cons y u =>
        -- the cut would be inside the word
        obtain ⟨rfl, -⟩ := List.cons.inj hc
        exact absurd (List.mem_append_right v List.mem_cons_self) hw
  · cases v with
    | nil =>
      cases w with
      | nil => exact Or.inr (Or.inl ⟨by simp, (List.cons.inj hrest).2⟩)
      | cons y w =>
        obtain ⟨rfl, -⟩ := List.cons.inj hrest
        exact absurd List.mem_cons_self hw
    | cons y v =>
      obtain ⟨rfl, hc⟩ := List.cons.inj hrest
      exact Or.inl ⟨v, rfl, hc⟩

/-- A group up to a separator that its reader does not accept. -/
theorem matches_group_word {read : List τ → Option κ} {x : τ} {w : List τ}
    (hread : ∀ {b k}, read b = some k → x ∉ b) {ps : List (Piece τ κ)} {u z : List τ}
    (hu : x ∉ u) {ks : List κ} :
    Matches (.group read :: .word (x :: w) :: ps) (u ++ (x :: w ++ z)) ks ↔
      ∃ k ks', read u = some k ∧ ks = k :: ks' ∧ Matches ps z ks' := by
  constructor
  · rintro ⟨b, t', k, ks', heq, hk, hks, t, rfl, hmatch⟩
    obtain ⟨rfl, hrest⟩ := append_cons_inj_of_first hu (hread hk) heq
    exact ⟨k, ks', hk, hks, List.append_cancel_left hrest ▸ hmatch⟩
  · rintro ⟨k, ks', hk, hks, hmatch⟩
    exact ⟨u, x :: w ++ z, k, ks', rfl, hk, hks, z, rfl, hmatch⟩

/-- A run at the end of a pattern asks for one character. -/
theorem matches_run {p : τ → Bool} {s : List τ} {ks : List κ} :
    Matches [.run p] s ks ↔ (∃ c t, s = c :: t ∧ p c) ∧ ks = [] := by
  constructor
  · rintro ⟨u, t, rfl, hne, hall, hks⟩
    obtain ⟨c, u, rfl⟩ := List.exists_cons_of_ne_nil hne
    exact ⟨⟨c, u ++ t, rfl, hall c List.mem_cons_self⟩, hks⟩
  · rintro ⟨⟨c, t, rfl, hc⟩, hks⟩
    refine ⟨[c], t, rfl, List.cons_ne_nil c [], ?_, hks⟩
    intro d hd
    rwa [List.mem_singleton.mp hd]

/-! ### Texts with their end -/

/-- The text with a mark for its end, so that a pattern can ask for it. -/
def marked (s : List τ) : List (Option τ) := s.map some ++ [none]

/-- The text, where it does not reach over the end. -/
def plain : List (Option τ) → Option (List τ)
  | [] => some []
  | some c :: u => (plain u).map (c :: ·)
  | none :: _ => none

def textWord (w : List τ) : Piece (Option τ) κ := .word (w.map some)

def textGroup (read : List τ → Option κ) : Piece (Option τ) κ := .group fun u => (plain u).bind read

def textEnd : Piece (Option τ) κ := .word [none]

theorem plain_eq_some {u : List (Option τ)} :
    ∀ {s : List τ}, plain u = some s ↔ u = s.map some := by
  induction u with
  | nil =>
    intro s
    rw [plain, Option.some_inj, eq_comm, eq_comm (a := []), List.map_eq_nil_iff]
  | cons c u ih =>
    intro s
    cases c with
    | none => cases s <;> simp [plain]
    | some c => cases s <;> simp [plain, ih, and_comm]

theorem marked_append (w s : List τ) : marked (w ++ s) = w.map some ++ marked s := by
  rw [marked, List.map_append, List.append_assoc, marked]

theorem marked_eq_append {w : List τ} : ∀ {s : List τ} {t : List (Option τ)},
    marked s = w.map some ++ t ↔ ∃ s', s = w ++ s' ∧ t = marked s' := by
  induction w with
  | nil =>
    intro s t
    exact ⟨fun h => ⟨s, rfl, h.symm⟩, fun ⟨s', hs, ht⟩ => by rw [hs, ht]; rfl⟩
  | cons c w ih =>
    intro s t
    constructor
    · intro h
      cases s with
      | nil => exact absurd (List.cons.inj h).1 nofun
      | cons d s =>
        obtain ⟨hd, hrest⟩ := List.cons.inj h
        obtain ⟨s', rfl, ht⟩ := ih.mp hrest
        exact ⟨s', by rw [Option.some_inj.mp hd]; rfl, ht⟩
    · rintro ⟨s', rfl, rfl⟩
      exact marked_append (c :: w) s'

theorem matches_textWord {w s : List τ} {ps : List (Piece (Option τ) κ)} {ks : List κ} :
    Matches (textWord w :: ps) (marked s) ks ↔ ∃ s', s = w ++ s' ∧ Matches ps (marked s') ks := by
  rw [textWord, Matches]
  constructor
  · rintro ⟨t, ht, hmatch⟩
    obtain ⟨s', hs, rfl⟩ := marked_eq_append.mp ht
    exact ⟨s', hs, hmatch⟩
  · rintro ⟨s', hs, hmatch⟩
    exact ⟨marked s', marked_eq_append.mpr ⟨s', hs, rfl⟩, hmatch⟩

theorem matches_textGroup {read : List τ → Option κ} {s : List τ}
    {ps : List (Piece (Option τ) κ)} {ks : List κ} :
    Matches (textGroup read :: ps) (marked s) ks ↔
      ∃ w s' k ks', s = w ++ s' ∧ read w = some k ∧ ks = k :: ks' ∧ Matches ps (marked s') ks' := by
  rw [textGroup, Matches]
  constructor
  · rintro ⟨u, t, k, ks', hu, hread, hks, hmatch⟩
    obtain ⟨w, hw, hread⟩ := Option.bind_eq_some_iff.mp hread
    rw [plain_eq_some.mp hw] at hu
    obtain ⟨s', hs, rfl⟩ := marked_eq_append.mp hu
    exact ⟨w, s', k, ks', hs, hread, hks, hmatch⟩
  · rintro ⟨w, s', k, ks', hs, hread, hks, hmatch⟩
    refine ⟨w.map some, marked s', k, ks', marked_eq_append.mpr ⟨s', hs, rfl⟩, ?_, hks, hmatch⟩
    rw [plain_eq_some.mpr rfl, Option.bind_some, hread]

theorem matches_textEnd {s : List τ} {ks : List κ} :
    Matches [textEnd] (marked s) ks ↔ s = [] ∧ ks = [] := by
  rw [textEnd, Matches]
  constructor
  · rintro ⟨t, ht, hks⟩
    cases s with
    | nil => exact ⟨rfl, hks⟩
    | cons c s => exact absurd (List.cons.inj ht).1 nofun
  · rintro ⟨rfl, hks⟩
    exact ⟨[], rfl, hks⟩

/-- A pattern that begins with `.*` finds its last match. -/
theorem atStart_textGroup_append [DecidableEq τ] {read : List τ → Option κ} {x : List τ}
    (hread : ∀ c ∈ x, ∀ w, read (c :: w) = read w) {ps : List (Piece (Option τ) κ)} {s : List τ}
    {ks : List κ} (h : Matches (textGroup read :: ps) (marked s) ks) :
    atStart (textGroup read :: ps) (marked (x ++ s))
      = atStart (textGroup read :: ps) (marked s) := by
  rw [marked_append]
  refine atStart_group_append (fun c hc u => ?_) h
  obtain ⟨d, hd, rfl⟩ := List.mem_map.mp hc
  rw [plain, Option.bind_map]
  exact congrArg _ (funext (hread d hd))

end Pattern
