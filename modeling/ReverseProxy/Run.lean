/-
Runs of a transition system.

A system is a partial step function on states and events, where `none` means
that the event cannot happen in that state; a run is a list of events that can
happen one after the other.

* `run_append` — runs compose;
* `run_induction`, `run_induction_events`, `run_induction_along` — an invariant
  of the steps is an invariant of the runs, of all runs, of those whose events
  are of one kind, or of those along which every step meets a condition;
* `along_congr` — two conditions that agree on an invariant;
* `run_count`, `run_any` — a quantity that each step of one kind raises by one
  counts these steps, a flag that they set tells whether there was one;
* `countP_set`, `countP_le_add` — counting the parties of a system by their
  phases;
* `eq_of_filter_eq` — a sequence in time order is determined by what happens at
  each moment.
-/
import Mathlib

namespace Run

variable {σ ε : Type} (step : σ → ε → Option σ)

def run : σ → List ε → Option σ
  | s, [] => some s
  | s, e :: es => (step s e).bind fun s' => run s' es

theorem run_cons (s : σ) (e : ε) (es : List ε) :
    run step s (e :: es) = (step s e).bind fun s' => run step s' es := rfl

theorem run_append (es es' : List ε) : ∀ s : σ,
    run step s (es ++ es') = (run step s es).bind fun s' => run step s' es' := by
  induction es with
  | nil => exact fun s => rfl
  | cons e es ih =>
    intro s
    rw [List.cons_append, run_cons, run_cons, Option.bind_assoc]
    congr 1
    funext s'
    exact ih s'

/-- The condition holds of every state and the event that happens in it. -/
def Along (P : σ → ε → Prop) : σ → List ε → Prop
  | _, [] => True
  | s, e :: es => P s e ∧ ∀ s', step s e = some s' → Along P s' es

variable {step}

theorem along_cons {P : σ → ε → Prop} {s t : σ} {e : ε} (h : step s e = some t) (es : List ε) :
    Along step P s (e :: es) ↔ P s e ∧ Along step P t es := by
  refine and_congr_right fun _ => ⟨fun halong => halong t h, fun halong s' hs' => ?_⟩
  rw [h, Option.some_inj] at hs'
  exact hs' ▸ halong

instance Along.decidable {P : σ → ε → Prop} [∀ s e, Decidable (P s e)] :
    ∀ (es : List ε) (s : σ), Decidable (Along step P s es)
  | [], _ => .isTrue trivial
  | e :: es, s =>
    match h : step s e with
    | none => decidable_of_iff (P s e)
        ⟨fun hP => ⟨hP, fun _ hs' => absurd (h.symm.trans hs') nofun⟩, And.left⟩
    | some t =>
      have : Decidable (Along step P t es) := Along.decidable es t
      decidable_of_iff (P s e ∧ Along step P t es) (along_cons h es).symm

theorem run_induction_along {P : σ → ε → Prop} {I : σ → Prop}
    (hstep : ∀ {s e s'}, I s → P s e → step s e = some s' → I s') (es : List ε) :
    ∀ {s s' : σ}, I s → Along step P s es → run step s es = some s' → I s' := by
  induction es with
  | nil =>
    intro s s' hs _ h
    exact Option.some_inj.mp h ▸ hs
  | cons e es ih =>
    rintro s s' hs ⟨hP, halong⟩ h
    obtain ⟨t, ht, h⟩ := Option.bind_eq_some_iff.mp h
    exact ih (hstep hs hP ht) (halong t ht) h

/-- An invariant of the events of one kind may be used for the condition. -/
theorem along_of_induction {P : σ → ε → Prop} {I : σ → Prop} {Q : ε → Prop}
    (hstep : ∀ {s e s'}, I s → Q e → step s e = some s' → I s')
    (hP : ∀ {s e}, I s → Q e → P s e) (es : List ε) (hes : ∀ e ∈ es, Q e) :
    ∀ {s : σ}, I s → Along step P s es := by
  induction es with
  | nil => exact fun _ => trivial
  | cons e es ih =>
    intro s hs
    have he : Q e := hes e List.mem_cons_self
    exact ⟨hP hs he, fun s' h =>
      ih (fun e' he' => hes e' (List.mem_cons_of_mem e he')) (hstep hs he h)⟩

/-- Conditions that agree where the invariant holds agree along the runs that
keep it. -/
theorem along_congr {P P' Q : σ → ε → Prop} {I : σ → Prop}
    (hstep : ∀ {s e s'}, I s → Q s e → step s e = some s' → I s')
    (hP : ∀ {s e}, I s → Q s e → (P s e ↔ P' s e)) (es : List ε) :
    ∀ {s : σ}, I s → Along step Q s es → (Along step P s es ↔ Along step P' s es) := by
  induction es with
  | nil => exact fun _ _ => Iff.rfl
  | cons e es ih =>
    rintro s hs ⟨hQ, halong⟩
    refine and_congr (hP hs hQ) (forall₂_congr fun s' h => ?_)
    exact ih (hstep hs hQ h) (halong s' h)

theorem run_induction_events {I : σ → Prop} {Q : ε → Prop}
    (hstep : ∀ {s e s'}, I s → Q e → step s e = some s' → I s') {es : List ε}
    (hes : ∀ e ∈ es, Q e) {s s' : σ} (hs : I s) (h : run step s es = some s') : I s' :=
  run_induction_along (P := fun _ e => Q e) hstep es hs
    (along_of_induction hstep (fun _ he => he) es hes hs) h

theorem run_induction {I : σ → Prop}
    (hstep : ∀ {s e s'}, I s → step s e = some s' → I s') {es : List ε} {s s' : σ}
    (hs : I s) (h : run step s es = some s') : I s' :=
  run_induction_events (Q := fun _ => True) (fun hs _ h => hstep hs h) (fun _ _ => trivial) hs h

theorem run_count {f : σ → ℕ} {p : ε → Bool}
    (hstep : ∀ {s e s'}, step s e = some s' → f s' = f s + if p e then 1 else 0) (es : List ε) :
    ∀ {s s' : σ}, run step s es = some s' → f s' = f s + es.countP p := by
  induction es with
  | nil =>
    intro s s' h
    rw [Option.some_inj.mp h, List.countP_nil, Nat.add_zero]
  | cons e es ih =>
    intro s s' h
    obtain ⟨t, ht, h⟩ := Option.bind_eq_some_iff.mp h
    rw [ih h, hstep ht, List.countP_cons]
    omega

/-- A flag that the steps of one kind raise tells whether there was one. -/
theorem run_any {f : σ → Bool} {p : ε → Bool}
    (hstep : ∀ {s e s'}, step s e = some s' → f s' = (f s || p e)) (es : List ε) :
    ∀ {s s' : σ}, run step s es = some s' → f s' = (f s || es.any p) := by
  induction es with
  | nil =>
    intro s s' h
    rw [Option.some_inj.mp h, List.any_nil, Bool.or_false]
  | cons e es ih =>
    intro s s' h
    obtain ⟨t, ht, h⟩ := Option.bind_eq_some_iff.mp h
    rw [ih h, hstep ht, List.any_cons, Bool.or_assoc]

/-! ### Parties in phases -/

variable {α : Type}

/-- Replacing one phase moves a count by the old and the new one. -/
theorem countP_set {f : α → Bool} {ps : List α} {i : ℕ} {p : α} (h : ps[i]? = some p) (q : α) :
    (ps.set i q).countP f + (if f p then 1 else 0) = ps.countP f + if f q then 1 else 0 := by
  obtain ⟨hi, rfl⟩ := List.getElem?_eq_some_iff.mp h
  rw [List.countP_set hi]
  by_cases hp : f ps[i]
  · have hpos : 0 < ps.countP f := List.countP_pos_iff.mpr ⟨_, List.getElem_mem hi, hp⟩
    rw [if_pos hp]
    omega
  · rw [if_neg hp]
    omega

theorem countP_le_add {f g h : α → Bool} (hor : ∀ p, f p = true → g p = true ∨ h p = true)
    (ps : List α) : ps.countP f ≤ ps.countP g + ps.countP h := by
  induction ps with
  | nil => exact Nat.zero_le _
  | cons p ps ih =>
    rw [List.countP_cons, List.countP_cons, List.countP_cons]
    by_cases hf : f p
    · rcases hor p hf with hg | hh
      · rw [if_pos hf, if_pos hg]
        omega
      · rw [if_pos hf, if_pos hh]
        omega
    · rw [if_neg hf]
      omega

/-! ### Sequences in time order -/

variable {τ : Type} [LinearOrder τ] {time : α → τ}

theorem time_head_le {x : α} {l : List α} (h : (x :: l).Pairwise fun a b => time a ≤ time b)
    {y : α} (hy : y ∈ x :: l) : time x ≤ time y := by
  rcases List.mem_cons.mp hy with rfl | hy
  · exact le_rfl
  · exact (List.pairwise_cons.mp h).1 y hy

/-- What happens at each moment determines the whole. -/
theorem eq_of_filter_eq (l : List α) : ∀ {l' : List α},
    (l.Pairwise fun a b => time a ≤ time b) → (l'.Pairwise fun a b => time a ≤ time b) →
    (∀ t, l.filter (time · = t) = l'.filter (time · = t)) → l = l' := by
  induction l with
  | nil =>
    intro l' _ _ h
    refine (List.eq_nil_iff_forall_not_mem.mpr fun y hy => ?_).symm
    have hmem : y ∈ l'.filter (time · = time y) := List.mem_filter.mpr ⟨hy, by simp⟩
    rw [← h] at hmem
    exact absurd hmem List.not_mem_nil
  | cons x l ih =>
    intro l' hl hl' h
    have hx : x ∈ l'.filter (time · = time x) := h (time x) ▸ List.mem_filter.mpr ⟨by simp, by simp⟩
    cases l' with
    | nil => exact absurd hx List.not_mem_nil
    | cons y l' =>
      have hy : y ∈ (x :: l).filter (time · = time y) :=
        h (time y) ▸ List.mem_filter.mpr ⟨by simp, by simp⟩
      have hxy : time x = time y :=
        le_antisymm (time_head_le hl (List.mem_filter.mp hy).1)
          (time_head_le hl' (List.mem_filter.mp hx).1)
      have hhead := h (time x)
      rw [List.filter_cons_of_pos (by simp), List.filter_cons_of_pos (by simp [hxy])] at hhead
      obtain ⟨rfl, htail⟩ := List.cons_eq_cons.mp hhead
      refine congrArg (x :: ·) (ih hl.of_cons hl'.of_cons fun t => ?_)
      by_cases ht : time x = t
      · exact ht ▸ htail
      · have hrest := h t
        rwa [List.filter_cons_of_neg (by simp [ht]), List.filter_cons_of_neg (by simp [ht])]
          at hrest

end Run
