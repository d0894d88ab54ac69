/-
Computations that act as they go and may fail half way.

A `Traced` computation keeps what it has done also when it fails.  Two kinds
of facts are proved about one: what it has done and returned if it succeeds
(`Yields`), and what it does and how it fails whatever happens (`Within`).
Both go along `>>=`.
-/
import Mathlib.Logic.Basic

structure Traced (ε δ α : Type) where
  trace : List δ
  result : Except ε α

namespace Traced

variable {ε ε' δ α β : Type}

def andThen (x : Traced ε δ α) (f : α → Traced ε δ β) : Traced ε δ β :=
  match x.result with
  | .error e => ⟨x.trace, .error e⟩
  | .ok a => ⟨x.trace ++ (f a).trace, (f a).result⟩

instance : Monad (Traced ε δ) where
  pure a := ⟨[], .ok a⟩
  bind := andThen

def act (d : δ) : Traced ε δ Unit := ⟨[d], .ok ()⟩

def lift (r : Except ε α) : Traced ε δ α := ⟨[], r⟩

def mapError (f : ε → ε') (x : Traced ε δ α) : Traced ε' δ α := ⟨x.trace, x.result.mapError f⟩

/-! ### Success -/

/-- The computation has done `ds` and returned `a`. -/
def Yields (x : Traced ε δ α) (ds : List δ) (a : α) : Prop := x.trace = ds ∧ x.result = .ok a

theorem yields_pure {a b : α} {ds : List δ} :
    (pure a : Traced ε δ α).Yields ds b ↔ ds = [] ∧ b = a := by
  constructor
  · rintro ⟨h, h'⟩
    exact ⟨h.symm, (Except.ok.inj h').symm⟩
  · rintro ⟨rfl, rfl⟩
    exact ⟨rfl, rfl⟩

theorem yields_act {d : δ} {ds : List δ} {u : Unit} :
    (act d : Traced ε δ Unit).Yields ds u ↔ ds = [d] := by
  constructor
  · rintro ⟨h, -⟩
    exact h.symm
  · rintro rfl
    exact ⟨rfl, rfl⟩

theorem yields_lift {r : Except ε α} {ds : List δ} {a : α} :
    (lift r : Traced ε δ α).Yields ds a ↔ ds = [] ∧ r = .ok a := by
  constructor
  · rintro ⟨h, h'⟩
    exact ⟨h.symm, h'⟩
  · rintro ⟨rfl, h⟩
    exact ⟨rfl, h⟩

theorem mapError_eq_ok {f : ε → ε'} {r : Except ε α} {a : α} :
    r.mapError f = .ok a ↔ r = .ok a := by
  cases r with
  | error e => constructor <;> intro h <;> cases h
  | ok b =>
    constructor
    · intro h
      exact congrArg Except.ok (Except.ok.inj h)
    · intro h
      exact congrArg Except.ok (Except.ok.inj h)

theorem yields_mapError {f : ε → ε'} {x : Traced ε δ α} {ds : List δ} {a : α} :
    (x.mapError f).Yields ds a ↔ x.Yields ds a :=
  and_congr_right fun _ => mapError_eq_ok

theorem yields_bind {x : Traced ε δ α} {f : α → Traced ε δ β} {ds : List δ} {b : β} :
    (x >>= f).Yields ds b ↔
      ∃ first a rest, x.Yields first a ∧ (f a).Yields rest b ∧ ds = first ++ rest := by
  obtain ⟨trace, result⟩ := x
  cases result with
  | error e =>
    constructor
    · rintro ⟨-, h⟩
      cases h
    · rintro ⟨_, _, _, ⟨-, h⟩, -⟩
      cases h
  | ok a =>
    constructor
    · rintro ⟨rfl, h⟩
      exact ⟨trace, a, (f a).trace, ⟨rfl, rfl⟩, ⟨rfl, h⟩, rfl⟩
    · rintro ⟨first, a', rest, ⟨hfirst, ha⟩, ⟨hrest, hb⟩, rfl⟩
      obtain rfl := Except.ok.inj ha
      exact ⟨congrArg₂ (· ++ ·) hfirst hrest, hb⟩

theorem Yields.bind {x : Traced ε δ α} {f : α → Traced ε δ β} {first rest : List δ} {a : α}
    {b : β} (h : x.Yields first a) (h' : (f a).Yields rest b) :
    (x >>= f).Yields (first ++ rest) b :=
  yields_bind.mpr ⟨first, a, rest, h, h', rfl⟩

/-- A computation that fails or returns. -/
theorem yields_or_error (x : Traced ε δ α) :
    (∃ ds a, x.Yields ds a) ∨ ∃ e, x.result = .error e := by
  cases h : x.result with
  | error e => exact Or.inr ⟨e, rfl⟩
  | ok a => exact Or.inl ⟨x.trace, a, rfl, h⟩

theorem bind_of_yields {x : Traced ε δ α} {ds : List δ} {a : α} (h : x.Yields ds a)
    (f : α → Traced ε δ β) : x >>= f = ⟨ds ++ (f a).trace, (f a).result⟩ := by
  show x.andThen f = _
  rw [andThen, h.2, h.1]

theorem bind_of_error {x : Traced ε δ α} {e : ε} (h : x.result = .error e)
    (f : α → Traced ε δ β) : x >>= f = ⟨x.trace, .error e⟩ := by
  show x.andThen f = _
  rw [andThen, h]

/-! ### Whatever happens -/

/-- Whether it fails or not, the computation does nothing outside `P` and fails
in no way outside `E`. -/
structure Within (P : δ → Prop) (E : ε → Prop) (x : Traced ε δ α) : Prop where
  trace : ∀ d ∈ x.trace, P d
  error : ∀ e, x.result = .error e → E e

variable {P : δ → Prop} {E : ε → Prop}

theorem within_pure (a : α) : Within P E (pure a) where
  trace _ h := absurd h List.not_mem_nil
  error _ h := by cases h

theorem within_act {d : δ} (h : P d) : Within P E (act d) where
  trace _ hd := List.mem_singleton.mp hd ▸ h
  error _ h := by cases h

theorem within_lift {r : Except ε α} (h : ∀ e, r = .error e → E e) : Within P E (lift r) where
  trace _ h := absurd h List.not_mem_nil
  error := h

theorem mapError_eq_error {f : ε → ε'} {r : Except ε α} {e' : ε'}
    (h : r.mapError f = .error e') : ∃ e, r = .error e ∧ f e = e' := by
  cases r with
  | error e => exact ⟨e, rfl, Except.error.inj h⟩
  | ok a => cases h

theorem within_lift_mapError {f : ε' → ε} {r : Except ε' α} (h : ∀ e, E (f e)) :
    Within P E (lift (r.mapError f)) := by
  refine within_lift fun e' he' => ?_
  obtain ⟨e, -, rfl⟩ := mapError_eq_error he'
  exact h e

theorem Within.mapError {E' : ε' → Prop} {f : ε → ε'} {x : Traced ε δ α} (h : Within P E x)
    (hf : ∀ e, E' (f e)) : Within P E' (x.mapError f) where
  trace := h.trace
  error e' he' := by
    obtain ⟨e, -, rfl⟩ := mapError_eq_error he'
    exact hf e

theorem Within.bind {x : Traced ε δ α} {f : α → Traced ε δ β} (hx : Within P E x)
    (hf : ∀ a, Within P E (f a)) : Within P E (x >>= f) := by
  rcases x.yields_or_error with ⟨ds, a, htrace, ha⟩ | ⟨e, he⟩
  · rw [bind_of_yields ⟨htrace, ha⟩, ← htrace]
    refine ⟨fun d hd => ?_, (hf a).error⟩
    rcases List.mem_append.mp hd with h | h
    · exact hx.trace d h
    · exact (hf a).trace d h
  · rw [bind_of_error he]
    exact ⟨hx.trace, fun e' he' => Except.error.inj he' ▸ hx.error e he⟩

end Traced
