/-
Keys that a scan has already seen.

A loop that inserts the key of each element into a set and reports the key when
it was there already.

* `count_repeats` — a key is reported once less than it occurs, or as often as
  it occurs when it was in the set at the start;
* `repeats_perm` — the order of the elements does not matter;
* `repeats_eq_nil` — nothing is reported when the keys are new and distinct.
-/
import Mathlib.Data.List.Perm.Basic
import Mathlib.Data.List.Nodup

namespace List

variable {κ : Type} [DecidableEq κ]

/-- The keys that are reported, in order, when those of `seen` are in the set
already. -/
def repeats : List κ → List κ → List κ
  | _, [] => []
  | seen, k :: ks => (if k ∈ seen then [k] else []) ++ repeats (k :: seen) ks

theorem count_repeats (x : κ) (ks : List κ) : ∀ seen : List κ,
    (repeats seen ks).count x = ks.count x - if x ∈ seen then 0 else 1 := by
  induction ks with
  | nil => exact fun seen => (Nat.zero_sub _).symm
  | cons k ks ih =>
    intro seen
    rw [repeats, count_append, ih (k :: seen), count_cons]
    by_cases hk : k = x
    · subst hk
      by_cases hseen : k ∈ seen
      · simp [hseen]
        omega
      · simp [hseen]
    · have hx : x ≠ k := fun h => hk h.symm
      by_cases hseen : k ∈ seen <;> simp [hseen, hk, hx]

theorem repeats_perm {ks ks' : List κ} (h : ks.Perm ks') (seen : List κ) :
    (repeats seen ks).Perm (repeats seen ks') := by
  refine perm_iff_count.mpr fun x => ?_
  rw [count_repeats, count_repeats, h.count_eq]

theorem repeats_eq_nil (ks : List κ) : ∀ {seen : List κ},
    repeats seen ks = [] ↔ ks.Nodup ∧ ∀ k ∈ ks, k ∉ seen := by
  induction ks with
  | nil => exact fun {seen} => by simp [repeats]
  | cons k ks ih =>
    intro seen
    rw [repeats, append_eq_nil_iff, ih, nodup_cons, forall_mem_cons]
    by_cases hk : k ∈ seen
    · simp [hk]
    · simp only [hk, if_false, true_and, not_false_eq_true, mem_cons, not_or]
      constructor
      · rintro ⟨hnodup, hnew⟩
        exact ⟨⟨fun hmem => (hnew k hmem).1 rfl, hnodup⟩, fun x hx => (hnew x hx).2⟩
      · rintro ⟨⟨hmem, hnodup⟩, hnew⟩
        exact ⟨hnodup, fun x hx => ⟨fun heq => hmem (heq ▸ hx), hnew x hx⟩⟩

end List
