/-
The parser under `std::net`, and numbers in it.

The address parser of the Rust standard library is a state machine over the
rest of the input; every composite read is atomic, so a failed read leaves
the rest as it was.  That is `StateT Str Option` (`Parser`).  This file has
its primitive reads and the number reader, together with the two ways in
which all later parsers are reasoned about:

* `StopsAt c p` — `p` never looks past a `c`, so what it reads before a `c`
  does not depend on what follows it;
* `ReadsOnly P p` — what `p` takes off the front of its input is made of
  characters that satisfy `P`.

Both are closed under `>>=`.  `readNumber_toDigits` is the number round trip.
-/
import ReverseProxy.Text

open Text

namespace AddrParser

/-- A parser: the rest of the input is its state, failure restores it. -/
abbrev Parser (α : Type) := StateT Str Option α

theorem bind_apply {α β : Type} (p : Parser α) (f : α → Parser β) (s : Str) :
    (p >>= f) s = (p s).bind fun x => f x.1 x.2 := rfl

theorem bind_eq_some {α β : Type} {p : Parser α} {f : α → Parser β} {s t : Str} {y : β} :
    (p >>= f) s = some (y, t) ↔ ∃ x r, p s = some (x, r) ∧ f x r = some (y, t) := by
  rw [bind_apply, Option.bind_eq_some_iff, Prod.exists]

theorem pure_eq_some {α : Type} {x y : α} {s t : Str} :
    (pure x : Parser α) s = some (y, t) ↔ x = y ∧ s = t := by
  rw [← Prod.mk.injEq]
  exact Option.some_inj

/-- `Parser::parse_with`: the whole input has to be used up. -/
def parseWith {α : Type} (p : Parser α) (s : Str) : Option α :=
  match p s with
  | some (a, []) => some a
  | _ => none

theorem parseWith_eq_some {α : Type} {p : Parser α} {s : Str} {a : α} :
    parseWith p s = some a ↔ p s = some (a, []) := by
  rw [parseWith]
  constructor
  · intro h
    split at h
    · rename_i b heq
      rw [heq, Option.some_inj.mp h]
    · exact absurd h (by simp)
  · intro h
    rw [h]

/-! ### Locality -/

/-- `p` never looks past a `c`. -/
def StopsAt {α : Type} (c : Char) (p : Parser α) : Prop :=
  ∀ s r, p (s ++ c :: r) = (p s).map fun x => (x.1, x.2 ++ c :: r)

/-- What `p` takes off the front of its input satisfies `P`. -/
def ReadsOnly {α : Type} (P : Char → Prop) (p : Parser α) : Prop :=
  ∀ s a t, p s = some (a, t) → ∃ u, s = u ++ t ∧ ∀ c ∈ u, P c

theorem StopsAt.pure {α : Type} (c : Char) (a : α) : StopsAt c (pure a : Parser α) :=
  fun _ _ => rfl

theorem StopsAt.bind {α β : Type} {c : Char} {p : Parser α} {f : α → Parser β}
    (hp : StopsAt c p) (hf : ∀ a, StopsAt c (f a)) : StopsAt c (p >>= f) := by
  intro s r
  rw [bind_apply, bind_apply, hp s r]
  rcases p s with _ | ⟨a, t⟩
  · rfl
  · exact hf a t r

theorem ReadsOnly.pure {α : Type} (P : Char → Prop) (a : α) :
    ReadsOnly P (pure a : Parser α) := by
  intro s b t h
  cases h
  exact ⟨[], rfl, by simp⟩

theorem ReadsOnly.bind {α β : Type} {P : Char → Prop} {p : Parser α} {f : α → Parser β}
    (hp : ReadsOnly P p) (hf : ∀ a, ReadsOnly P (f a)) : ReadsOnly P (p >>= f) := by
  intro s b t h
  obtain ⟨a, r, hpa, hfa⟩ := bind_eq_some.mp h
  obtain ⟨u, rfl, hu⟩ := hp s a r hpa
  obtain ⟨v, rfl, hv⟩ := hf a r b t hfa
  refine ⟨u ++ v, (List.append_assoc u v t).symm, fun c hc => ?_⟩
  rcases List.mem_append.mp hc with hc | hc
  · exact hu c hc
  · exact hv c hc

theorem ReadsOnly.mono {α : Type} {P Q : Char → Prop} {p : Parser α} (hp : ReadsOnly P p)
    (h : ∀ c, P c → Q c) : ReadsOnly Q p := by
  intro s a t hs
  obtain ⟨u, rfl, hu⟩ := hp s a t hs
  exact ⟨u, rfl, fun c hc => h c (hu c hc)⟩

theorem ReadsOnly.of_parseWith {α : Type} {P : Char → Prop} {p : Parser α} (hp : ReadsOnly P p)
    {s : Str} {a : α} (h : parseWith p s = some a) : ∀ c ∈ s, P c := by
  obtain ⟨u, hu, hchars⟩ := hp s a [] (parseWith_eq_some.mp h)
  rw [List.append_nil] at hu
  exact hu ▸ hchars

/-- A parser that stops at `c` and is run up to a `c` that it leaves in place
used nothing but what stands before it. -/
theorem StopsAt.eq_nil_of_rest {α : Type} {c : Char} {p : Parser α} (hp : StopsAt c p)
    {s r : Str} {a : α} (h : p (s ++ c :: r) = some (a, c :: r)) : p s = some (a, []) := by
  rw [hp s r] at h
  obtain ⟨⟨b, t⟩, hb, heq⟩ := Option.map_eq_some_iff.mp h
  rw [Prod.mk.injEq] at heq
  obtain ⟨rfl, ht⟩ := heq
  have hnil : t = [] := by simpa using ht
  rw [hb, hnil]

/-! ### Reading one character -/

/-- `Parser::read_given_char`. -/
def readGivenChar (c : Char) : Parser Unit
  | [] => none
  | d :: s => if d = c then some ((), s) else none

@[simp] theorem readGivenChar_nil (c : Char) : readGivenChar c [] = none := rfl

theorem readGivenChar_cons (c d : Char) (s : Str) :
    readGivenChar c (d :: s) = if d = c then some ((), s) else none := rfl

@[simp] theorem readGivenChar_self (c : Char) (s : Str) :
    readGivenChar c (c :: s) = some ((), s) := by rw [readGivenChar_cons, if_pos rfl]

theorem readGivenChar_eq_some {c : Char} {s t : Str} {u : Unit} :
    readGivenChar c s = some (u, t) ↔ s = c :: t := by
  cases s with
  | nil => simp
  | cons d s =>
    rw [readGivenChar_cons]
    by_cases hd : d = c
    · simp [hd]
    · simp [hd]

theorem readGivenChar_stopsAt {c d : Char} (h : c ≠ d) : StopsAt d (readGivenChar c) := by
  intro s r
  cases s with
  | nil => simp [readGivenChar_cons, Ne.symm h]
  | cons e s =>
    rw [List.cons_append, readGivenChar_cons, readGivenChar_cons]
    by_cases he : e = c
    · simp [he]
    · simp [he]

theorem readGivenChar_readsOnly (c : Char) : ReadsOnly (· = c) (readGivenChar c) := by
  intro s u t h
  rw [readGivenChar_eq_some.mp h]
  exact ⟨[c], rfl, fun d hd => List.mem_singleton.mp hd⟩

/-! ### Reading a number -/

/-- The value of a digit in radix 36, and 36 for a character that is none. -/
def digitVal (c : Char) : ℕ :=
  if '0' ≤ c ∧ c ≤ '9' then c.toNat - '0'.toNat
  else if 'a' ≤ c ∧ c ≤ 'z' then c.toNat - 'a'.toNat + 10
  else if 'A' ≤ c ∧ c ≤ 'Z' then c.toNat - 'A'.toNat + 10
  else 36

/-- `char::to_digit` for a radix of at most 36. -/
def toDigit (radix : ℕ) (c : Char) : Option ℕ :=
  if digitVal c < radix then some (digitVal c) else none

/-- The loop of `Parser::read_number`: `limit` is the first value the result
type cannot hold, `maxDigits` the longest run of digits allowed. -/
def readDigits (radix limit : ℕ) (maxDigits : Option ℕ) (acc count : ℕ) : Str →
    Option ((ℕ × ℕ) × Str)
  | [] => some ((acc, count), [])
  | c :: s =>
    match toDigit radix c with
    | none => some ((acc, count), c :: s)
    | some d =>
      if acc * radix + d < limit ∧ maxDigits.all (count + 1 ≤ ·) then
        readDigits radix limit maxDigits (acc * radix + d) (count + 1) s
      else none

/-- `Parser::read_number`. -/
def readNumber (radix limit : ℕ) (maxDigits : Option ℕ) (allowZeroPrefix : Bool) : Parser ℕ :=
  fun s =>
    match readDigits radix limit maxDigits 0 0 s with
    | none => none
    | some ((value, count), rest) =>
      if count = 0 then none
      else if !allowZeroPrefix && s.head? == some '0' && decide (1 < count) then none
      else some (value, rest)

theorem readDigits_stopsAt {radix : ℕ} {c : Char} (hc : toDigit radix c = none) (limit : ℕ)
    (maxDigits : Option ℕ) (s r : Str) : ∀ acc count,
    readDigits radix limit maxDigits acc count (s ++ c :: r)
      = (readDigits radix limit maxDigits acc count s).map fun x => (x.1, x.2 ++ c :: r) := by
  induction s with
  | nil =>
    intro acc count
    simp [readDigits, hc]
  | cons d s ih =>
    intro acc count
    rw [List.cons_append, readDigits, readDigits]
    rcases toDigit radix d with _ | v
    · simp
    · simp only
      split
      · exact ih _ _
      · rfl

theorem readNumber_stopsAt {radix : ℕ} {c : Char} (hc : toDigit radix c = none) (hz : c ≠ '0')
    (limit : ℕ) (maxDigits : Option ℕ) (zero : Bool) :
    StopsAt c (readNumber radix limit maxDigits zero) := by
  intro s r
  have hhead : (s ++ c :: r).head? == some '0' ↔ s.head? == some '0' := by
    cases s with
    | nil => simp [hz]
    | cons d s => simp
  rw [readNumber, readNumber, readDigits_stopsAt hc]
  rcases readDigits radix limit maxDigits 0 0 s with _ | ⟨⟨v, n⟩, t⟩
  · rfl
  · simp only [Option.map_some]
    rw [show ((s ++ c :: r).head? == some '0') = (s.head? == some '0') from
      Bool.eq_iff_iff.mpr hhead]
    split
    · rfl
    · split
      · rfl
      · rfl

theorem readDigits_readsOnly {radix limit : ℕ} {maxDigits : Option ℕ} {s : Str} :
    ∀ {acc count : ℕ} {x : ℕ × ℕ} {t : Str},
      readDigits radix limit maxDigits acc count s = some (x, t) →
      ∃ u, s = u ++ t ∧ ∀ c ∈ u, (toDigit radix c).isSome := by
  induction s with
  | nil =>
    intro acc count x t h
    rw [readDigits, Option.some_inj, Prod.mk.injEq] at h
    exact ⟨[], h.2, by simp⟩
  | cons c s ih =>
    intro acc count x t h
    rw [readDigits] at h
    rcases hd : toDigit radix c with _ | d
    · -- the loop ends at the first character that is no digit
      rw [hd] at h
      simp only [Option.some_inj, Prod.mk.injEq] at h
      exact ⟨[], h.2, by simp⟩
    · rw [hd] at h
      simp only at h
      split at h
      · obtain ⟨u, rfl, hu⟩ := ih h
        refine ⟨c :: u, rfl, fun e he => ?_⟩
        rcases List.mem_cons.mp he with rfl | he
        · rw [hd]
          rfl
        · exact hu e he
      · exact absurd h (by simp)

theorem readNumber_readsOnly (radix limit : ℕ) (maxDigits : Option ℕ) (zero : Bool) :
    ReadsOnly (fun c => (toDigit radix c).isSome) (readNumber radix limit maxDigits zero) := by
  intro s v t h
  rw [readNumber] at h
  rcases hd : readDigits radix limit maxDigits 0 0 s with _ | ⟨⟨w, n⟩, r⟩
  · rw [hd] at h
    exact absurd h (by simp)
  · rw [hd] at h
    simp only at h
    split at h
    · exact absurd h (by simp)
    · split at h
      · exact absurd h (by simp)
      · rw [Option.some_inj, Prod.mk.injEq] at h
        rw [← h.2]
        exact readDigits_readsOnly hd

/-! ### The number zero -/

theorem toDigit_ten_zero {c : Char} (h : toDigit 10 c = some 0) : c = '0' := by
  rw [toDigit] at h
  split at h
  · rw [Option.some_inj, digitVal] at h
    split at h
    · next hrange =>
      have hlo : '0'.toNat ≤ c.toNat := UInt32.le_iff_toNat_le.mp hrange.1
      exact Char.toNat_inj.mp (by omega)
    · split at h
      · omega
      · split at h
        · omega
        · omega
  · cases h

/-- The value only grows, and stays below the limit. -/
theorem readDigits_bounds {radix limit : ℕ} {maxDigits : Option ℕ} (hr : 0 < radix) {s t : Str} :
    ∀ {acc count v n : ℕ}, acc < limit →
      readDigits radix limit maxDigits acc count s = some ((v, n), t) → acc ≤ v ∧ v < limit := by
  induction s with
  | nil =>
    intro acc count v n hacc h
    simp only [readDigits, Option.some_inj, Prod.mk.injEq] at h
    omega
  | cons c s ih =>
    intro acc count v n hacc h
    rw [readDigits] at h
    split at h
    · simp only [Option.some_inj, Prod.mk.injEq] at h
      omega
    · next d _ =>
      split at h
      · next hfits =>
        obtain ⟨hle, hlt⟩ := ih hfits.1 h
        have hgrow : acc ≤ acc * radix := Nat.le_mul_of_pos_right acc hr
        omega
      · cases h

theorem readNumber_lt {radix limit : ℕ} {maxDigits : Option ℕ} {zero : Bool} (hr : 0 < radix)
    (hlimit : 0 < limit) {s t : Str} {v : ℕ}
    (h : readNumber radix limit maxDigits zero s = some (v, t)) : v < limit := by
  rw [readNumber] at h
  split at h
  · cases h
  · next w count rest hdigits =>
    split at h
    · cases h
    · split at h
      · cases h
      · obtain ⟨rfl, rfl⟩ := Prod.mk.inj (Option.some_inj.mp h)
        exact (readDigits_bounds hr hlimit hdigits).2

/-- Digits of value zero are zeros. -/
theorem readDigits_zero {limit : ℕ} {maxDigits : Option ℕ} {s t : Str} : ∀ {count n : ℕ},
    readDigits 10 limit maxDigits 0 count s = some ((0, n), t) →
      ∃ k, s = List.replicate k '0' ++ t ∧ n = count + k := by
  induction s with
  | nil =>
    intro count n h
    simp only [readDigits, Option.some_inj, Prod.mk.injEq] at h
    exact ⟨0, h.2, h.1.2.symm⟩
  | cons c s ih =>
    intro count n h
    rw [readDigits] at h
    split at h
    · simp only [Option.some_inj, Prod.mk.injEq] at h
      exact ⟨0, h.2, h.1.2.symm⟩
    · next d hd =>
      split at h
      · next hfits =>
        rw [Nat.zero_mul, Nat.zero_add] at h hfits
        obtain rfl : d = 0 := by
          have hle := (readDigits_bounds (by omega) hfits.1 h).1
          omega
        obtain ⟨k, rfl, hn⟩ := ih h
        refine ⟨k + 1, ?_, by omega⟩
        rw [toDigit_ten_zero hd, List.replicate_succ, List.cons_append]
      · cases h

/-- Without leading zeros the number zero is written in one way. -/
theorem readNumber_zero {limit : ℕ} {maxDigits : Option ℕ} {s t : Str}
    (h : readNumber 10 limit maxDigits false s = some (0, t)) : s = '0' :: t := by
  rw [readNumber] at h
  split at h
  · cases h
  · next v count rest hdigits =>
    split at h
    · cases h
    · next hcount =>
      split at h
      · cases h
      · next hlong =>
        obtain ⟨rfl, rfl⟩ := Prod.mk.inj (Option.some_inj.mp h)
        obtain ⟨k, rfl, hk⟩ := readDigits_zero hdigits
        rw [Nat.zero_add] at hk
        subst hk
        -- two zeros in a row would be a leading zero
        have hone : count = 1 := by
          rcases Nat.lt_or_ge 1 count with hlt | hle
          · obtain ⟨m, rfl⟩ : ∃ m, count = m + 1 := ⟨count - 1, by omega⟩
            exact absurd hlong (by simp [List.replicate_succ]; omega)
          · omega
        rw [hone]
        rfl

/-! ### Numbers written and read back -/

/-- The value of the digits `ds` read after `acc`. -/
def digitsValue (radix acc : ℕ) (ds : Str) : ℕ :=
  ds.foldl (fun a c => a * radix + (toDigit radix c).getD 0) acc

/-- Every character is a digit of the radix. -/
def AllDigits (radix : ℕ) (ds : Str) : Prop := ∀ c ∈ ds, (toDigit radix c).isSome

theorem le_digitsValue {radix : ℕ} (hr : 0 < radix) (ds : Str) :
    ∀ acc, acc ≤ digitsValue radix acc ds := by
  induction ds with
  | nil => exact fun acc => le_refl acc
  | cons c ds ih =>
    intro acc
    refine le_trans ?_ (ih _)
    calc acc = acc * 1 := (Nat.mul_one acc).symm
      _ ≤ acc * radix := Nat.mul_le_mul_left acc hr
      _ ≤ acc * radix + (toDigit radix c).getD 0 := Nat.le_add_right _ _

/-- The reader's loop on a run of digits that fits: it reads all of it. -/
theorem readDigits_append {radix limit : ℕ} {maxDigits : Option ℕ} (hr : 0 < radix) {t : Str}
    (ht : ∀ c ∈ t.head?, toDigit radix c = none) {ds : Str} : ∀ {acc count : ℕ},
    AllDigits radix ds → digitsValue radix acc ds < limit →
    (maxDigits.all fun m => decide (count + ds.length ≤ m)) = true →
    readDigits radix limit maxDigits acc count (ds ++ t)
      = some ((digitsValue radix acc ds, count + ds.length), t) := by
  induction ds with
  | nil =>
    intro acc count _ _ _
    cases t with
    | nil => rfl
    | cons c t => simp [readDigits, ht c rfl, digitsValue]
  | cons c ds ih =>
    intro acc count hds hval hlen
    obtain ⟨d, hd⟩ := Option.isSome_iff_exists.mp (hds c List.mem_cons_self)
    have hstep : digitsValue radix acc (c :: ds) = digitsValue radix (acc * radix + d) ds := by
      simp [digitsValue, hd]
    rw [hstep] at hval ⊢
    -- the value only grows, so no prefix of the digits overflows either
    have hfit : acc * radix + d < limit := lt_of_le_of_lt (le_digitsValue hr ds _) hval
    have hcount : (maxDigits.all fun m => decide (count + 1 ≤ m)) = true := by
      cases maxDigits with
      | none => rfl
      | some m =>
        simp only [Option.all_some, List.length_cons, decide_eq_true_eq] at hlen ⊢
        omega
    rw [List.cons_append, readDigits, hd]
    simp only
    rw [if_pos ⟨hfit, hcount⟩, ih (fun e he => hds e (List.mem_cons_of_mem c he)) hval ?_]
    · rw [List.length_cons, Nat.add_assoc, Nat.add_comm 1]
    · rwa [List.length_cons, Nat.add_comm ds.length 1, ← Nat.add_assoc] at hlen

/-- A run of digits that does not fit. -/
theorem readDigits_eq_none {radix limit : ℕ} {ds : Str} : ∀ {acc : ℕ} (count : ℕ),
    AllDigits radix ds → acc < limit → limit ≤ digitsValue radix acc ds →
    readDigits radix limit none acc count ds = none := by
  induction ds with
  | nil => exact fun _ _ hacc hval => absurd hacc (not_lt.mpr hval)
  | cons c ds ih =>
    intro acc count hds hacc hval
    obtain ⟨d, hd⟩ := Option.isSome_iff_exists.mp (hds c List.mem_cons_self)
    have hstep : digitsValue radix acc (c :: ds) = digitsValue radix (acc * radix + d) ds := by
      simp [digitsValue, hd]
    rw [readDigits, hd]
    simp only
    split
    · next hfits =>
      exact ih _ (fun e he => hds e (List.mem_cons_of_mem c he)) hfits.1 (hstep ▸ hval)
    · rfl

theorem toDigit_digitChar {radix d : ℕ} (hr : radix ≤ 16) (hd : d < radix) :
    toDigit radix (Nat.digitChar d) = some d := by
  have hval : digitVal (Nat.digitChar d) = d := by
    have hd16 : d < 16 := by omega
    interval_cases d <;> decide
  rw [toDigit, hval, if_pos hd]

section toDigits

variable {radix : ℕ} (h1 : 1 < radix) (h16 : radix ≤ 16)

include h1 h16

theorem allDigits_toDigits (n : ℕ) : AllDigits radix (Nat.toDigits radix n) := by
  induction n using Nat.strong_induction_on with
  | _ n ih =>
    intro c hc
    rw [Nat.toDigits_eq_if h1] at hc
    split at hc
    · rename_i hlt
      rw [List.mem_singleton.mp hc, toDigit_digitChar h16 hlt]
      rfl
    · rename_i hge
      rcases List.mem_append.mp hc with hc | hc
      · exact ih (n / radix) (Nat.div_lt_self (by omega) h1) c hc
      · rw [List.mem_singleton.mp hc, toDigit_digitChar h16 (Nat.mod_lt n (by omega))]
        rfl

theorem digitsValue_toDigits (n : ℕ) : digitsValue radix 0 (Nat.toDigits radix n) = n := by
  induction n using Nat.strong_induction_on with
  | _ n ih =>
    rw [Nat.toDigits_eq_if h1]
    split
    · rename_i hlt
      simp [digitsValue, toDigit_digitChar h16 hlt]
    · rename_i hge
      have hq := ih (n / radix) (Nat.div_lt_self (by omega) h1)
      rw [digitsValue] at hq
      rw [digitsValue, List.foldl_append, hq]
      simp only [List.foldl_cons, List.foldl_nil,
        toDigit_digitChar h16 (Nat.mod_lt n (by omega)), Option.getD_some]
      rw [Nat.mul_comm]
      exact Nat.div_add_mod n radix

/-- Only zero is written with a leading `0`. -/
theorem eq_zero_of_head_toDigits {n : ℕ} (h : (Nat.toDigits radix n).head? = some '0') :
    n = 0 := by
  induction n using Nat.strong_induction_on with
  | _ n ih =>
    rw [Nat.toDigits_eq_if h1] at h
    split at h
    · rename_i hlt
      have hd := toDigit_digitChar h16 hlt
      rw [List.head?_cons, Option.some_inj] at h
      have h0 : toDigit radix '0' = some 0 := toDigit_digitChar (d := 0) h16 (by omega)
      rw [h, h0] at hd
      exact (Option.some_inj.mp hd).symm
    · rename_i hge
      rw [List.head?_append_of_ne_nil _ Nat.toDigits_ne_nil] at h
      have hdiv := ih (n / radix) (Nat.div_lt_self (by omega) h1) h
      rcases Nat.div_eq_zero_iff.mp hdiv with h0 | hlt
      · omega
      · exact absurd hlt hge

/-- A number that is too large is not read. -/
theorem readNumber_toDigits_of_le {n limit : ℕ} (hlimit : 0 < limit) (hn : limit ≤ n)
    (zero : Bool) : readNumber radix limit none zero (Nat.toDigits radix n) = none := by
  have hval := digitsValue_toDigits h1 h16 n
  rw [readNumber, readDigits_eq_none 0 (allDigits_toDigits h1 h16 n) hlimit (by rwa [hval])]

/-- **A number that was written is read back**, whatever follows it that is
not a digit. -/
theorem readNumber_toDigits {n limit : ℕ} (hn : n < limit) {maxDigits : Option ℕ}
    (hlen : (maxDigits.all fun m => decide ((Nat.toDigits radix n).length ≤ m)) = true)
    (zero : Bool) {t : Str} (ht : ∀ c ∈ t.head?, toDigit radix c = none) :
    readNumber radix limit maxDigits zero (Nat.toDigits radix n ++ t) = some (n, t) := by
  have hval := digitsValue_toDigits h1 h16 n
  have hread : readDigits radix limit maxDigits 0 0 (Nat.toDigits radix n ++ t)
      = some ((digitsValue radix 0 (Nat.toDigits radix n), 0 + (Nat.toDigits radix n).length), t) :=
    readDigits_append (by omega) ht (allDigits_toDigits h1 h16 n) (by rwa [hval])
      (by simpa using hlen)
  have hpos : (Nat.toDigits radix n).length ≠ 0 := by
    rw [Ne, List.length_eq_zero_iff]
    exact Nat.toDigits_ne_nil
  rw [readNumber, hread]
  simp only [Nat.zero_add, hval]
  rw [if_neg hpos, if_neg]
  intro hlead
  simp only [Bool.and_eq_true, beq_iff_eq, decide_eq_true_eq] at hlead
  obtain ⟨⟨-, hhead⟩, hone⟩ := hlead
  rw [List.head?_append_of_ne_nil _ Nat.toDigits_ne_nil] at hhead
  rw [eq_zero_of_head_toDigits h1 h16 hhead, Nat.toDigits_zero] at hone
  exact absurd hone (by simp)

end toDigits

end AddrParser
