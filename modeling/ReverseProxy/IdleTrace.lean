/-
What the idle watchdog of a connection can see.

The watchdog looks at the counter and at the time of the last activity.  A trace
says how these change, with finitely many changes up to each instant.  The
instants are a subgroup of the rationals, so that clocks with a smallest tick
are included.

* `changed_or_lastActivity_lt` — whatever happens is an activity;
* `lastActivity_mono` — the last activity does not go back;
* `stateAt_traceOf` — the runs of a connection are such traces.
-/
import ReverseProxy.IdleTracking

open Run

namespace IdleTracking

/-! ### Traces -/

/-- What happens to the state, each in one step. -/
inductive Change where
  | start
  | frame
  | finish
  deriving DecidableEq

def Change.apply (s : IdleState) (now : ℚ) : Change → IdleState
  | .start => { s.touch now with inFlight := s.inFlight + 1 }
  | .frame => s.touch now
  | .finish => { s with inFlight := s.inFlight - 1 }.touch now

def applyAll (s : IdleState) (es : List (ℚ × Change)) : IdleState :=
  es.foldl (fun s e => e.2.apply s e.1) s

/-- The changes of a connection, finitely many up to each instant.  That a
request ends only while one is counted is not asked for. -/
structure Trace (clock : AddSubgroup ℚ) (start : ℚ) where
  upTo : ℚ → List (ℚ × Change)
  bounds : ∀ t, ∀ e ∈ upTo t, e.1 ∈ clock ∧ start ≤ e.1 ∧ e.1 ≤ t
  inOrder : ∀ t, (upTo t).Pairwise fun e e' => e.1 ≤ e'.1
  restrict : ∀ s t, s ≤ t → upTo s = (upTo t).filter (·.1 ≤ s)

/-- The state at an instant, after what happens then. -/
def Trace.stateAt {clock : AddSubgroup ℚ} {start : ℚ} (tr : Trace clock start) (t : ℚ) :
    IdleState :=
  applyAll (IdleState.new start) (tr.upTo t)

theorem lastActivity_apply (s : IdleState) (now : ℚ) (change : Change) :
    (change.apply s now).lastActivity = now := by
  cases change <;> rfl

theorem lastActivity_applyAll_concat (s : IdleState) (es : List (ℚ × Change))
    (e : ℚ × Change) : (applyAll s (es.concat e)).lastActivity = e.1 := by
  rw [applyAll, List.concat_eq_append, List.foldl_append]
  exact lastActivity_apply ..

section trace

variable {clock : AddSubgroup ℚ} {start : ℚ} (tr : Trace clock start)

/-- The last activity is the start or the last event. -/
theorem lastActivity_stateAt (hstart : start ∈ clock) {t : ℚ} (ht : start ≤ t) :
    (tr.stateAt t).lastActivity ∈ clock ∧ start ≤ (tr.stateAt t).lastActivity ∧
      (tr.stateAt t).lastActivity ≤ t := by
  rw [Trace.stateAt]
  rcases List.eq_nil_or_concat (tr.upTo t) with hnil | ⟨es, e, hes⟩
  · rw [hnil]
    exact ⟨hstart, le_rfl, ht⟩
  · have hbounds := tr.bounds t e (hes ▸ by simp)
    rw [hes, lastActivity_applyAll_concat]
    exact hbounds

/-- **Whatever happens is an activity.**  Between two instants nothing happens,
or the last activity is after the first of them. -/
theorem changed_or_lastActivity_lt {s t : ℚ} (hst : s ≤ t) :
    tr.stateAt t = tr.stateAt s ∨ s < (tr.stateAt t).lastActivity := by
  rw [Trace.stateAt, Trace.stateAt, tr.restrict s t hst]
  rcases List.eq_nil_or_concat (tr.upTo t) with hnil | ⟨es, e, hes⟩
  · exact Or.inl (by rw [hnil]; rfl)
  · by_cases he : e.1 ≤ s
    · -- the last event is the latest
      left
      have hall : ∀ e' ∈ tr.upTo t, e'.1 ≤ s := by
        intro e' he'
        have horder := tr.inOrder t
        rw [hes, List.concat_eq_append] at horder he'
        rcases List.mem_append.mp he' with hmem | hmem
        · exact ((List.pairwise_append.mp horder).2.2 e' hmem e List.mem_cons_self).trans he
        · exact List.mem_singleton.mp hmem ▸ he
      rw [List.filter_eq_self.mpr fun e' he' => decide_eq_true (hall e' he')]
    · right
      rw [hes, lastActivity_applyAll_concat]
      exact not_le.mp he

theorem lastActivity_mono (hstart : start ∈ clock) {s t : ℚ} (hs : start ≤ s) (hst : s ≤ t) :
    (tr.stateAt s).lastActivity ≤ (tr.stateAt t).lastActivity := by
  rcases changed_or_lastActivity_lt tr hst with heq | hlt
  · rw [heq]
  · exact (lastActivity_stateAt tr hstart hs).2.2.trans hlt.le

end trace

/-! ### The runs of a connection -/

def Event.time : Event → ℚ
  | .call now => now
  | .request _ _ now => now

/-- What happens to one request, as a change of the state. -/
def Phase.change : Phase → Happening → Option Change
  | .pending, .resolveErr => some .finish
  | .body _ _, .pollFrame .data => some .frame
  | .body b _, .pollFrame .error => if b.decremented then none else some .finish
  | .body b _, .pollFrame .finished => if b.decremented then none else some .finish
  | .body b _, .dropBody => if b.decremented then none else some .finish
  | _, _ => none

def changeOf (c : Connection) : Event → Option Change
  | .call _ => some .start
  | .request i h _ => (c.requests[i]?).bind (·.change h)

def changes : Connection → List Event → List (ℚ × Change)
  | _, [] => []
  | c, e :: es =>
    ((changeOf c e).map (e.time, ·)).toList ++ (step c e).elim [] fun c' => changes c' es

theorem idle_step {c c' : Connection} {e : Event} (h : step c e = some c') :
    applyAll c.idle ((changeOf c e).map (e.time, ·)).toList = c'.idle := by
  cases e with
  | call now => rw [← Option.some_inj.mp h]; rfl
  | request i what now =>
    obtain ⟨p, ⟨s', q⟩, hp, hadv, rfl⟩ := step_request h
    rw [changeOf, hp, Option.bind_some]
    cases p with
    | pending =>
      cases what with
      | pollFrame answer => cases hadv
      | dropBody => cases hadv
      | _ =>
        obtain ⟨rfl, -⟩ := Prod.mk.inj (Option.some_inj.mp hadv)
        rfl
    | body b ended =>
      rcases b with ⟨_ | _⟩ <;>
      cases what with
      | pollFrame answer =>
        cases answer <;>
        · obtain ⟨rfl, -⟩ := Prod.mk.inj (Option.some_inj.mp hadv)
          rfl
      | dropBody =>
        obtain ⟨rfl, -⟩ := Prod.mk.inj (Option.some_inj.mp hadv)
        rfl
      | _ => cases hadv
    | _ => cases hadv

theorem idle_changes (es : List Event) : ∀ {c c' : Connection}, run step c es = some c' →
    applyAll c.idle (changes c es) = c'.idle := by
  induction es with
  | nil =>
    intro c c' h
    rw [← Option.some_inj.mp h]
    rfl
  | cons e es ih =>
    intro c c' h
    obtain ⟨t, ht, h⟩ := Option.bind_eq_some_iff.mp h
    rw [changes, ht, Option.elim_some, ← ih h, ← idle_step ht]
    exact List.foldl_append ..

/-- The changes are at the times of events, in their order. -/
theorem times_changes (es : List Event) : ∀ c : Connection,
    ((changes c es).map Prod.fst).Sublist (es.map Event.time) := by
  induction es with
  | nil => exact fun _ => List.Sublist.refl _
  | cons e es ih =>
    intro c
    have hrest : (((step c e).elim [] fun c' => changes c' es).map Prod.fst).Sublist
        (es.map Event.time) := by
      cases step c e with
      | none => exact List.nil_sublist _
      | some c' => exact ih c'
    rw [changes, List.map_append, List.map_cons]
    cases changeOf c e with
    | none => exact hrest.cons _
    | some change => exact hrest.cons_cons _

section traceOf

variable {clock : AddSubgroup ℚ} {start : ℚ} {es : List Event}
  (hclock : ∀ e ∈ es, e.time ∈ clock ∧ start ≤ e.time)
  (horder : (es.map Event.time).Pairwise (· ≤ ·))

/-- The trace that the watchdog sees of a run in time order. -/
def traceOf : Trace clock start where
  upTo t := (changes (Connection.new start) es).filter (·.1 ≤ t)
  bounds t e he := by
    obtain ⟨hmem, hle⟩ := List.mem_filter.mp he
    have htime := (times_changes es _).subset (List.mem_map_of_mem hmem)
    obtain ⟨e', he', heq⟩ := List.mem_map.mp htime
    exact heq ▸ ⟨(hclock e' he').1, (hclock e' he').2, heq ▸ of_decide_eq_true hle⟩
  inOrder t := by
    have hsorted := List.pairwise_map.mp (horder.sublist (times_changes es (Connection.new start)))
    exact hsorted.filter _
  restrict s t hst := by
    rw [List.filter_filter]
    refine List.filter_congr fun e _ => ?_
    by_cases he : e.1 ≤ s
    · simp [he, he.trans hst]
    · simp [he]

end traceOf

/-- From the first event after an instant on, all are after it. -/
theorem filter_time_eq_nil {t : ℚ} {e : Event} {es : List Event}
    (horder : ((e :: es).map Event.time).Pairwise (· ≤ ·)) (he : ¬ e.time ≤ t) :
    (∀ time ∈ (e :: es).map Event.time, ¬ time ≤ t) ∧ (e :: es).filter (·.time ≤ t) = [] := by
  have hlate : ∀ time ∈ (e :: es).map Event.time, ¬ time ≤ t := by
    intro time htime
    rcases List.mem_cons.mp htime with rfl | htime
    · exact he
    · exact fun hle => he (((List.pairwise_cons.mp horder).1 time htime).trans hle)
  refine ⟨hlate, List.filter_eq_nil_iff.mpr fun e' he' => ?_⟩
  simpa using hlate _ (List.mem_map_of_mem he')

/-- The changes up to an instant are those of the events up to it. -/
theorem changes_filter (t : ℚ) (es : List Event) : ∀ c : Connection,
    (es.map Event.time).Pairwise (· ≤ ·) →
      (changes c es).filter (·.1 ≤ t) = changes c (es.filter (·.time ≤ t)) := by
  induction es with
  | nil => exact fun _ _ => rfl
  | cons e es ih =>
    intro c horder
    have horder' := (List.pairwise_cons.mp horder).2
    by_cases he : e.time ≤ t
    · have hhead : (((changeOf c e).map (e.time, ·)).toList).filter (·.1 ≤ t)
          = ((changeOf c e).map (e.time, ·)).toList := by
        cases changeOf c e with
        | none => rfl
        | some change => simp [he]
      rw [List.filter_cons_of_pos (by simpa using he), changes, changes, List.filter_append, hhead]
      cases step c e with
      | none => rfl
      | some c' => rw [Option.elim_some, Option.elim_some, ih c' horder']
    · obtain ⟨hlate, hnone⟩ := filter_time_eq_nil horder he
      rw [hnone]
      refine List.filter_eq_nil_iff.mpr fun change hchange => ?_
      simpa using hlate _ ((times_changes _ c).subset (List.mem_map_of_mem hchange))

theorem filter_time_isPrefix (t : ℚ) (es : List Event)
    (horder : (es.map Event.time).Pairwise (· ≤ ·)) : es.filter (·.time ≤ t) <+: es := by
  induction es with
  | nil => exact List.nil_prefix
  | cons e es ih =>
    by_cases he : e.time ≤ t
    · rw [List.filter_cons_of_pos (by simpa using he)]
      exact (List.prefix_cons_inj e).mpr (ih (List.pairwise_cons.mp horder).2)
    · rw [(filter_time_eq_nil horder he).2]
      exact List.nil_prefix

/-- **Runs of a connection.**  At each instant the trace of a run shows the
state that the connection has reached by then. -/
theorem stateAt_traceOf {clock : AddSubgroup ℚ} {start : ℚ} {es : List Event} {c : Connection}
    (hclock : ∀ e ∈ es, e.time ∈ clock ∧ start ≤ e.time)
    (horder : (es.map Event.time).Pairwise (· ≤ ·))
    (h : run step (Connection.new start) es = some c) (t : ℚ) :
    ∃ c', run step (Connection.new start) (es.filter (·.time ≤ t)) = some c' ∧
      (traceOf hclock horder).stateAt t = c'.idle := by
  obtain ⟨rest, hrest⟩ := filter_time_isPrefix t es horder
  rw [← hrest, run_append] at h
  obtain ⟨c', hc', -⟩ := Option.bind_eq_some_iff.mp h
  refine ⟨c', hc', ?_⟩
  rw [← idle_changes _ hc', ← changes_filter t es _ horder]
  rfl

end IdleTracking
