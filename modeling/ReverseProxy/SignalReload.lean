/-
Reloads by signal.

The task that receives the signals calls `handle_sighup_reload` and waits for
it before it receives the next one, so that the reloads it makes follow each
other.  Those of the admin endpoint run beside them.

* `System`, `step` — the signals of `Signals` and the attempts of `Reload`;
* `Inv`, `step_inv` — without the admin endpoint one attempt is on its way at a
  time, and it has read the file after all others;
* `signal_reload_fresh` — what a `SIGHUP` leads to: a reload that has started
  after it, and a configuration that is not older than the file was then.
-/
import ReverseProxy.ReloadOrder
import ReverseProxy.Signals

open Run Text Config Validation Reload
open Signals (Pipeline OnItsWay AtRest)

namespace SignalReload

/-! ### The system -/

structure System where
  pipeline : Pipeline
  /-- the attempt that the handler of `SIGHUP` waits for -/
  attempt : Option ℕ
  reload : Reload.System

def System.start (file : FileVersion) (loaded : LoadedConfig) : System where
  pipeline := Pipeline.start
  attempt := none
  reload := Reload.System.start file loaded

inductive Event where
  | signal (e : Signals.Event)
  /-- `handle_sighup_reload` is called -/
  | begin (i : ℕ)
  /-- a request to `/admin/reload` is admitted -/
  | admin (i : ℕ)
  | task (i : ℕ) (action : Action)
  | replaceFile (file : FileVersion)

/-- The call has returned to its caller. -/
def hasReturned : Phase → Bool
  | .succeeded _ _ => true
  | .failed _ => true
  | _ => false

def isCancel : Action → Bool
  | .cancel => true
  | _ => false

/-- The handler of the signal has come to its end. -/
def System.mayReturn (s : System) : Bool :=
  match s.pipeline.task with
  | .handling .sighup => s.attempt.any fun i => (s.reload.tasks i).any (hasReturned ·.phase)
  | _ => true

section

variable [Lowercase] (parse : Str → Except Str FullConfig)

def step (s : System) : Event → Option System
  | .signal e =>
    if e = .handled ∧ s.mayReturn = false then none
    else (Signals.step s.pipeline e).map fun p => { s with
      pipeline := p
      attempt := if e = .handled then none else s.attempt }
  | .begin i =>
    if s.pipeline.task = .handling .sighup ∧ s.attempt = none then
      (Reload.step parse s.reload (.request i)).map fun r => { s with
        attempt := some i
        reload := r }
    else none
  | .admin i =>
    (Reload.step parse s.reload (.request i)).map fun r => { s with reload := r }
  | .task i action =>
    -- nothing drops the future that the signal task awaits
    if s.attempt = some i ∧ isCancel action then none
    else (Reload.step parse s.reload (.task i action)).map fun r => { s with reload := r }
  | .replaceFile file =>
    (Reload.step parse s.reload (.replaceFile file)).map fun r => { s with reload := r }

/-! ### What a step does -/

/-- The steps, one by one. -/
inductive Move (s : System) : Event → System → Prop
  | signal {e : Signals.Event} {p : Pipeline} (h : Signals.step s.pipeline e = some p)
    (he : e ≠ .handled) : Move s (.signal e) { s with pipeline := p }
  | handled {p : Pipeline} (h : Signals.step s.pipeline .handled = some p)
    (hreturn : s.mayReturn = true) :
    Move s (.signal .handled) { s with pipeline := p, attempt := none }
  | begin {i : ℕ} {r : Reload.System} (h : Reload.step parse s.reload (.request i) = some r)
    (htask : s.pipeline.task = .handling .sighup) (hnone : s.attempt = none) :
    Move s (.begin i) { s with attempt := some i, reload := r }
  | admin {i : ℕ} {r : Reload.System} (h : Reload.step parse s.reload (.request i) = some r) :
    Move s (.admin i) { s with reload := r }
  | task {i : ℕ} {action : Action} {r : Reload.System}
    (h : Reload.step parse s.reload (.task i action) = some r) :
    Move s (.task i action) { s with reload := r }
  | replaceFile {file : FileVersion} {r : Reload.System}
    (h : Reload.step parse s.reload (.replaceFile file) = some r) :
    Move s (.replaceFile file) { s with reload := r }

variable {parse}

theorem move_of_step {s s' : System} {e : Event} (h : step parse s e = some s') :
    Move parse s e s' := by
  cases e with
  | signal e =>
    rw [step] at h
    split at h
    · cases h
    · next hguard =>
      obtain ⟨p, hp, rfl⟩ := Option.map_eq_some_iff.mp h
      by_cases he : e = .handled
      · subst he
        exact .handled hp (Bool.not_eq_false _ ▸ fun hfalse => hguard ⟨rfl, hfalse⟩)
      · rw [if_neg he]
        exact .signal hp he
  | begin i =>
    rw [step] at h
    split at h
    · next hguard =>
      obtain ⟨r, hr, rfl⟩ := Option.map_eq_some_iff.mp h
      exact .begin hr hguard.1 hguard.2
    · cases h
  | admin i =>
    obtain ⟨r, hr, rfl⟩ := Option.map_eq_some_iff.mp h
    exact .admin hr
  | task i action =>
    rw [step] at h
    split at h
    · cases h
    · obtain ⟨r, hr, rfl⟩ := Option.map_eq_some_iff.mp h
      exact .task hr
  | replaceFile file =>
    rw [step] at h
    obtain ⟨r, hr, rfl⟩ := Option.map_eq_some_iff.mp h
    exact .replaceFile hr

/-! ### One attempt at a time -/

variable (parse) in
/-- Without the admin endpoint: an attempt that has not returned is the one that
the handler waits for, and that one has read the file after the others. -/
structure Inv (s : System) : Prop where
  ordered : Ordered parse s.reload
  handling : ∀ i, s.attempt = some i → s.pipeline.task = .handling .sighup
  current : ∀ i task, s.reload.tasks i = some task → hasReturned task.phase = false →
    s.attempt = some i
  later : ∀ i v o, s.attempt = some i → s.reload.stamps i = some (v, o) →
    ∀ j v' o', s.reload.stamps j = some (v', o') → o' ≤ o

theorem inv_start {env : Env} {cli : Bool} {file : FileVersion} {loaded : LoadedConfig}
    (hload : loadConfig parse env cli file.content = .ok loaded) :
    Inv parse (System.start file loaded) where
  ordered := Ordered.start hload
  handling := fun i hi => by cases hi
  current := fun i task hi => by cases hi
  later := fun i v o hi => by cases hi

/-- The attempt that waits for the mutex is the current one. -/
theorem Inv.inOrder {s : System} (h : Inv parse s) (e : Reload.Event) : InOrder s.reload e := by
  unfold InOrder
  split
  · next i =>
    intro a ha j b changed hb
    have hcurrent : s.attempt = some i := by
      rw [Reload.System.phases] at ha
      obtain ⟨task, htask, hphase⟩ := Option.map_eq_some_iff.mp ha
      exact h.current i task htask (by rw [hphase]; rfl)
    have hi : s.reload.stamps i = some (a.version, a.order) := by
      rw [Reload.System.stamps, ha]; rfl
    have hj : s.reload.stamps j = some (b.version, b.order) := by
      rw [Reload.System.stamps, hb]; rfl
    exact h.later i _ _ hcurrent hi j _ _ hj
  · trivial

omit [Lowercase] in
theorem not_returned_of_beforeLock {p : Phase} (h : p.BeforeLock) : hasReturned p = false := by
  cases p with
  | succeeded a changed => exact h.elim
  | failed e => exact h.elim
  | _ => rfl

/-- An attempt that has returned takes no step. -/
theorem not_returned_of_move {core core' : Core} {i : ℕ} {p p' : Phase} {action : Action}
    (h : Reload.Move parse core i p action core' p') : hasReturned p = false := by
  cases h with
  | fail hbefore action e => exact not_returned_of_beforeLock hbefore
  | cancel hbefore => exact not_returned_of_beforeLock hbefore
  | _ => rfl

omit [Lowercase] in
theorem stamps_some_of_update {sys : Reload.System} {core : Core} {i j : ℕ} {task : Task}
    {vo : ℕ × ℕ}
    (h : (⟨core, Function.update sys.tasks i (some task)⟩ : Reload.System).stamps j = some vo) :
    j = i ∧ task.phase.stamp = some vo ∨ j ≠ i ∧ sys.stamps j = some vo := by
  rw [stamps_update] at h
  by_cases hj : j = i
  · rw [hj, Function.update_self] at h
    exact Or.inl ⟨hj, h⟩
  · rw [Function.update_of_ne hj] at h
    exact Or.inr ⟨hj, h⟩

/-- A step of an attempt: the current one, since no other can move. -/
theorem Inv.task {s : System} {i : ℕ} {action : Action} {r : Reload.System} (h : Inv parse s)
    (hstep : Reload.step parse s.reload (.task i action) = some r) :
    Inv parse { s with reload := r } := by
  have hordered := h.ordered.step (h.inOrder _) hstep
  obtain ⟨task, core', p', htask, hmove, rfl⟩ := step_task hstep
  have hcurrent := h.current i task htask (not_returned_of_move hmove)
  refine ⟨hordered, h.handling, fun j t ht hgoing => ?_,
    fun j v o hj hstamp k v' o' hstamp' => ?_⟩
  · obtain ⟨rfl, -⟩ | ⟨-, ht⟩ := update_eq_some ht
    · exact hcurrent
    · exact h.current j t ht hgoing
  · rw [hcurrent, Option.some_inj] at hj
    subst hj
    obtain ⟨-, hown⟩ := (stamps_some_of_update hstamp).resolve_right fun hne => hne.1 rfl
    have hold : s.reload.stamps i = task.phase.stamp := by
      rw [Reload.System.stamps, Reload.System.phases, htask]
      rfl
    rcases hmove.stamp.2 with ⟨-, hsame | hnone⟩ | ⟨-, -, hread⟩
    · -- the stamp is the one that it had
      rcases stamps_some_of_update hstamp' with ⟨-, hown'⟩ | ⟨-, hother⟩
      · rw [hown, Option.some_inj] at hown'
        exact (congrArg Prod.snd hown').ge
      · exact h.later i v o hcurrent (hold.trans (hsame.symm.trans hown)) k v' o' hother
    · exact absurd (hnone.symm.trans hown) (by simp)
    · -- the read that has just been made is the last one
      obtain ⟨-, rfl⟩ := Prod.mk.inj (Option.some_inj.mp (hread.symm.trans hown))
      rcases stamps_some_of_update hstamp' with ⟨-, hown'⟩ | ⟨-, hother⟩
      · rw [hown, Option.some_inj] at hown'
        exact (congrArg Prod.snd hown').ge
      · exact (h.ordered.stamps.bound hother).2.le

theorem step_inv {s s' : System} {e : Event} (h : Inv parse s) (he : ∀ i, e ≠ .admin i)
    (hstep : step parse s e = some s') : Inv parse s' := by
  cases move_of_step hstep with
  | signal hsignal hnot =>
    exact ⟨h.ordered, fun i hi => Signals.handling_step (h.handling i hi) rfl hnot hsignal,
      h.current, h.later⟩
  | handled hsignal hreturn =>
    refine ⟨h.ordered, fun i hi => (by cases hi), fun i task htask hgoing => ?_,
      fun i v o hi => (by cases hi)⟩
    -- the attempt that was waited for has returned, and no other is left
    have hcurrent := h.current i task htask hgoing
    rw [System.mayReturn, h.handling i hcurrent, hcurrent, Option.any_some, htask,
      Option.any_some, hgoing] at hreturn
    cases hreturn
  | begin hrequest htask hnone =>
    have hordered := h.ordered.step (h.inOrder _) hrequest
    obtain ⟨hnew, rfl⟩ := step_request hrequest
    refine ⟨hordered, fun _ _ => htask, fun j t ht hgoing => ?_, fun j v o hj hstamp => ?_⟩
    · obtain ⟨rfl, -⟩ | ⟨-, ht⟩ := update_eq_some ht
      · rfl
      · have hold := h.current j t ht hgoing
        rw [hnone] at hold
        cases hold
    · obtain rfl := Option.some_inj.mp hj
      obtain ⟨-, hown⟩ := (stamps_some_of_update hstamp).resolve_right fun hne => hne.1 rfl
      cases hown
  | admin hrequest => exact absurd rfl (he _)
  | task htask => exact h.task htask
  | replaceFile hreplace =>
    have hordered := h.ordered.step (h.inOrder _) hreplace
    obtain rfl := Option.some_inj.mp hreplace
    exact ⟨hordered, h.handling, h.current, h.later⟩

theorem run_inv {s s' : System} {es : List Event} (h : Inv parse s)
    (hes : ∀ e ∈ es, ∀ i, e ≠ .admin i) (hrun : run (step parse) s es = some s') :
    Inv parse s' :=
  run_induction_events step_inv hes h hrun

/-! ### After a `SIGHUP` -/

/-- What no step takes back: the version of the file, and that an attempt has
started, with what it found then; and the active version, as long as the
attempts are in order. -/
structure Onward (r r' : Reload.System) : Prop where
  version : r.core.version ≤ r'.core.version
  active : r.core.activeVersion ≤ r'.core.activeVersion
  tasks : ∀ i task, r.tasks i = some task →
    ∃ task', r'.tasks i = some task' ∧ task'.startedAt = task.startedAt

omit [Lowercase] in
theorem Onward.refl (r : Reload.System) : Onward r r :=
  ⟨le_rfl, le_rfl, fun _ task htask => ⟨task, htask, rfl⟩⟩

omit [Lowercase] in
theorem Onward.trans {r r' r'' : Reload.System} (h : Onward r r') (h' : Onward r' r'') :
    Onward r r'' := by
  refine ⟨h.version.trans h'.version, h.active.trans h'.active, fun i task htask => ?_⟩
  obtain ⟨task', htask', hstarted'⟩ := h.tasks i task htask
  obtain ⟨task'', htask'', hstarted''⟩ := h'.tasks i task' htask'
  exact ⟨task'', htask'', hstarted''.trans hstarted'⟩

theorem onward_request {r r' : Reload.System} {i : ℕ}
    (hstep : Reload.step parse r (.request i) = some r') : Onward r r' := by
  obtain ⟨hnew, rfl⟩ := step_request hstep
  refine ⟨le_rfl, le_rfl, fun j task htask => ⟨task, ?_, rfl⟩⟩
  have hj : j ≠ i := by
    rintro rfl
    rw [hnew] at htask
    cases htask
  exact (Function.update_of_ne hj ..).trans htask

theorem onward_task {r r' : Reload.System} {i : ℕ} {action : Action} (h : Ordered parse r)
    (hstep : Reload.step parse r (.task i action) = some r') : Onward r r' := by
  obtain ⟨task, core', p', htask, hmove, rfl⟩ := step_task hstep
  refine ⟨hmove.stamp.1.ge, ?_, fun j t ht => ?_⟩
  · have hp : r.phases i = some task.phase := by rw [Reload.System.phases, htask, Option.map_some]
    generalize task.phase = p at hp hmove
    cases hmove with
    | storeDynamic a changed => exact (h.newest.holder i _ a hp).1
    | _ => exact le_rfl
  · by_cases hj : j = i
    · subst hj
      obtain rfl := Option.some_inj.mp (htask.symm.trans ht)
      exact ⟨_, Function.update_self .., rfl⟩
    · exact ⟨t, (Function.update_of_ne hj ..).trans ht, rfl⟩

theorem onward_step {s s' : System} {e : Event} (h : Inv parse s)
    (hstep : step parse s e = some s') : Onward s.reload s'.reload := by
  cases move_of_step hstep with
  | begin hrequest htask hnone => exact onward_request hrequest
  | admin hrequest => exact onward_request hrequest
  | task htask => exact onward_task h.ordered htask
  | replaceFile hreplace =>
    obtain rfl := Option.some_inj.mp hreplace
    refine ⟨?_, le_rfl, fun _ task htask => ⟨task, htask, rfl⟩⟩
    rw [Core.version, Core.version, Core.versions, List.length_append]
    exact Nat.le_add_right _ _
  | _ => exact Onward.refl _

/-- A `SIGHUP` that is on its way, or that is being handled and whose attempt
has not started. -/
def Awaited (s : System) : Prop :=
  OnItsWay .sighup s.pipeline ∨ s.pipeline.task = .handling .sighup ∧ s.attempt = none

/-- It stays so until the attempt starts, or the task ends. -/
theorem awaited_step {s s' : System} {e : Event} (h : Inv parse s) (hawaited : Awaited s)
    (hstep : step parse s e = some s') :
    (∃ i, e = .begin i) ∨ s'.pipeline.task = .ended ∨ Awaited s' := by
  cases move_of_step hstep with
  | begin hrequest htask hnone => exact Or.inl ⟨_, rfl⟩
  | signal hsignal hnot =>
    right
    rcases hawaited with hway | ⟨htask, hnone⟩
    · rcases Signals.onItsWay_step hway hsignal with rfl | hended | hway'
      · -- the task was receiving, so that no attempt was under way
        cases Signals.move_of_step hsignal with
        | recv sig rest hqueue htask =>
          refine Or.inr (Or.inr ⟨rfl, Option.eq_none_iff_forall_not_mem.mpr fun i hi => ?_⟩)
          have hhandling := h.handling i hi
          rw [htask] at hhandling
          cases hhandling
      · exact Or.inl hended
      · exact Or.inr (Or.inl hway')
    · exact Or.inr (Or.inr ⟨Signals.handling_step htask rfl hnot hsignal, hnone⟩)
  | handled hsignal hreturn =>
    right
    rcases hawaited with hway | ⟨htask, hnone⟩
    · rcases Signals.onItsWay_step hway hsignal with hrecv | hended | hway'
      · cases hrecv
      · exact Or.inl hended
      · exact Or.inr (Or.inl hway')
    · -- the handler does not return before its attempt
      rw [System.mayReturn, htask, hnone] at hreturn
      cases hreturn
  | _ => exact Or.inr (Or.inr hawaited)

theorem ended_run_step {s s' : System} {e : Event} (h : s.pipeline.task = .ended)
    (hstep : step parse s e = some s') : s'.pipeline.task = .ended := by
  cases move_of_step hstep with
  | signal hsignal hnot => exact (Signals.ended_step h hsignal).1
  | handled hsignal hreturn => exact (Signals.ended_step h hsignal).1
  | _ => exact h

variable (parse) in
/-- What holds since a `SIGHUP` was raised. -/
structure Since (r : Reload.System) (es : List Event) (s : System) : Prop where
  inv : Inv parse s
  onward : Onward r s.reload
  reaches : s.pipeline.task = .ended ∨ Awaited s ∨
    ∃ i task, .begin i ∈ es ∧ s.reload.tasks i = some task ∧ r.core.version ≤ task.startedAt

theorem Since.step {r : Reload.System} {es : List Event} {s s' : System} {e : Event}
    (h : Since parse r es s) (he : ∀ i, e ≠ .admin i)
    (hstep : SignalReload.step parse s e = some s') : Since parse r (es ++ [e]) s' := by
  have honward := onward_step h.inv hstep
  refine ⟨step_inv h.inv he hstep, h.onward.trans honward, ?_⟩
  rcases h.reaches with hended | hawaited | ⟨i, task, hbegin, htask, hstarted⟩
  · exact Or.inl (ended_run_step hended hstep)
  · rcases awaited_step h.inv hawaited hstep with ⟨i, rfl⟩ | hrest
    · cases move_of_step hstep with
      | begin hrequest htask hnone =>
        obtain ⟨-, rfl⟩ := step_request hrequest
        exact Or.inr (Or.inr ⟨i, _, by simp, Function.update_self .., h.onward.version⟩)
    · exact hrest.imp_right Or.inl
  · obtain ⟨task', htask', hstarted'⟩ := honward.tasks i task htask
    exact Or.inr (Or.inr ⟨i, task', List.mem_append_left _ hbegin, htask', hstarted' ▸ hstarted⟩)

omit [Lowercase] in
theorem not_awaited_of_atRest {s : System} (h : AtRest s.pipeline) : ¬ Awaited s := by
  rintro (hway | ⟨htask, -⟩)
  · exact h.not_onItsWay .sighup hway
  · rw [h.task] at htask
    cases htask

omit [Lowercase] in
theorem eq_of_hasReturned {p : Phase} (h : hasReturned p = true) :
    (∃ e, p = .failed e) ∨ ∃ a changed, p = .succeeded a changed := by
  cases p with
  | failed e => exact Or.inl ⟨e, rfl⟩
  | succeeded a changed => exact Or.inr ⟨a, changed, rfl⟩
  | _ => cases h

/-- At rest every attempt has returned. -/
theorem Inv.returned_of_atRest {s : System} (h : Inv parse s) (hrest : AtRest s.pipeline) {i : ℕ}
    {task : Task} (htask : s.reload.tasks i = some task) : hasReturned task.phase = true := by
  by_contra hgoing
  have hhandling := h.handling i (h.current i task htask (Bool.eq_false_iff.mpr hgoing))
  rw [hrest.task] at hhandling
  cases hhandling

variable (parse) in
/-- **After a `SIGHUP`.**  The server was started from the file and no reload
was asked for but by signal.  A `SIGHUP` is raised, and later everything has
come to rest.  Then a reload has started after the signal and has returned; the
active configuration is that of a version of the file, not older than the one
that was active before; and if that reload succeeded, not older than what the
file held when the signal was raised. -/
theorem signal_reload_fresh (env : Env) (cli : Bool) (file : FileVersion) (loaded : LoadedConfig)
    (hload : loadConfig parse env cli file.content = .ok loaded) (es es' : List Event)
    (s s' : System) (hadmin : ∀ e ∈ es ++ es', ∀ i, e ≠ .admin i)
    (hrun : run (step parse) (System.start file loaded) es = some s)
    (hrun' : run (step parse) s (.signal (.raise .sighup) :: es') = some s')
    (hrest : AtRest s'.pipeline) :
    s.reload.core.activeVersion ≤ s'.reload.core.activeVersion ∧
    (∃ f full, s'.reload.core.versions[s'.reload.core.activeVersion]? = some f ∧
      parse f.content = .ok full ∧
      s'.reload.core.handle.config = full.intoStaticAndDynamic.2) ∧
    ∃ i task, .begin i ∈ es' ∧ s'.reload.tasks i = some task ∧
      ((∃ e, task.phase = .failed e) ∨
        (∃ a changed, task.phase = .succeeded a changed) ∧
          s.reload.core.version ≤ s'.reload.core.activeVersion) := by
  have hinv : Inv parse s :=
    run_inv (inv_start hload) (fun e he => hadmin e (List.mem_append_left _ he)) hrun
  obtain ⟨t, ht, hrun'⟩ := Option.bind_eq_some_iff.mp hrun'
  have hsince : Since parse s.reload [] t := by
    refine ⟨step_inv hinv (fun _ h => by cases h) ht, onward_step hinv ht, Or.inr (Or.inl ?_)⟩
    cases move_of_step ht with
    | signal hsignal hnot =>
      obtain rfl := Option.some_inj.mp hsignal
      exact Or.inl (Or.inl (Function.update_self Signals.Signal.sighup true s.pipeline.pending))
  have hsince' : (∀ e ∈ es', ∀ i, e ≠ .admin i) → Since parse s.reload es' s' :=
    run_history
      (I := fun es s => (∀ e ∈ es, ∀ i : ℕ, e ≠ Event.admin i) → Since parse _ es s)
      (fun _ => hsince)
      (fun _ h hstep hes => (h fun e he => hes e (List.mem_append_left _ he)).step
        (hes _ (by simp)) hstep) es' hrun'
  obtain ⟨hinv', honward, hreaches⟩ :=
    hsince' fun e he => hadmin e (List.mem_append_right _ he)
  refine ⟨honward.active, hinv'.ordered.config_eq, ?_⟩
  -- the signal is lost to a shutdown, still on its way, or its reload has begun
  rcases hreaches with hended | hawaited | ⟨i, task, hbegin, htask, hstarted⟩
  · rw [hrest.task] at hended
    cases hended
  · exact absurd hawaited (not_awaited_of_atRest hrest)
  · refine ⟨i, task, hbegin, htask, ?_⟩
    refine (eq_of_hasReturned (hinv'.returned_of_atRest hrest htask)).imp_right fun hphase => ?_
    obtain ⟨a, changed, hphase⟩ := hphase
    exact ⟨⟨a, changed, hphase⟩, hstarted.trans (hinv'.ordered.version_le htask hphase)⟩

end

/-- A second `SIGHUP`, raised after the file has been replaced, while the reload
of the first one has already read it. -/
def firstHalf : List Event :=
  [.signal (.raise .sighup), .signal (.take .sighup), .signal .send, .signal (.recv .sighup),
    .begin 0, .task 0 (.metadataBefore none), .task 0 (.readToString none),
    .replaceFile ⟨['#'], none⟩]

def secondHalf (env : Env) : List Event :=
  ([.signal (.take .sighup), .signal .send, .task 0 (.metadataAfter none env), .task 0 .lock,
    .task 0 (.check env), .task 0 .storeDynamic, .task 0 .storeStatic, .task 0 .unlock,
    .signal .handled, .signal (.recv .sighup), .begin 1] : List Event) ++
  (successfulActions env).map (Event.task 1) ++ [.signal .handled]

theorem signal_reload_fresh_second : letI := asciiLowercase
    ∃ s s' : System, run (step parseSamples) (System.start ⟨[], none⟩ sampleLoaded) firstHalf
        = some s ∧
      run (step parseSamples) s (.signal (.raise .sighup) :: secondHalf quietEnv) = some s' ∧
      ∃ i task, .begin i ∈ secondHalf quietEnv ∧ s'.reload.tasks i = some task ∧
      ((∃ e, task.phase = .failed e) ∨
        (∃ a changed, task.phase = .succeeded a changed) ∧
          s.reload.core.version ≤ s'.reload.core.activeVersion) := by
  let _ := asciiLowercase
  obtain ⟨s, hs⟩ : ∃ s, run (step parseSamples) (System.start ⟨[], none⟩ sampleLoaded) firstHalf
      = some s := ⟨_, rfl⟩
  have hsome : ((run (step parseSamples) (System.start ⟨[], none⟩ sampleLoaded)
      (firstHalf ++ .signal (.raise .sighup) :: secondHalf quietEnv)).map
        fun s => (s.pipeline.pending .sigterm || s.pipeline.pending .sigint ||
          s.pipeline.pending .sighup || s.pipeline.pending .sigusr1, s.pipeline.sending,
          s.pipeline.queue, s.pipeline.task)) = some (false, none, [], .receiving) := by
    decide +kernel
  obtain ⟨s', hs', hend⟩ := Option.map_eq_some_iff.mp hsome
  rw [run_append, hs, Option.bind_some] at hs'
  simp only [Prod.mk.injEq, Bool.or_eq_false_iff] at hend
  obtain ⟨⟨⟨⟨hterm, hint⟩, hhup⟩, husr⟩, hsending, hqueue, htask⟩ := hend
  have hrest : AtRest s'.pipeline := by
    refine ⟨fun sig => ?_, hsending, hqueue, htask⟩
    cases sig with
    | sigterm => exact hterm
    | sigint => exact hint
    | sighup => exact hhup
    | sigusr1 => exact husr
  have hadmin : ∀ e ∈ firstHalf ++ secondHalf quietEnv, ∀ i, e ≠ .admin i := by
    intro e he i
    rintro rfl
    simp [firstHalf, secondHalf, successfulActions] at he
  have hload : loadConfig parseSamples quietEnv false [] = .ok sampleLoaded :=
    loadConfig_sample rfl
  exact ⟨s, s', hs, hs', (signal_reload_fresh parseSamples quietEnv false ⟨[], none⟩ sampleLoaded
    hload firstHalf (secondHalf quietEnv) s s' hadmin hs hs' hrest).2.2⟩

end SignalReload
