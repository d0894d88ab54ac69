/-
Drift of the static configuration.

A reload stores the static half of the configuration only to compare the next
one with it: the server keeps running with the half it was started with, and a
field that has changed takes effect after a restart.  What an operator sees of
this is the list of names that a successful reload returns.

* `diffStaticConfig_eq` — the list has the names of the fields that differ, in
  the order of their declaration, and no field is forgotten (`eq_of_agree`);
* `Drift` — what the handle holds, depending on where the holder of the mutex
  is;
* `reports_linked` — every reload is compared with the one before;
* `static_drift_reported` — a field in which the latest configuration differs
  from that of startup has been reported.
-/
import ReverseProxy.ReloadAtomic

open Text Config Validation

namespace Reload

/-! ### Fields -/

/-- The fields of `StaticConfig`. -/
inductive StaticField where
  | listeners
  | allowWildcardBind
  | healthCheckPort
  | adminKeyPath
  | shutdownTimeoutSecs
  | connectionIdleTimeoutSecs
  | tlsHandshakeTimeoutSecs
  | maxConnections
  | logging
  deriving DecidableEq, Repr

namespace StaticField

def all : List StaticField :=
  [listeners, allowWildcardBind, healthCheckPort, adminKeyPath, shutdownTimeoutSecs,
    connectionIdleTimeoutSecs, tlsHandshakeTimeoutSecs, maxConnections, logging]

def name : StaticField → Str
  | listeners => "listeners".toList
  | allowWildcardBind => "allow_wildcard_bind".toList
  | healthCheckPort => "health_check_port".toList
  | adminKeyPath => "admin_key_path".toList
  | shutdownTimeoutSecs => "shutdown_timeout_secs".toList
  | connectionIdleTimeoutSecs => "connection_idle_timeout_secs".toList
  | tlsHandshakeTimeoutSecs => "tls_handshake_timeout_secs".toList
  | maxConnections => "max_connections".toList
  | logging => "logging".toList

/-- Two configurations differ in the field. -/
def differs (old new : StaticConfig) : StaticField → Bool
  | listeners => old.listeners ≠ new.listeners
  | allowWildcardBind => old.allowWildcardBind ≠ new.allowWildcardBind
  | healthCheckPort => old.healthCheckPort ≠ new.healthCheckPort
  | adminKeyPath => old.adminKeyPath ≠ new.adminKeyPath
  | shutdownTimeoutSecs => old.shutdownTimeoutSecs ≠ new.shutdownTimeoutSecs
  | connectionIdleTimeoutSecs => old.connectionIdleTimeoutSecs ≠ new.connectionIdleTimeoutSecs
  | tlsHandshakeTimeoutSecs => old.tlsHandshakeTimeoutSecs ≠ new.tlsHandshakeTimeoutSecs
  | maxConnections => old.maxConnections ≠ new.maxConnections
  | logging => old.logging ≠ new.logging

theorem mem_all (f : StaticField) : f ∈ all := by
  cases f <;> decide

/-- Agreement in a field is transitive. -/
theorem differs_or {s t u : StaticConfig} {f : StaticField} (h : f.differs s u = true) :
    f.differs s t = true ∨ f.differs t u = true := by
  cases f <;>
    simp only [differs, decide_eq_true_eq] at h ⊢ <;>
    exact (h.ne_or_ne _).imp id Ne.symm

theorem eq_of_agree {s t : StaticConfig} (h : ∀ f, differs s t f = false) : s = t := by
  have hfield : ∀ f, ¬ differs s t f = true := fun f => by rw [h f]; exact Bool.false_ne_true
  have h₁ := hfield listeners
  have h₂ := hfield allowWildcardBind
  have h₃ := hfield healthCheckPort
  have h₄ := hfield adminKeyPath
  have h₅ := hfield shutdownTimeoutSecs
  have h₆ := hfield connectionIdleTimeoutSecs
  have h₇ := hfield tlsHandshakeTimeoutSecs
  have h₈ := hfield maxConnections
  have h₉ := hfield logging
  simp only [differs, decide_eq_true_eq, not_not] at h₁ h₂ h₃ h₄ h₅ h₆ h₇ h₈ h₉
  cases s
  cases t
  simp only at h₁ h₂ h₃ h₄ h₅ h₆ h₇ h₈ h₉
  subst h₁ h₂ h₃ h₄ h₅ h₆ h₇ h₈ h₉
  rfl

theorem differs_self (s : StaticConfig) (f : StaticField) : differs s s f = false := by
  cases f <;> simp only [differs, ne_eq, not_true_eq_false, decide_false]

/-- The names of the fields that differ. -/
def changedNames (old new : StaticConfig) : List Str := (all.filter (differs old new)).map name

theorem mem_changedNames {old new : StaticConfig} {f : StaticField} (h : differs old new f = true) :
    f.name ∈ changedNames old new :=
  List.mem_map_of_mem (List.mem_filter.mpr ⟨mem_all f, h⟩)

theorem changedNames_eq_nil {old new : StaticConfig} : changedNames old new = [] ↔ old = new := by
  rw [changedNames, List.map_eq_nil_iff, List.filter_eq_nil_iff]
  constructor
  · exact fun h => eq_of_agree fun f => eq_false_of_ne_true (h f (mem_all f))
  · rintro rfl f -
    rw [differs_self]
    exact Bool.false_ne_true

theorem map_filter_cons (old new : StaticConfig) (f : StaticField) (fs : List StaticField) :
    ((f :: fs).filter (differs old new)).map name
      = (if differs old new f then [name f] else []) ++ (fs.filter (differs old new)).map name := by
  by_cases h : differs old new f = true
  · rw [List.filter_cons_of_pos h, if_pos h]
    rfl
  · rw [List.filter_cons_of_neg h, if_neg h, List.nil_append]

end StaticField

theorem changedIf_eq {α : Type} [DecidableEq α] (old new : α) (name : String) :
    changedIf old new name = if decide (old ≠ new) then [name.toList] else [] := by
  simp only [changedIf, decide_eq_true_eq]

theorem diffStaticConfig_eq (old new : StaticConfig) :
    diffStaticConfig old new = StaticField.changedNames old new := by
  unfold diffStaticConfig
  simp only [changedIf_eq, List.append_assoc]
  rw [StaticField.changedNames, StaticField.all]
  iterate 9 rw [StaticField.map_filter_cons]
  rw [List.filter_nil, List.map_nil, List.append_nil]
  rfl

/-! ### Reports -/

/-- What a successful reload compared, and what it returned. -/
structure Report where
  task : ℕ
  newStatic : StaticConfig
  changed : List Str

def Phase.report (i : ℕ) : Phase → List Report
  | .succeeded a changed => [⟨i, a.newStatic, changed⟩]
  | _ => []

/-- The result of a step, if it is the last one of an attempt. -/
def reportOf (sys : System) : Event → List Report
  | .task i _ => (sys.phases i).elim [] (·.report i)
  | _ => []

section

variable [Lowercase] (parse : Str → Except Str FullConfig)

/-- The results of the successful reloads, in the order in which they leave the
mutex. -/
def reports : System → List Event → List Report
  | _, [] => []
  | sys, e :: es =>
    match step parse sys e with
    | none => []
    | some sys' => reportOf sys' e ++ reports sys' es

end

/-- The static configuration of the last successful reload, or else that of
startup. -/
def latest (s : StaticConfig) (rs : List Report) : StaticConfig :=
  (rs.map Report.newStatic).getLastD s

/-- Every reload names what has changed since the one before. -/
def Linked : StaticConfig → List Report → Prop
  | _, [] => True
  | s, r :: rs => r.changed = diffStaticConfig s r.newStatic ∧ Linked r.newStatic rs

theorem latest_cons (s : StaticConfig) (r : Report) (rs : List Report) :
    latest s (r :: rs) = latest r.newStatic rs := List.getLastD_cons ..

theorem latest_append (rs rs' : List Report) : ∀ s,
    latest s (rs ++ rs') = latest (latest s rs) rs' := by
  induction rs with
  | nil => exact fun s => rfl
  | cons r rs ih =>
    intro s
    rw [List.cons_append, latest_cons, latest_cons, ih]

theorem linked_append (rs rs' : List Report) : ∀ s,
    Linked s (rs ++ rs') ↔ Linked s rs ∧ Linked (latest s rs) rs' := by
  induction rs with
  | nil => exact fun s => (and_iff_right trivial).symm
  | cons r rs ih =>
    intro s
    rw [List.cons_append, latest_cons, Linked, Linked, ih, and_assoc]

/-- A difference to the first configuration has come up on the way. -/
theorem Linked.reported (rs : List Report) : ∀ {s : StaticConfig}, Linked s rs →
    ∀ {f : StaticField}, f.differs s (latest s rs) = true → ∃ r ∈ rs, f.name ∈ r.changed := by
  induction rs with
  | nil =>
    intro s _ f hf
    rw [show latest s [] = s from rfl, StaticField.differs_self] at hf
    exact absurd hf Bool.false_ne_true
  | cons r rs ih =>
    rintro s ⟨hr, hrs⟩ f hf
    rw [latest_cons] at hf
    rcases StaticField.differs_or hf with hhere | hlater
    · refine ⟨r, List.mem_cons_self, ?_⟩
      rw [hr, diffStaticConfig_eq]
      exact StaticField.mem_changedNames hhere
    · obtain ⟨r', hr', hname⟩ := ih hrs hlater
      exact ⟨r', List.mem_cons_of_mem r hr', hname⟩

/-! ### The invariant -/

/-- What the holder of the mutex has compared and stored. -/
def StageDrift (stored current : StaticConfig) (a : Attempt) : Stage → Prop
  | .locked => stored = current
  | .checked changed => stored = current ∧ changed = diffStaticConfig current a.newStatic
  | .storedDynamic changed => stored = current ∧ changed = diffStaticConfig current a.newStatic
  | .storedBoth changed => stored = a.newStatic ∧ changed = diffStaticConfig current a.newStatic

/-- **The invariant**: the handle holds the static configuration of the last
successful reload, except at the end of the critical section. -/
structure Drift (core : Core) (phases : ℕ → Option Phase) (current : StaticConfig) : Prop where
  free : core.handle.reloadMutex = none → core.handle.staticConfig = current
  holder : ∀ i stage a, phases i = some (.critical stage a) →
    core.handle.reloadMutex = some i ∧ StageDrift core.handle.staticConfig current a stage

section moves

variable {core core' : Core} {phases : ℕ → Option Phase} {i : ℕ} {p p' : Phase}
  {current : StaticConfig}

/-- A step before the mutex is taken. -/
theorem Drift.quiet (h : Drift core phases current) (hhandle : core'.handle = core.handle)
    (hcritical : ∀ stage a, p' ≠ .critical stage a) :
    Drift core' (Function.update phases i (some p')) current := by
  refine ⟨by rw [hhandle]; exact h.free, fun j stage a hj => ?_⟩
  rw [hhandle]
  obtain ⟨-, hj⟩ | ⟨-, hj⟩ := update_eq_some hj
  · exact absurd hj (hcritical stage a)
  · exact h.holder j stage a hj

/-- The holder of the mutex goes on; there is no other one. -/
theorem Drift.inside (h : Drift core phases current)
    (hheld : core.handle.reloadMutex = none ∨ core.handle.reloadMutex = some i)
    (hmutex : core'.handle.reloadMutex = some i) {stage : Stage} {a : Attempt}
    (hstage : StageDrift core'.handle.staticConfig current a stage) :
    Drift core' (Function.update phases i (some (.critical stage a))) current := by
  refine ⟨fun hfree => absurd (hmutex.symm.trans hfree) (Option.some_ne_none i),
    fun j stage' b hj => ?_⟩
  obtain ⟨rfl, heq⟩ | ⟨hji, hj⟩ := update_eq_some hj
  · cases heq
    exact ⟨hmutex, hstage⟩
  · have hj' := (h.holder j stage' b hj).1
    rcases hheld with hnone | hsome
    · exact absurd (hj'.symm.trans hnone) (Option.some_ne_none j)
    · exact absurd (Option.some_inj.mp (hj'.symm.trans hsome)) hji

/-- The holder leaves the mutex. -/
theorem Drift.leave (h : Drift core phases current) (hheld : core.handle.reloadMutex = some i)
    (hcritical : ∀ stage a, p' ≠ .critical stage a) {next : StaticConfig}
    (hstatic : core'.handle.staticConfig = next) :
    Drift core' (Function.update phases i (some p')) next := by
  refine ⟨fun _ => hstatic, fun j stage a hj => ?_⟩
  obtain ⟨-, hj⟩ | ⟨hji, hj⟩ := update_eq_some hj
  · exact absurd hj (hcritical stage a)
  · exact absurd (Option.some_inj.mp ((h.holder j stage a hj).1.symm.trans hheld)) hji

variable [Lowercase] {parse : Str → Except Str FullConfig}

theorem Drift.move (h : Drift core phases current) {action : Action} (hp : phases i = some p)
    (hmove : Move parse core i p action core' p') :
    Linked current (p'.report i) ∧
      Drift core' (Function.update phases i (some p')) (latest current (p'.report i)) := by
  cases hmove with
  | metadataBefore => exact ⟨trivial, h.quiet rfl fun _ _ heq => Phase.noConfusion heq⟩
  | readToString modified => exact ⟨trivial, h.quiet rfl fun _ _ heq => Phase.noConfusion heq⟩
  | finishRead modified hfinish =>
    exact ⟨trivial, h.quiet rfl fun _ _ heq => Phase.noConfusion heq⟩
  | fail hbefore action e => exact ⟨trivial, h.quiet rfl fun _ _ heq => Phase.noConfusion heq⟩
  | cancel hbefore => exact ⟨trivial, h.quiet rfl fun _ _ heq => Phase.noConfusion heq⟩
  | lock a hfree => exact ⟨trivial, h.inside (Or.inl hfree) rfl (h.free hfree)⟩
  | check a hcheck =>
    obtain ⟨hheld, hstored⟩ := h.holder i _ a hp
    have hstored : core.handle.staticConfig = current := hstored
    exact ⟨trivial, h.inside (Or.inr hheld) hheld ⟨hstored, by rw [hstored]⟩⟩
  | reject env a e =>
    obtain ⟨hheld, hstored⟩ := h.holder i _ a hp
    exact ⟨trivial, h.leave hheld (fun _ _ heq => Phase.noConfusion heq) hstored⟩
  | storeDynamic a changed =>
    obtain ⟨hheld, hstored⟩ := h.holder i _ a hp
    refine ⟨trivial, h.inside (Or.inr hheld) ?_ ?_⟩
    · exact hheld
    · exact hstored
  | storeStatic a changed =>
    -- the comparison was made before the store
    obtain ⟨hheld, -, hchanged⟩ := h.holder i _ a hp
    refine ⟨trivial, h.inside (Or.inr hheld) ?_ ?_⟩
    · exact hheld
    · exact ⟨rfl, hchanged⟩
  | unlock a changed =>
    obtain ⟨hheld, hstored, hchanged⟩ := h.holder i _ a hp
    exact ⟨⟨hchanged, trivial⟩, h.leave hheld (fun _ _ heq => Phase.noConfusion heq) hstored⟩

end moves

section

variable [Lowercase] {parse : Str → Except Str FullConfig} {current : StaticConfig}

omit [Lowercase] in
theorem reportOf_update (sys : System) (core : Core) (i : ℕ) (task : Task) (action : Action) :
    reportOf ⟨core, Function.update sys.tasks i (some task)⟩ (.task i action)
      = task.phase.report i := by
  rw [reportOf, phases_update, Function.update_self, Option.elim_some]

theorem Drift.step {sys sys' : System} {e : Event} (h : Drift sys.core sys.phases current)
    (hstep : step parse sys e = some sys') :
    Linked current (reportOf sys' e) ∧
      Drift sys'.core sys'.phases (latest current (reportOf sys' e)) := by
  cases e with
  | replaceFile file =>
    rw [← Option.some_inj.mp hstep]
    exact ⟨trivial, h.free, h.holder⟩
  | request i =>
    obtain ⟨-, rfl⟩ := step_request hstep
    rw [phases_update]
    exact ⟨trivial, h.quiet rfl fun _ _ heq => Phase.noConfusion heq⟩
  | task i action =>
    obtain ⟨task, core', p', htask, hmove, rfl⟩ := step_task hstep
    rw [phases_update, reportOf_update]
    exact h.move (by rw [System.phases, htask, Option.map_some]) hmove

theorem reports_cons {sys sys' : System} {e : Event} (hstep : step parse sys e = some sys')
    (es : List Event) :
    reports parse sys (e :: es) = reportOf sys' e ++ reports parse sys' es := by
  rw [reports, hstep]

theorem reports_linked (es : List Event) : ∀ {sys sys' : System} {current : StaticConfig},
    Drift sys.core sys.phases current → Run.run (Reload.step parse) sys es = some sys' →
    Linked current (reports parse sys es) ∧
      Drift sys'.core sys'.phases (latest current (reports parse sys es)) := by
  induction es with
  | nil =>
    intro sys sys' current h hrun
    rw [← Option.some_inj.mp hrun]
    exact ⟨trivial, h⟩
  | cons e es ih =>
    intro sys sys' current h hrun
    obtain ⟨t, hstep, hrun⟩ := Option.bind_eq_some_iff.mp hrun
    obtain ⟨hlinked, ht⟩ := h.step hstep
    obtain ⟨hrest, hend⟩ := ih ht hrun
    rw [reports_cons hstep, linked_append, latest_append]
    exact ⟨⟨hlinked, hrest⟩, hend⟩

/-- An attempt has succeeded with this result. -/
def System.Returned (sys : System) (r : Report) : Prop :=
  ∃ p, sys.phases r.task = some p ∧ r ∈ p.report r.task

omit [Lowercase] in
theorem task_of_mem_report {p : Phase} {i : ℕ} {r : Report} (h : r ∈ p.report i) : r.task = i := by
  cases p with
  | succeeded a changed => rw [List.mem_singleton.mp h]
  | _ => exact absurd h List.not_mem_nil

omit [Lowercase] in
theorem report_of_beforeLock {p : Phase} (h : p.BeforeLock) (i : ℕ) : p.report i = [] := by
  cases p with
  | succeeded a changed => exact h.elim
  | _ => rfl

/-- Nothing happens after a success. -/
theorem Move.report_eq_nil {core core' : Core} {i : ℕ} {p p' : Phase} {action : Action}
    (h : Move parse core i p action core' p') : p.report i = [] := by
  cases h with
  | fail hbefore action e => exact report_of_beforeLock hbefore i
  | cancel hbefore => exact report_of_beforeLock hbefore i
  | _ => rfl

omit [Lowercase] in
/-- An attempt that had not succeeded goes on to the phase `p'`. -/
theorem returned_update {sys sys' : System} {i : ℕ} {p' : Phase}
    (hphases : sys'.phases = Function.update sys.phases i (some p'))
    (hold : ∀ p, sys.phases i = some p → p.report i = []) (r : Report) :
    sys'.Returned r ↔ r ∈ p'.report i ∨ sys.Returned r := by
  rw [System.Returned, hphases]
  constructor
  · rintro ⟨p, hp, hr⟩
    obtain ⟨hi, rfl⟩ | ⟨-, hp⟩ := update_eq_some hp
    · exact Or.inl (hi ▸ hr)
    · exact Or.inr ⟨p, hp, hr⟩
  · rintro (hr | ⟨p, hp, hr⟩)
    · obtain rfl := task_of_mem_report hr
      exact ⟨p', Function.update_self .., hr⟩
    · refine ⟨p, ?_, hr⟩
      rw [Function.update_of_ne, hp]
      rintro hi
      rw [hi] at hp hr
      rw [hold p hp] at hr
      exact absurd hr List.not_mem_nil

theorem step_returned {sys sys' : System} {e : Event}
    (hstep : Reload.step parse sys e = some sys') (r : Report) :
    sys'.Returned r ↔ r ∈ reportOf sys' e ∨ sys.Returned r := by
  cases e with
  | replaceFile file =>
    rw [← Option.some_inj.mp hstep]
    exact (or_iff_right List.not_mem_nil).symm
  | request i =>
    obtain ⟨hnone, rfl⟩ := step_request hstep
    refine returned_update (phases_update ..) (fun p hp => ?_) r
    rw [System.phases, hnone] at hp
    cases hp
  | task i action =>
    obtain ⟨task, core', p', htask, hmove, rfl⟩ := step_task hstep
    rw [reportOf_update]
    refine returned_update (phases_update ..) (fun p hp => ?_) r
    rw [System.phases, htask, Option.map_some, Option.some_inj] at hp
    exact hp ▸ hmove.report_eq_nil

/-- The reports are what the attempts return. -/
theorem run_returned (es : List Event) : ∀ {sys sys' : System},
    Run.run (Reload.step parse) sys es = some sys' → ∀ r : Report,
    (sys'.Returned r ↔ r ∈ reports parse sys es ∨ sys.Returned r) := by
  induction es with
  | nil =>
    intro sys sys' hrun r
    rw [Option.some_inj.mp hrun]
    exact (or_iff_right List.not_mem_nil).symm
  | cons e es ih =>
    intro sys sys' hrun r
    obtain ⟨t, hstep, hrun⟩ := Option.bind_eq_some_iff.mp hrun
    rw [ih hrun, step_returned hstep, reports_cons hstep, List.mem_append, or_left_comm, or_assoc]

variable (parse)

/-- **Static drift is never silent.**  However many reload calls are made side by
side, with any configurations: every successful one reports the fields in which
its static configuration differs from that of the one before, and so every
field in which the latest differs from that of startup has been reported. -/
theorem static_drift_reported (start : System)
    (htasks : ∀ i p, start.phases i = some p → p.BeforeLock) (es : List Event) (sys : System)
    (hrun : Run.run (step parse) start es = some sys) :
    (∀ r : Report, r ∈ reports parse start es ↔ sys.Returned r) ∧
    (∀ before r after, reports parse start es = before ++ r :: after →
      r.changed = (StaticField.all.filter (StaticField.differs
        (latest start.core.handle.staticConfig before) r.newStatic)).map StaticField.name ∧
      (r.changed = [] ↔ latest start.core.handle.staticConfig before = r.newStatic)) ∧
    (sys.core.handle.reloadMutex = none → sys.core.handle.staticConfig
      = latest start.core.handle.staticConfig (reports parse start es)) ∧
    (∀ f : StaticField, f.differs start.core.handle.staticConfig
        (latest start.core.handle.staticConfig (reports parse start es)) = true →
      ∃ r ∈ reports parse start es, f.name ∈ r.changed) := by
  have hstart : Drift start.core start.phases start.core.handle.staticConfig :=
    ⟨fun _ => rfl, fun i stage a hi => (htasks i _ hi).elim⟩
  obtain ⟨hlinked, hend⟩ := reports_linked es hstart hrun
  refine ⟨fun r => ?_, fun before r after hsplit => ?_, hend.free, fun f hf =>
    Linked.reported _ hlinked hf⟩
  · rw [run_returned es hrun r]
    refine (or_iff_left ?_).symm
    rintro ⟨p, hp, hr⟩
    rw [report_of_beforeLock (htasks _ p hp)] at hr
    exact absurd hr List.not_mem_nil
  · rw [hsplit, linked_append] at hlinked
    have hchanged : r.changed = StaticField.changedNames _ r.newStatic :=
      hlinked.2.1.trans (diffStaticConfig_eq _ _)
    exact ⟨hchanged, by rw [hchanged, StaticField.changedNames_eq_nil]⟩

end

/-- A file that at first holds the sample configuration, and then one with
another port for the health check. -/
def sampleParse (content : Str) : Except Str FullConfig :=
  .ok <| if content = [] then Routing.sampleConfig
    else { Routing.sampleConfig with healthCheckPort := 9901 }

def driftRun (env : Env) : List Event :=
  .replaceFile ⟨['x'], none⟩ :: .request 0 :: (successfulActions env).map (.task 0)

theorem static_drift_reported_sample : letI := asciiLowercase
    ∃ sys, Run.run (step sampleParse) (System.start ⟨[], none⟩ sampleLoaded) (driftRun quietEnv)
        = some sys ∧
      ∃ r ∈ reports sampleParse (System.start ⟨[], none⟩ sampleLoaded) (driftRun quietEnv),
        StaticField.healthCheckPort.name ∈ r.changed := by
  let _ := asciiLowercase
  have hend : (Run.run (step sampleParse) (System.start ⟨[], none⟩ sampleLoaded)
      (driftRun quietEnv)).isSome = true := by decide +kernel
  obtain ⟨sys, hrun⟩ := Option.isSome_iff_exists.mp hend
  have hdrift := static_drift_reported sampleParse (System.start ⟨[], none⟩ sampleLoaded)
    (fun i p hp => by cases hp) (driftRun quietEnv) sys hrun
  exact ⟨sys, hrun, hdrift.2.2.2 .healthCheckPort (by decide +kernel)⟩

end Reload
