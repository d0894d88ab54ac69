/-
Atomicity of reloads.

The active configuration and the stored static half are swapped in two steps,
by any of the attempts that run side by side.  The invariant says who may be
between these two steps: the attempt that holds the reload mutex, and no
other.  What is stored has an origin, `load_config` or an attempt of the run,
and was valid in the environments that this origin asked.

* `AttemptOk`, `Confirmed` — a configuration with its origin, as it was read and
  as it may be stored;
* `Inv.move`, `step_inv`, `run_inv` — the invariant of the handle, its mutex
  and the phases of the attempts, over steps and runs;
* `reload_atomic` — the stored halves belong together whenever the mutex is
  free, and attempts that come to nothing change nothing.
-/
import ReverseProxy.Reload
import ReverseProxy.Routing
import ReverseProxy.Run

open Text Config Validation

namespace Reload

section

variable [Lowercase] (parse : Str → Except Str FullConfig)

/-! ### Where a configuration comes from -/

/-- The attempt has taken the step in the run. -/
def Taken (es : List Event) (i : ℕ) (action : Action) : Prop := .task i action ∈ es

section origin

-- the environment of the start, and the steps that the attempts have taken
variable (start : Env) (taken : ℕ → Action → Prop)

/-- What `load_config` (`none`) or an attempt asked when it had read the file. -/
def ReadIn : Option ℕ → Env → Prop
  | none, env => env = start
  | some i, env => taken i (.metadataAfter none env)

/-- What it asked before it stored what it had read; `load_config` asks once. -/
def CheckedIn : Option ℕ → Env → Prop
  | none, env => env = start
  | some i, env => taken i (.check env)

/-- The two halves of a content that the file had, which its origin found valid
with the flag of the handle when it had read it. -/
structure AttemptOk (core : Core) (origin : Option ℕ) (a : Attempt) : Prop where
  version : ∃ file, core.versions[a.version]? = some file ∧ file.content = a.content
  first : origin = none → a.version = 0
  split : ∃ full, parse a.content = .ok full ∧
    full.intoStaticAndDynamic = (a.newStatic, a.newDynamic)
  valid : ∃ env, ReadIn start taken origin env ∧
    validate env.pathExists a.newStatic a.newDynamic core.handle.cliAllowWildcardBind = .ok ()

/-- It has passed the checks under the mutex as well, and may be stored. -/
structure Confirmed (core : Core) (origin : Option ℕ) (a : Attempt) : Prop extends
    AttemptOk parse start taken core origin a where
  checked : ∃ env, CheckedIn start taken origin env ∧
    checkReload env core.handle.cliAllowWildcardBind a.newStatic a.newDynamic = .ok ()

/-! ### The invariant -/

def PhaseOk (core : Core) (i : ℕ) : Phase → Prop
  | .readContent _ version _ content =>
    ∃ file, core.versions[version]? = some file ∧ file.content = content
  | .waiting a => AttemptOk parse start taken core (some i) a
  | .critical .locked a => AttemptOk parse start taken core (some i) a
  | .critical _ a => Confirmed parse start taken core (some i) a
  | .succeeded a _ => Confirmed parse start taken core (some i) a
  | _ => True

/-- The stored halves come from one attempt. -/
def Together (core : Core) : Prop :=
  ∃ origin a, Confirmed parse start taken core origin a ∧
    core.handle.staticConfig = a.newStatic ∧ core.handle.config = a.newDynamic

/-- What the holder of the mutex has stored so far. -/
def StageOk (core : Core) : Stage → Attempt → Prop
  | .locked, _ => Together parse start taken core
  | .checked _, _ => Together parse start taken core
  | .storedDynamic _, a => core.handle.config = a.newDynamic
  | .storedBoth _, a => core.handle.config = a.newDynamic ∧ core.handle.staticConfig = a.newStatic

/-- **The invariant** of the shared state and the phases of the attempts. -/
structure Inv (core : Core) (phases : ℕ → Option Phase) : Prop where
  mutex : ∀ i, core.handle.reloadMutex = some i ↔ ∃ stage a, phases i = some (.critical stage a)
  ok : ∀ i p, phases i = some p → PhaseOk parse start taken core i p
  stage : ∀ i stage a, phases i = some (.critical stage a) →
    StageOk parse start taken core stage a
  together : core.handle.reloadMutex = none → Together parse start taken core
  active : ∃ origin a, Confirmed parse start taken core origin a ∧
    a.version = core.activeVersion ∧ core.handle.config = a.newDynamic

end origin

def System.phases (sys : System) (i : ℕ) : Option Phase := (sys.tasks i).map (·.phase)

variable {parse} {start : Env} {taken : ℕ → Action → Prop}

/-- The file only gets new versions. -/
structure Extends (core core' : Core) : Prop where
  versions : core.versions <+: core'.versions
  flag : core'.handle.cliAllowWildcardBind = core.handle.cliAllowWildcardBind

omit [Lowercase] in
theorem Extends.version {core core' : Core} (h : Extends core core') {v : ℕ} {content : Str}
    (hv : ∃ file, core.versions[v]? = some file ∧ file.content = content) :
    ∃ file, core'.versions[v]? = some file ∧ file.content = content := by
  obtain ⟨file, hfile, hcontent⟩ := hv
  obtain ⟨rest, hrest⟩ := h.versions
  refine ⟨file, ?_, hcontent⟩
  rw [← hrest, List.getElem?_append_left (List.getElem?_eq_some_iff.mp hfile).1, hfile]

omit [Lowercase] in
theorem Extends.trans {core core' core'' : Core} (h : Extends core core')
    (h' : Extends core' core'') : Extends core core'' :=
  ⟨h.versions.trans h'.versions, h'.flag.trans h.flag⟩

theorem AttemptOk.mono {core core' : Core} {origin : Option ℕ} {a : Attempt}
    (h : AttemptOk parse start taken core origin a) (hext : Extends core core') :
    AttemptOk parse start taken core' origin a where
  version := hext.version h.version
  first := h.first
  split := h.split
  valid := by rw [hext.flag]; exact h.valid

theorem Confirmed.mono {core core' : Core} {origin : Option ℕ} {a : Attempt}
    (h : Confirmed parse start taken core origin a) (hext : Extends core core') :
    Confirmed parse start taken core' origin a where
  toAttemptOk := h.toAttemptOk.mono hext
  checked := by rw [hext.flag]; exact h.checked

theorem PhaseOk.mono {core core' : Core} {i : ℕ} {p : Phase}
    (h : PhaseOk parse start taken core i p) (hext : Extends core core') :
    PhaseOk parse start taken core' i p := by
  cases p with
  | readContent modified version order content => exact hext.version h
  | waiting a => exact AttemptOk.mono h hext
  | critical stage a =>
    cases stage with
    | locked => exact AttemptOk.mono h hext
    | _ => exact Confirmed.mono h hext
  | succeeded a changed => exact Confirmed.mono h hext
  | _ => trivial

theorem Together.mono {core core' : Core} (h : Together parse start taken core)
    (hext : Extends core core') (hconfig : core'.handle.config = core.handle.config)
    (hstatic : core'.handle.staticConfig = core.handle.staticConfig) :
    Together parse start taken core' := by
  obtain ⟨origin, a, ha, hs, hd⟩ := h
  exact ⟨origin, a, ha.mono hext, hstatic.trans hs, hconfig.trans hd⟩

theorem StageOk.mono {core core' : Core} {stage : Stage} {a : Attempt}
    (h : StageOk parse start taken core stage a) (hext : Extends core core')
    (hconfig : core'.handle.config = core.handle.config)
    (hstatic : core'.handle.staticConfig = core.handle.staticConfig) :
    StageOk parse start taken core' stage a := by
  cases stage with
  | locked => exact Together.mono h hext hconfig hstatic
  | checked changed => exact Together.mono h hext hconfig hstatic
  | storedDynamic changed => exact hconfig.trans h
  | storedBoth changed => exact ⟨hconfig.trans h.1, hstatic.trans h.2⟩

theorem extends_of_move {core core' : Core} {i : ℕ} {p p' : Phase} {action : Action}
    (h : Move parse core i p action core' p') : Extends core core' := by
  cases h <;> exact ⟨List.prefix_rfl, rfl⟩

theorem extends_of_step {sys sys' : System} {e : Event} (h : step parse sys e = some sys') :
    Extends sys.core sys'.core := by
  cases e with
  | replaceFile file =>
    obtain rfl := Option.some_inj.mp h
    exact ⟨List.prefix_append _ _, rfl⟩
  | request i =>
    obtain ⟨-, rfl⟩ := step_request h
    exact ⟨List.prefix_rfl, rfl⟩
  | task i action =>
    obtain ⟨task, core', p', -, hmove, rfl⟩ := step_task h
    exact extends_of_move hmove

theorem extends_of_run {es : List Event} {sys sys' : System}
    (h : Run.run (step parse) sys es = some sys') : Extends sys.core sys'.core :=
  Run.run_induction (I := fun s : System => Extends sys.core s.core)
    (fun hext hstep => hext.trans (extends_of_step hstep)) ⟨List.prefix_rfl, rfl⟩ h

omit [Lowercase] in
/-- What is found in a family after one member has been replaced. -/
theorem update_eq_some {α : Type} {f : ℕ → Option α} {i j : ℕ} {x y : α}
    (h : Function.update f i (some x) j = some y) : j = i ∧ x = y ∨ j ≠ i ∧ f j = some y := by
  by_cases hj : j = i
  · rw [hj, Function.update_self, Option.some_inj] at h
    exact Or.inl ⟨hj, h⟩
  · rw [Function.update_of_ne hj] at h
    exact Or.inr ⟨hj, h⟩

section moves

variable {core core' : Core} {phases : ℕ → Option Phase} {i : ℕ}

theorem Inv.ok_update (h : Inv parse start taken core phases) (hext : Extends core core')
    {p' : Phase} (hok : PhaseOk parse start taken core' i p') :
    ∀ j q, Function.update phases i (some p') j = some q →
      PhaseOk parse start taken core' j q := by
  intro j q hq
  obtain ⟨rfl, rfl⟩ | ⟨-, hq⟩ := update_eq_some hq
  · exact hok
  · exact (h.ok j q hq).mono hext

/-- Only one attempt is in the critical section. -/
theorem Inv.eq_holder (h : Inv parse start taken core phases) {stage stage' : Stage}
    {a a' : Attempt} {j : ℕ} (hi : phases i = some (.critical stage a))
    (hj : phases j = some (.critical stage' a')) : j = i := by
  have hi' := (h.mutex i).mpr ⟨stage, a, hi⟩
  rw [(h.mutex j).mpr ⟨stage', a', hj⟩, Option.some_inj] at hi'
  exact hi'

/-- A step that does not store a dynamic half. -/
theorem Inv.active_mono (h : Inv parse start taken core phases) (hext : Extends core core')
    (hactive : core'.activeVersion = core.activeVersion)
    (hconfig : core'.handle.config = core.handle.config) :
    ∃ origin a, Confirmed parse start taken core' origin a ∧
      a.version = core'.activeVersion ∧ core'.handle.config = a.newDynamic := by
  obtain ⟨origin, a, ha, hversion, ha'⟩ := h.active
  exact ⟨origin, a, ha.mono hext, hversion.trans hactive.symm, hconfig.trans ha'⟩

omit [Lowercase] in
/-- An attempt that moves outside the critical section changes nothing of who
is inside. -/
theorem critical_update {p' : Phase} (hp : ∀ stage a, phases i ≠ some (.critical stage a))
    (hp' : ∀ stage a, p' ≠ .critical stage a) (j : ℕ) (stage : Stage) (a : Attempt) :
    Function.update phases i (some p') j = some (.critical stage a) ↔
      phases j = some (.critical stage a) := by
  by_cases hj : j = i
  · rw [hj, Function.update_self, Option.some_inj]
    exact iff_of_false (hp' stage a) (hp stage a)
  · rw [Function.update_of_ne hj]

/-- A step outside the critical section. -/
theorem Inv.quiet (h : Inv parse start taken core phases) {p p' : Phase} (hp : phases i = some p)
    (hbefore : p.BeforeLock) (hext : Extends core core') (hhandle : core'.handle = core.handle)
    (hactive : core'.activeVersion = core.activeVersion)
    (hok : PhaseOk parse start taken core' i p') (hp' : ∀ stage a, p' ≠ .critical stage a) :
    Inv parse start taken core' (Function.update phases i (some p')) := by
  have houtside : ∀ stage a, phases i ≠ some (.critical stage a) := by
    intro stage a hcritical
    rw [hp, Option.some_inj] at hcritical
    rw [hcritical] at hbefore
    exact hbefore
  -- the handle and who is inside are as before; only the file may be a new one
  have hcritical := critical_update houtside hp'
  refine ⟨fun j => ?_, h.ok_update hext hok, fun j stage a hj => ?_, fun hfree => ?_,
    h.active_mono hext hactive (by rw [hhandle])⟩
  · simp only [hcritical, hhandle]
    exact h.mutex j
  · rw [hcritical] at hj
    exact (h.stage j stage a hj).mono hext (by rw [hhandle]) (by rw [hhandle])
  · rw [hhandle] at hfree
    exact (h.together hfree).mono hext (by rw [hhandle]) (by rw [hhandle])

/-- A step of the attempt that holds the mutex, and keeps it. -/
theorem Inv.inside (h : Inv parse start taken core phases) {stage stage' : Stage} {a : Attempt}
    (hp : phases i = some (.critical stage a)) (hext : Extends core core')
    (hmutex : core'.handle.reloadMutex = core.handle.reloadMutex)
    (hok : PhaseOk parse start taken core' i (.critical stage' a))
    (hstage : StageOk parse start taken core' stage' a)
    (hactive : ∃ origin a, Confirmed parse start taken core' origin a ∧
      a.version = core'.activeVersion ∧ core'.handle.config = a.newDynamic) :
    Inv parse start taken core' (Function.update phases i (some (.critical stage' a))) := by
  have hholder := (h.mutex i).mpr ⟨stage, a, hp⟩
  refine ⟨fun j => ?_, h.ok_update hext hok, fun j st b hj => ?_, fun hfree => ?_, hactive⟩
  · rw [hmutex, h.mutex j]
    by_cases hj : j = i
    · rw [hj, Function.update_self]
      exact iff_of_true ⟨stage, a, hp⟩ ⟨stage', a, rfl⟩
    · rw [Function.update_of_ne hj]
  · obtain ⟨-, heq⟩ | ⟨hji, hj⟩ := update_eq_some hj
    · cases heq
      exact hstage
    · exact absurd (h.eq_holder hp hj) hji
  · -- the mutex is held all the time
    rw [hmutex, hholder] at hfree
    cases hfree

/-- The step with which the mutex is given up. -/
theorem Inv.leave (h : Inv parse start taken core phases) {stage : Stage} {a : Attempt} {p' : Phase}
    (hp : phases i = some (.critical stage a)) (hext : Extends core core')
    (hmutex : core'.handle.reloadMutex = none) (htogether : Together parse start taken core')
    (hok : PhaseOk parse start taken core' i p') (hp' : ∀ stage a, p' ≠ .critical stage a)
    (hactive : ∃ origin a, Confirmed parse start taken core' origin a ∧
      a.version = core'.activeVersion ∧ core'.handle.config = a.newDynamic) :
    Inv parse start taken core' (Function.update phases i (some p')) := by
  have hnone : ∀ j st b, Function.update phases i (some p') j ≠ some (.critical st b) := by
    intro j st b hj
    obtain ⟨-, heq⟩ | ⟨hji, hj⟩ := update_eq_some hj
    · exact hp' st b heq
    · exact hji (h.eq_holder hp hj)
  refine ⟨fun j => ?_, h.ok_update hext hok, fun j st b hj => absurd hj (hnone j st b),
    fun _ => htogether, hactive⟩
  rw [hmutex]
  refine iff_of_false (by simp) ?_
  rintro ⟨st, b, hj⟩
  exact hnone j st b hj

theorem Inv.lock (h : Inv parse start taken core phases) {a : Attempt}
    (hp : phases i = some (.waiting a)) (hfree : core.handle.reloadMutex = none) :
    Inv parse start taken (core.setMutex (some i))
      (Function.update phases i (some (.critical .locked a))) := by
  have hext : Extends core (core.setMutex (some i)) := ⟨List.prefix_rfl, rfl⟩
  have hnone : ∀ j stage b, phases j ≠ some (.critical stage b) := by
    intro j stage b hj
    rw [(h.mutex j).mpr ⟨stage, b, hj⟩] at hfree
    cases hfree
  have htogether := (h.together hfree).mono hext rfl rfl
  refine ⟨fun j => ?_, h.ok_update hext (AttemptOk.mono (h.ok i _ hp) hext), fun j st b hj => ?_,
    fun hfree => ?_, h.active_mono hext rfl rfl⟩
  · show some i = some j ↔ _
    by_cases hj : j = i
    · rw [hj, Function.update_self]
      exact iff_of_true rfl ⟨.locked, a, rfl⟩
    · rw [Function.update_of_ne hj]
      refine iff_of_false (fun heq => hj (Option.some_inj.mp heq).symm) ?_
      rintro ⟨stage, b, hb⟩
      exact hnone j stage b hb
  · obtain ⟨-, heq⟩ | ⟨-, hj⟩ := update_eq_some hj
    · cases heq
      exact htogether
    · exact absurd hj (hnone j st b)
  · cases hfree

theorem Inv.move (h : Inv parse start taken core phases) {p p' : Phase} {action : Action}
    (htaken : taken i action) (hp : phases i = some p)
    (hmove : Move parse core i p action core' p') :
    Inv parse start taken core' (Function.update phases i (some p')) := by
  have hext := extends_of_move hmove
  cases hmove with
  | metadataBefore =>
    exact h.quiet hp trivial hext rfl rfl trivial fun _ _ heq => Phase.noConfusion heq
  | readToString modified =>
    refine h.quiet hp trivial hext rfl rfl ⟨core.file, ?_, rfl⟩ fun _ _ heq => Phase.noConfusion heq
    exact List.getElem?_concat_length
  | finishRead modified hfinish =>
    -- this step is the one that asked, so it is named in `valid`
    obtain ⟨full, hparse, hsplit, hvalid⟩ := finishRead_eq_ok hfinish
    refine h.quiet hp trivial hext rfl rfl ?_ fun _ _ heq => Phase.noConfusion heq
    exact ⟨h.ok i _ hp, fun hnone => (by cases hnone), ⟨full, hparse, hsplit⟩, _, htaken, hvalid⟩
  | lock a hfree => exact h.lock hp hfree
  | check a hcheck =>
    -- nothing is stored before the checks have passed, in the environment of this step
    have htogether : Together parse start taken core := h.stage i _ a hp
    have hread : AttemptOk parse start taken core (some i) a := h.ok i _ hp
    exact h.inside hp hext rfl ⟨hread, _, htaken, hcheck⟩ htogether h.active
  | reject env a e =>
    have htogether : Together parse start taken core := h.stage i _ a hp
    exact h.leave hp hext rfl (htogether.mono hext rfl rfl) trivial
      (fun _ _ heq => Phase.noConfusion heq) (h.active_mono hext rfl rfl)
  | storeDynamic a changed =>
    have hok := Confirmed.mono (h.ok i _ hp) hext
    exact h.inside hp hext rfl hok rfl ⟨some i, a, hok, rfl, rfl⟩
  | storeStatic a changed =>
    -- the halves differ only between the two stores
    have hconfig : core.handle.config = a.newDynamic := h.stage i _ a hp
    exact h.inside hp hext rfl (Confirmed.mono (h.ok i _ hp) hext) ⟨hconfig, rfl⟩
      (h.active_mono hext rfl rfl)
  | unlock a changed =>
    have hstored : core.handle.config = a.newDynamic ∧ core.handle.staticConfig = a.newStatic :=
      h.stage i _ a hp
    have hok := Confirmed.mono (h.ok i _ hp) hext
    exact h.leave hp hext rfl ⟨some i, a, hok, hstored.2, hstored.1⟩ hok
      (fun _ _ heq => Phase.noConfusion heq) (h.active_mono hext rfl rfl)
  | fail hbefore action e =>
    exact h.quiet hp hbefore hext rfl rfl trivial fun _ _ heq => Phase.noConfusion heq
  | cancel hbefore =>
    exact h.quiet hp hbefore hext rfl rfl trivial fun _ _ heq => Phase.noConfusion heq

end moves

omit [Lowercase] in
theorem phases_update (sys : System) (core : Core) (i : ℕ) (task : Task) :
    (⟨core, Function.update sys.tasks i (some task)⟩ : System).phases
      = Function.update sys.phases i (some task.phase) := by
  funext j
  show (Function.update sys.tasks i (some task) j).map (·.phase) = _
  by_cases hj : j = i
  · rw [hj, Function.update_self, Function.update_self, Option.map_some]
  · rw [Function.update_of_ne hj, Function.update_of_ne hj]
    rfl

theorem step_inv {sys sys' : System} {e : Event} (h : Inv parse start taken sys.core sys.phases)
    (htaken : ∀ i action, e = .task i action → taken i action)
    (hstep : step parse sys e = some sys') : Inv parse start taken sys'.core sys'.phases := by
  have hext := extends_of_step hstep
  cases e with
  | replaceFile file =>
    obtain rfl := Option.some_inj.mp hstep
    exact ⟨h.mutex, fun i p hp => (h.ok i p hp).mono hext,
      fun i stage a hp => (h.stage i stage a hp).mono hext rfl rfl,
      fun hfree => (h.together hfree).mono hext rfl rfl, h.active_mono hext rfl rfl⟩
  | request i =>
    obtain ⟨hnone, rfl⟩ := step_request hstep
    rw [phases_update]
    have houtside : ∀ stage a, sys.phases i ≠ some (.critical stage a) := by
      intro stage a
      rw [System.phases, hnone, Option.map_none]
      simp
    -- a new attempt is like one that has just started and was there before
    have hcritical := critical_update houtside
      fun stage a => (by simp : Phase.started ≠ .critical stage a)
    refine ⟨fun j => ?_, h.ok_update hext trivial, fun j stage a hj => ?_,
      h.together, h.active⟩
    · simp only [hcritical]
      exact h.mutex j
    · rw [hcritical] at hj
      exact h.stage j stage a hj
  | task i action =>
    obtain ⟨task, core', p', htask, hmove, rfl⟩ := step_task hstep
    rw [phases_update]
    exact h.move (htaken i action rfl) (by rw [System.phases, htask, Option.map_some]) hmove

variable (taken) in
/-- The pair that `load_config` produces is like an attempt that has
succeeded; the flag that is handed to the handle accepts it again. -/
theorem start_inv {env : Env} {cli : Bool} {file : FileVersion} {loaded : LoadedConfig}
    (hload : loadConfig parse env cli file.content = .ok loaded) :
    Inv parse env taken (System.start file loaded).core (System.start file loaded).phases := by
  obtain ⟨full, hparse, hsplit, hflag, hvalid, hbudget⟩ := loadConfig_eq_ok hload
  have hvalid' : validate env.pathExists loaded.staticConfig loaded.dynamicConfig
      loaded.allowWildcardBind = .ok () := by
    rw [hflag, validate_or_flag, hvalid]
  have hok : Confirmed parse env taken (System.start file loaded).core none
      ⟨0, 0, file.content, loaded.staticConfig, loaded.dynamicConfig⟩ :=
    { version := ⟨file, rfl, rfl⟩
      first := fun _ => rfl
      split := ⟨full, hparse, hsplit⟩
      valid := ⟨env, rfl, hvalid'⟩
      checked := ⟨env, rfl, checkReload_eq_ok.mpr ⟨hvalid', hbudget⟩⟩ }
  exact ⟨by simp [System.start, System.phases], by simp [System.start, System.phases],
    by simp [System.start, System.phases], fun _ => ⟨none, _, hok, rfl, rfl⟩,
    none, _, hok, rfl, rfl⟩

theorem run_inv {env : Env} {cli : Bool} {file : FileVersion} {loaded : LoadedConfig}
    (hload : loadConfig parse env cli file.content = .ok loaded) {es : List Event} {sys : System}
    (hrun : Run.run (step parse) (System.start file loaded) es = some sys) :
    Inv parse env (Taken es) sys.core sys.phases := by
  refine Run.run_induction_events (I := fun s : System => Inv parse env (Taken es) s.core s.phases)
    (Q := (· ∈ es)) ?_ (fun _ he => he) (start_inv (Taken es) hload) hrun
  intro s e s' h he hstep
  refine step_inv h ?_ hstep
  rintro i action rfl
  exact he

/-! ### Attempts that come to nothing -/

/-- The attempt has stored something. -/
def Phase.Committed : Phase → Prop
  | .critical (.storedDynamic _) _ => True
  | .critical (.storedBoth _) _ => True
  | .succeeded .. => True
  | _ => False

/-- The attempt has ended without success. -/
def Phase.CameToNothing : Phase → Prop
  | .failed _ => True
  | .cancelled => True
  | _ => False

theorem Move.committed {core core' : Core} {i : ℕ} {p p' : Phase} {action : Action}
    (h : Move parse core i p action core' p') (hp : p.Committed) : p'.Committed := by
  cases h with
  | storeStatic a changed => trivial
  | unlock a changed => trivial
  | fail hbefore action e => cases p <;> first | exact hbefore.elim | exact hp.elim
  | cancel hbefore => cases p <;> first | exact hbefore.elim | exact hp.elim
  | _ => exact hp.elim

/-- Only the two stores touch the halves. -/
theorem Move.halves {core core' : Core} {i : ℕ} {p p' : Phase} {action : Action}
    (h : Move parse core i p action core' p') (hp' : ¬ p'.Committed) :
    core'.handle.config = core.handle.config ∧
      core'.handle.staticConfig = core.handle.staticConfig := by
  cases h with
  | storeDynamic a changed => exact absurd trivial hp'
  | storeStatic a changed => exact absurd trivial hp'
  | _ => exact ⟨rfl, rfl⟩

/-- What is stored is not taken back: the attempt can only go on to succeed. -/
theorem step_committed {i : ℕ} {sys sys' : System} {e : Event}
    (h : ∃ p, sys.phases i = some p ∧ p.Committed) (hstep : step parse sys e = some sys') :
    ∃ p, sys'.phases i = some p ∧ p.Committed := by
  obtain ⟨p, hp, hcommitted⟩ := h
  cases e with
  | replaceFile file =>
    rw [← Option.some_inj.mp hstep]
    exact ⟨p, hp, hcommitted⟩
  | request j =>
    obtain ⟨hnone, rfl⟩ := step_request hstep
    have hij : i ≠ j := by
      rintro rfl
      rw [System.phases, hnone] at hp
      cases hp
    rw [phases_update, Function.update_of_ne hij]
    exact ⟨p, hp, hcommitted⟩
  | task j action =>
    obtain ⟨task, core', p', htask, hmove, rfl⟩ := step_task hstep
    rw [phases_update]
    by_cases hij : i = j
    · subst hij
      rw [System.phases, htask, Option.map_some, Option.some_inj] at hp
      rw [Function.update_self]
      exact ⟨p', rfl, hmove.committed (hp ▸ hcommitted)⟩
    · rw [Function.update_of_ne hij]
      exact ⟨p, hp, hcommitted⟩

omit [Lowercase] in
theorem not_committed_of_cameToNothing {p : Phase} (h : p.CameToNothing) : ¬ p.Committed := by
  cases p with
  | failed e => exact id
  | cancelled => exact id
  | _ => exact h.elim

/-- The first version of the file is the one that was loaded. -/
theorem first_version {file f : FileVersion} {loaded : LoadedConfig} {es : List Event}
    {sys : System} (hrun : Run.run (step parse) (System.start file loaded) es = some sys)
    (hf : sys.core.versions[0]? = some f) : f = file := by
  obtain ⟨rest, hrest⟩ := (extends_of_run hrun).versions
  rw [← hrest] at hf
  exact (Option.some_inj.mp hf).symm

variable (parse)

/-- **Atomicity of reloads.**  Whenever the mutex is free, the stored halves
are those of one content of the file, with the routing table of its sites, and
this content passed `validate` with the flag of the handle: at startup, if it is
the first content, or when an attempt of the run had read it and again before
the attempt stored it, each time with the files that were there then.  And no
step of an attempt that fails or is cancelled changes them. -/
theorem reload_atomic (env : Env) (cli : Bool) (file : FileVersion) (loaded : LoadedConfig)
    (hload : loadConfig parse env cli file.content = .ok loaded) (es : List Event) (sys : System)
    (hrun : Run.run (step parse) (System.start file loaded) es = some sys) :
    (sys.core.handle.reloadMutex = none →
      ∃ content full, (∃ f ∈ sys.core.versions, f.content = content) ∧
        parse content = .ok full ∧
        full.intoStaticAndDynamic = (sys.core.handle.staticConfig, sys.core.handle.config) ∧
        (∃ origin readEnv checkEnv, (origin = none → content = file.content) ∧
          ReadIn env (Taken es) origin readEnv ∧
          validate readEnv.pathExists sys.core.handle.staticConfig sys.core.handle.config
            sys.core.handle.cliAllowWildcardBind = .ok () ∧
          CheckedIn env (Taken es) origin checkEnv ∧
          checkReload checkEnv sys.core.handle.cliAllowWildcardBind
            sys.core.handle.staticConfig sys.core.handle.config = .ok ()) ∧
        sys.core.handle.config.routingTable = buildRoutingTable sys.core.handle.config.sites ∧
        sys.core.handle.config.sites
          = sys.core.handle.staticConfig.listeners.flatMap (·.sites)) ∧
    (∀ es₁ i action es₂ sys₁ sys₂, es = es₁ ++ .task i action :: es₂ →
      Run.run (step parse) (System.start file loaded) es₁ = some sys₁ →
      step parse sys₁ (.task i action) = some sys₂ →
      (∃ p, sys.phases i = some p ∧ p.CameToNothing) →
        sys₂.core.handle.config = sys₁.core.handle.config ∧
        sys₂.core.handle.staticConfig = sys₁.core.handle.staticConfig) := by
  constructor
  · intro hfree
    obtain ⟨origin, a, ha, hs, hd⟩ := (run_inv hload hrun).together hfree
    obtain ⟨f, hf, hcontent⟩ := ha.version
    obtain ⟨full, hparse, hsplit⟩ := ha.split
    obtain ⟨readEnv, hread, hvalid⟩ := ha.valid
    obtain ⟨checkEnv, hcheckEnv, hcheck⟩ := ha.checked
    have hsites : a.newDynamic = DynamicConfig.fromSites (a.newStatic.listeners.flatMap (·.sites))
        full.rateLimit full.body := by
      obtain ⟨h₁, h₂⟩ := Prod.mk.inj hsplit
      rw [← h₁, ← h₂]
    rw [hs, hd]
    refine ⟨a.content, full, ⟨f, List.mem_of_getElem? hf, hcontent⟩, hparse, hsplit,
      ⟨origin, readEnv, checkEnv, fun hnone => ?_, hread, hvalid, hcheckEnv, hcheck⟩, ?_, ?_⟩
    · rw [ha.first hnone] at hf
      rw [← hcontent, first_version hrun hf]
    · rw [hsites]
      rfl
    · rw [hsites]
      rfl
  · rintro es₁ i action es₂ sys₁ sys₂ rfl hrun₁ hstep ⟨p, hp, hnothing⟩
    rw [Run.run_append, hrun₁, Option.bind_some, Run.run_cons, hstep, Option.bind_some] at hrun
    obtain ⟨task, core', p', htask, hmove, rfl⟩ := step_task hstep
    -- had the step stored something, the attempt could not have ended like this
    refine hmove.halves fun hcommitted => ?_
    have hphase : (⟨core', Function.update sys₁.tasks i (some { task with phase := p' })⟩ :
        System).phases i = some p' := by
      rw [phases_update, Function.update_self]
    obtain ⟨q, hq, hcommitted'⟩ := Run.run_induction
      (I := fun sys : System => ∃ p, sys.phases i = some p ∧ p.Committed)
      step_committed ⟨p', hphase, hcommitted⟩ hrun
    rw [hp, Option.some_inj] at hq
    exact not_committed_of_cameToNothing hnothing (hq ▸ hcommitted')

end

/-- The actions of an attempt that succeeds. -/
def successfulActions (env : Env) : List Action :=
  [.metadataBefore none, .readToString none, .metadataAfter none env, .lock, .check env,
    .storeDynamic, .storeStatic, .unlock]

/-- Two attempts after the file was replaced, one of which is cancelled while it
waits for the mutex. -/
def sampleRun (env : Env) : List Event :=
  ([.replaceFile ⟨['#'], none⟩, .request 0, .request 1, .task 1 (.metadataBefore none),
    .task 1 (.readToString none), .task 1 (.metadataAfter none env)] : List Event) ++
  (successfulActions env).map (Event.task 0) ++ [.task 1 .cancel]

def quietEnv : Env := ⟨fun _ => true, none⟩

def sampleLoaded [Lowercase] : LoadedConfig where
  staticConfig := Routing.sampleConfig.intoStaticAndDynamic.1
  dynamicConfig := Routing.sampleConfig.intoStaticAndDynamic.2
  allowWildcardBind := false

/-- The sample configuration loads from any content that parses to it. -/
theorem loadConfig_sample : letI := asciiLowercase
    ∀ {parse : Str → Except Str FullConfig} {content : Str},
      parse content = .ok Routing.sampleConfig →
      loadConfig parse quietEnv false content = .ok sampleLoaded := by
  let _ := asciiLowercase
  intro parse content hparse
  have hvalid : validate quietEnv.pathExists Routing.sampleConfig.intoStaticAndDynamic.1
      Routing.sampleConfig.intoStaticAndDynamic.2 false = .ok () := Routing.validate_sampleConfig
  simp only [loadConfig, hparse, hvalid]
  rfl

def laterConfig : FullConfig :=
  { Routing.sampleConfig with rateLimit := { requestsPerSecond := 10, burst := 30 } }

/-- Two contents of the file, the empty one and any other. -/
def parseSamples (content : Str) : Except Str FullConfig :=
  .ok (if content = [] then Routing.sampleConfig else laterConfig)

theorem reload_atomic_sample : letI := asciiLowercase
    ∃ sys, Run.run (step parseSamples) (System.start ⟨[], none⟩ sampleLoaded)
        (sampleRun quietEnv) = some sys ∧
      sys.core.handle.config.rateLimit.burst = 30 ∧
      ∃ origin readEnv, ReadIn quietEnv (Taken (sampleRun quietEnv)) origin readEnv ∧
        validate readEnv.pathExists sys.core.handle.staticConfig sys.core.handle.config
          sys.core.handle.cliAllowWildcardBind = .ok () := by
  let _ := asciiLowercase
  have hend : (Run.run (step parseSamples) (System.start ⟨[], none⟩ sampleLoaded)
      (sampleRun quietEnv)).map (fun sys =>
        (sys.core.handle.reloadMutex, sys.core.handle.config.rateLimit.burst))
        = some (none, 30) := by decide +kernel
  obtain ⟨sys, hrun, hend⟩ := Option.map_eq_some_iff.mp hend
  obtain ⟨hfree, hburst⟩ := Prod.mk.inj hend
  have hload : loadConfig parseSamples quietEnv false [] = .ok sampleLoaded :=
    loadConfig_sample rfl
  have hatomic := (reload_atomic parseSamples quietEnv false ⟨[], none⟩ sampleLoaded hload
    (sampleRun quietEnv) sys hrun).1
  obtain ⟨content, full, -, -, -, ⟨origin, readEnv, -, -, hread, hvalid, -⟩, -⟩ := hatomic hfree
  exact ⟨sys, hrun, hburst, origin, readEnv, hread, hvalid⟩

end Reload
