/-
Startup and reload on the same content.

`load_config` and the reload path are two pipelines over the same checks.
Given the same flag they accept the same contents; but the flag that a reload
goes by is the one that the handle was built with, and `run_server` builds it
from the command line and the first file together.

* `loadConfig_accepts`, `reloadContent_accepts` — what each pipeline accepts;
* `reload_succeeds_iff` — an undisturbed attempt of the transition system ends
  with success exactly when the reload path accepts the content of the file;
* `reload_agrees_iff` — when the two agree on a content;
* `reload_accepts_more` — a content that only the reload accepts.
-/
import ReverseProxy.ReloadAtomic

open Text Config Validation

namespace Reload

section

variable [Lowercase] (parse : Str → Except Str FullConfig)

/-- The reload path on a content that has been read:
`read_and_validate_config`, then `ConfigReloadHandle::reload`. -/
def reloadContent (env : Env) (handle : Handle) (content : Str) :
    Except ReloadError (List Str) := do
  let new ← finishRead parse env handle.cliAllowWildcardBind content
  checkReload env handle.cliAllowWildcardBind new.1 new.2
  return diffStaticConfig handle.staticConfig new.1

/-- What both pipelines ask of a content, given the flag they go by. -/
def Acceptable (env : Env) (flag : Bool) (content : Str) : Prop :=
  ∃ full, parse content = .ok full ∧
    validate env.pathExists full.intoStaticAndDynamic.1 full.intoStaticAndDynamic.2 flag = .ok () ∧
    validateNofile env.softNofileLimit full.maxConnections = []

variable {parse}

theorem loadConfig_accepts {env : Env} {cli : Bool} {content : Str} :
    (∃ loaded, loadConfig parse env cli content = .ok loaded) ↔
      Acceptable parse env cli content := by
  constructor
  · rintro ⟨loaded, h⟩
    simp only [loadConfig] at h
    split at h
    · cases h
    · next full hparse =>
      split at h
      · cases h
      · next hvalid =>
        split at h
        · next hbudget => exact ⟨full, hparse, hvalid, hbudget⟩
        · cases h
  · rintro ⟨full, hparse, hvalid, hbudget⟩
    simp only [loadConfig, hparse, hvalid]
    rw [if_pos (show validateNofile env.softNofileLimit
      full.intoStaticAndDynamic.1.maxConnections = [] from hbudget)]
    exact ⟨_, rfl⟩

/-- The second validation of the reload path accepts what the first has. -/
theorem reloadContent_eq_ok {env : Env} {handle : Handle} {content : Str} {changed : List Str} :
    reloadContent parse env handle content = .ok changed ↔
      ∃ new, finishRead parse env handle.cliAllowWildcardBind content = .ok new ∧
        checkReload env handle.cliAllowWildcardBind new.1 new.2 = .ok () ∧
        diffStaticConfig handle.staticConfig new.1 = changed := by
  rw [reloadContent]
  rcases finishRead parse env handle.cliAllowWildcardBind content with e | new
  · simp [Bind.bind, Except.bind]
  · rcases hcheck : checkReload env handle.cliAllowWildcardBind new.1 new.2 with e | u
    · simp [Bind.bind, Except.bind, hcheck]
    · simp [Bind.bind, Except.bind, hcheck, Pure.pure, Except.pure]

theorem reloadContent_accepts {env : Env} {handle : Handle} {content : Str} :
    (∃ changed, reloadContent parse env handle content = .ok changed) ↔
      Acceptable parse env handle.cliAllowWildcardBind content := by
  constructor
  · rintro ⟨changed, h⟩
    obtain ⟨new, hread, hcheck, -⟩ := reloadContent_eq_ok.mp h
    obtain ⟨full, hparse, rfl, hvalid⟩ := finishRead_eq_ok hread
    exact ⟨full, hparse, hvalid, (checkReload_eq_ok.mp hcheck).2⟩
  · rintro ⟨full, hparse, hvalid, hbudget⟩
    refine ⟨_, reloadContent_eq_ok.mpr ⟨full.intoStaticAndDynamic, ?_, ?_, rfl⟩⟩
    · simp only [finishRead, hparse, hvalid]
    · exact checkReload_eq_ok.mpr ⟨hvalid, hbudget⟩

/-! ### An undisturbed attempt -/

/-- An attempt that is not interleaved with others goes by its own steps. -/
theorem run_tasks {i : ℕ} (actions : List Action) : ∀ {sys : System} {task : Task},
    sys.tasks i = some task →
    ((∃ sys', Run.run (step parse) sys (actions.map (.task i)) = some sys') ↔
      ∃ r, Run.run (fun (r : Core × Phase) a => advance parse r.1 i r.2 a)
        (sys.core, task.phase) actions = some r) := by
  induction actions with
  | nil => exact fun _ => iff_of_true ⟨_, rfl⟩ ⟨_, rfl⟩
  | cons action actions ih =>
    intro sys task htask
    rw [List.map_cons, Run.run_cons, Run.run_cons]
    have hstep : step parse sys (.task i action) = (advance parse sys.core i task.phase action).map
        fun r => ⟨r.1, Function.update sys.tasks i (some { task with phase := r.2 })⟩ := by
      simp only [step, htask, Option.bind_eq_bind, Option.bind_some, Option.map_eq_bind]
      rfl
    rw [hstep]
    dsimp only
    rcases advance parse sys.core i task.phase action with _ | r
    · simp
    · rw [Option.map_some, Option.bind_some, Option.bind_some]
      have hnext : (⟨r.1, Function.update sys.tasks i (some { task with phase := r.2 })⟩ :
          System).tasks i = some { task with phase := r.2 } := Function.update_self ..
      exact ih hnext

/-- Reading the file comes first: the time stamps agree when nothing has
replaced it meanwhile. -/
theorem run_reading (core : Core) (i : ℕ) (env : Env) (actions : List Action) :
    Run.run (fun (r : Core × Phase) a => advance parse r.1 i r.2 a) (core, .started)
        (.metadataBefore none :: .readToString none :: .metadataAfter none env :: actions)
      = Run.run (fun (r : Core × Phase) a => advance parse r.1 i r.2 a)
        ({ core with reads := core.reads + 1 },
          match finishRead parse env core.handle.cliAllowWildcardBind core.file.content with
          | .error e => .failed e
          | .ok new => .waiting ⟨core.version, core.reads, core.file.content, new.1, new.2⟩)
        actions := by
  have hsame : ¬ core.file.modified ≠ core.file.modified := not_not.mpr rfl
  show Run.run _ ({ core with reads := core.reads + 1 }, (if core.file.modified ≠
    core.file.modified then Phase.failed .fileChangedDuringRead else _)) actions = _
  exact congrArg (fun p : Phase => Run.run _ (_, p) actions) (if_neg hsame)

/-- The rest happens under the mutex, and goes through when the checks do. -/
theorem run_critical {core : Core} (hfree : core.handle.reloadMutex = none) (i : ℕ) (env : Env)
    (a : Attempt) :
    (∃ r, Run.run (fun (r : Core × Phase) a => advance parse r.1 i r.2 a) (core, .waiting a)
        [.lock, .check env, .storeDynamic, .storeStatic, .unlock] = some r) ↔
      checkReload env core.handle.cliAllowWildcardBind a.newStatic a.newDynamic = .ok () := by
  have hlock : advance parse core i (.waiting a) .lock
      = some (core.setMutex (some i), .critical .locked a) := by
    simp only [advance, hfree]
  rw [Run.run_cons, hlock, Option.bind_some, Run.run_cons]
  rcases hcheck : checkReload env core.handle.cliAllowWildcardBind a.newStatic a.newDynamic
    with e | u
  · have hfail : advance parse (core.setMutex (some i)) i (.critical .locked a) (.check env)
        = some ((core.setMutex (some i)).setMutex none, .failed e) := by
      have hcheck' : checkReload env (core.setMutex (some i)).handle.cliAllowWildcardBind
        a.newStatic a.newDynamic = .error e := hcheck
      simp only [advance, hcheck']
    constructor
    · rintro ⟨r, h⟩
      rw [hfail] at h
      exact absurd h.symm (Option.some_ne_none r)
    · intro h
      cases h
  · have hpass : advance parse (core.setMutex (some i)) i (.critical .locked a) (.check env)
        = some (core.setMutex (some i), .critical (.checked
            (diffStaticConfig (core.setMutex (some i)).handle.staticConfig a.newStatic)) a) := by
      have hcheck' : checkReload env (core.setMutex (some i)).handle.cliAllowWildcardBind
        a.newStatic a.newDynamic = .ok u := hcheck
      simp only [advance, hcheck']
    rw [hpass]
    exact iff_of_true ⟨_, rfl⟩ rfl

/-- The reload path is what an attempt does that nothing comes between. -/
theorem reload_succeeds_iff {sys : System} {i : ℕ} (hnew : sys.tasks i = none)
    (hfree : sys.core.handle.reloadMutex = none) (env : Env) :
    (∃ sys', Run.run (step parse) sys (.request i :: (successfulActions env).map (.task i))
        = some sys') ↔
      ∃ changed, reloadContent parse env sys.core.handle sys.core.file.content = .ok changed := by
  have hrequest : step parse sys (.request i) = some { sys with
      tasks := Function.update sys.tasks i (some ⟨sys.core.version, .started⟩) } := by
    simp only [step, hnew]
  rw [Run.run_cons, hrequest, Option.bind_some, run_tasks _ (Function.update_self ..),
    successfulActions, run_reading]
  simp only [reloadContent_eq_ok]
  rcases finishRead parse env sys.core.handle.cliAllowWildcardBind sys.core.file.content
    with e | new
  · constructor
    · rintro ⟨r, h⟩
      exact absurd h.symm (Option.some_ne_none r)
    · rintro ⟨_, _, h, _⟩
      cases h
  · have hfree' :
        ({ sys.core with reads := sys.core.reads + 1 } : Core).handle.reloadMutex = none := hfree
    refine (run_critical hfree' i env _).trans ⟨fun hcheck => ?_, ?_⟩
    · exact ⟨_, new, rfl, hcheck, rfl⟩
    · rintro ⟨-, new', hnew', hcheck, -⟩
      rw [Except.ok.inj hnew']
      exact hcheck

/-! ### The flag -/

/-- A content that names `0.0.0.0` without asking for it, and is accepted only
with the flag of the command line. -/
def NeedsFlag (parse : Str → Except Str FullConfig) (env : Env) (content : Str) : Prop :=
  (∃ full, parse content = .ok full ∧ full.allowWildcardBind = false ∧
    ∃ l ∈ full.listeners, l.bindAddr = "0.0.0.0".toList) ∧
  ∃ loaded, loadConfig parse env true content = .ok loaded

theorem acceptable_iff {env : Env} {content : Str} :
    Acceptable parse env false content ↔
      Acceptable parse env true content ∧ ¬ NeedsFlag parse env content := by
  constructor
  · rintro ⟨full, hparse, hvalid, hbudget⟩
    obtain ⟨htrue, hflag⟩ := (validate_flag env.pathExists).mp hvalid
    refine ⟨⟨full, hparse, htrue, hbudget⟩, ?_⟩
    rintro ⟨⟨full', hparse', hown, l, hl, hwildcard⟩, -⟩
    obtain rfl : full' = full := Except.ok.inj (hparse'.symm.trans hparse)
    rcases hflag with hflag | hnone
    · rw [Bool.or_false] at hflag
      exact absurd (hown.symm.trans hflag) nofun
    · exact hnone l hl hwildcard
  · rintro ⟨⟨full, hparse, htrue, hbudget⟩, hneeds⟩
    refine ⟨full, hparse, (validate_flag env.pathExists).mpr ⟨htrue, ?_⟩, hbudget⟩
    by_contra hflag
    obtain ⟨hown, hwildcard⟩ := not_or.mp hflag
    push Not at hwildcard
    rw [Bool.or_false, Bool.not_eq_true] at hown
    exact hneeds ⟨⟨full, hparse, hown, hwildcard⟩,
      loadConfig_accepts.mpr ⟨full, hparse, htrue, hbudget⟩⟩

/-- **Startup and reload.**  However the process has been started and
reloaded, its reload path accepts a content just when a fresh start would,
unless the first file set `allow_wildcard_bind`, the command line does not,
and the content needs the flag. -/
theorem reload_agrees_iff (parse : Str → Except Str FullConfig) (env₀ : Env) (cli : Bool)
    (file : FileVersion) (loaded : LoadedConfig)
    (hload : loadConfig parse env₀ cli file.content = .ok loaded) (es : List Event) (sys : System)
    (hrun : Run.run (step parse) (System.start file loaded) es = some sys) (env : Env)
    (content : Str) :
    ((∃ changed, reloadContent parse env sys.core.handle content = .ok changed) ↔
      ∃ fresh, loadConfig parse env cli content = .ok fresh) ↔
    ¬ (loaded.staticConfig.allowWildcardBind = true ∧ cli = false ∧
      NeedsFlag parse env content) := by
  obtain ⟨-, -, -, hflag, -⟩ := loadConfig_eq_ok hload
  rw [reloadContent_accepts, loadConfig_accepts, (extends_of_run hrun).flag]
  show (Acceptable parse env loaded.allowWildcardBind content ↔ _) ↔ _
  rw [hflag]
  cases cli with
  | true => simp
  | false =>
    rw [Bool.or_false]
    cases loaded.staticConfig.allowWildcardBind with
    | false => simp
    | true =>
      rw [acceptable_iff]
      have haccept : NeedsFlag parse env content → Acceptable parse env true content :=
        fun h => loadConfig_accepts.mp h.2
      tauto

end

theorem reload_agrees_iff_sample : letI := asciiLowercase
    ∃ sys, Run.run (step parseSamples) (System.start ⟨[], none⟩ sampleLoaded)
        (sampleRun quietEnv) = some sys ∧
      sys.core.handle.config.rateLimit.burst = 30 ∧
      ((∃ changed, reloadContent parseSamples quietEnv sys.core.handle [] = .ok changed) ↔
        ∃ fresh, loadConfig parseSamples quietEnv false [] = .ok fresh) := by
  let _ := asciiLowercase
  have hend : (Run.run (step parseSamples) (System.start ⟨[], none⟩ sampleLoaded)
      (sampleRun quietEnv)).map (·.core.handle.config.rateLimit.burst) = some 30 := by
    decide +kernel
  obtain ⟨sys, hrun, hburst⟩ := Option.map_eq_some_iff.mp hend
  refine ⟨sys, hrun, hburst, (reload_agrees_iff parseSamples quietEnv false ⟨[], none⟩
    sampleLoaded (loadConfig_sample rfl) (sampleRun quietEnv) sys hrun quietEnv []).mpr ?_⟩
  rintro ⟨hflag, -⟩
  exact absurd hflag nofun

/-- The first file asks for the wildcard flag; the next one uses the wildcard
without asking. -/
def parseWildcard (content : Str) : Except Str FullConfig :=
  .ok (if content = [] then { Routing.sampleConfig with allowWildcardBind := true }
    else { Routing.sampleConfig with
      listeners := [{ Routing.sampleListener with bindAddr := "0.0.0.0".toList }] })

/-- The reload accepts the second file, and the restart that follows fails. -/
theorem reload_accepts_more : letI := asciiLowercase
    ∃ loaded, loadConfig parseWildcard quietEnv false [] = .ok loaded ∧
      (∃ changed, reloadContent parseWildcard quietEnv
        (System.start ⟨[], none⟩ loaded).core.handle ['#'] = .ok changed) ∧
      loadConfig parseWildcard quietEnv false ['#']
        = .error (.validation [.wildcardBindNotAllowed "0.0.0.0".toList]) := by
  let _ := asciiLowercase
  refine ⟨_, rfl, ⟨_, rfl⟩, rfl⟩

end Reload
