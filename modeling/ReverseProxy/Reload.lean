/-
Loading and reloading the configuration.

At startup `loadConfig` produces the two halves of the configuration; after
that any number of reload attempts run side by side, each triggered by a
signal or by the admin endpoint.  An attempt reads the file between two looks
at its modification time, parses and validates it, and only then waits for
the reload mutex, under which it validates again and stores the two halves
one after the other.  It can be cancelled wherever it awaits.

The system is a transition system over all attempts and the file, which may be
replaced at any time.  `version`, `order`, `startedAt`, `reads` and
`activeVersion` are bookkeeping that no step looks at.

* `advance`, `step` — the transition system;
* `move_of_advance`, `step_task`, `step_request` — what one step can do, the
  only place where these are unfolded;
* `loadConfig_eq_ok`, `finishRead_eq_ok`, `checkReload_eq_ok` — what an accepted
  content is.
-/
import ReverseProxy.Validation

open Text Config Validation

namespace Reload

/-! ### Errors -/

inductive ReloadError where
  | io (text : Str)
  | parse (text : Str)
  | validation (text : Str)
  | fileChangedDuringRead
  -- what `reload` itself returns
  | rejected (text : Str)
  deriving DecidableEq

def ReloadError.toText : ReloadError → Str
  | io text => "IO error reading config file: ".toList ++ text
  | parse text => "Failed to parse config file: ".toList ++ text
  | validation text => "Config validation failed: ".toList ++ text
  | fileChangedDuringRead => "config file changed during read, please retry".toList
  | rejected text => text

/-- Errors as one text. -/
def joined (separator : Str) (errors : List ValidationError) : Str :=
  separator.intercalate (errors.map ValidationError.toText)

/-! ### Startup -/

/-- What a validating step asks the operating system. -/
structure Env where
  pathExists : Str → Bool
  softNofileLimit : Option UInt64

structure LoadedConfig where
  staticConfig : StaticConfig
  dynamicConfig : DynamicConfig
  allowWildcardBind : Bool

inductive LoadError where
  | parse (text : Str)
  | validation (errors : List ValidationError)
  | fdBudget (errors : List ValidationError)
  deriving DecidableEq

/-- The message of the error, without its causes. -/
def LoadError.toText (path : Str) : LoadError → Str
  | parse _ => "failed to parse config file: ".toList ++ path
  | validation errors => "config validation failed:\n  - ".toList ++ joined "\n  - ".toList errors
  | fdBudget errors =>
    "FD budget validation failed:\n  - ".toList ++ joined "\n  - ".toList errors

section

variable [Lowercase] (parse : Str → Except Str FullConfig)

/-- `load_config` on the content of the file. -/
def loadConfig (env : Env) (cliAllowWildcardBind : Bool) (content : Str) :
    Except LoadError LoadedConfig :=
  match parse content with
  | .error text => .error (.parse text)
  | .ok full =>
    let split := full.intoStaticAndDynamic
    match validate env.pathExists split.1 split.2 cliAllowWildcardBind with
    | .error errors => .error (.validation errors)
    | .ok () =>
      let fdErrors := validateNofile env.softNofileLimit split.1.maxConnections
      if fdErrors = [] then
        .ok { staticConfig := split.1
              dynamicConfig := split.2
              allowWildcardBind := split.1.allowWildcardBind || cliAllowWildcardBind }
      else .error (.fdBudget fdErrors)

/-! ### The steps of an attempt -/

/-- The end of `read_and_validate_config`. -/
def finishRead (env : Env) (cliAllowWildcardBind : Bool) (content : Str) :
    Except ReloadError (StaticConfig × DynamicConfig) :=
  match parse content with
  | .error text => .error (.parse text)
  | .ok full =>
    let split := full.intoStaticAndDynamic
    match validate env.pathExists split.1 split.2 cliAllowWildcardBind with
    | .error errors => .error (.validation (joined "; ".toList errors))
    | .ok () => .ok split

/-- The checks of `reload` under the mutex. -/
def checkReload (env : Env) (cliAllowWildcardBind : Bool) (newStatic : StaticConfig)
    (newDynamic : DynamicConfig) : Except ReloadError Unit :=
  match validate env.pathExists newStatic newDynamic cliAllowWildcardBind with
  | .error errors => .error (.rejected (joined "; ".toList errors))
  | .ok () =>
    let fdErrors := validateNofile env.softNofileLimit newStatic.maxConnections
    if fdErrors = [] then .ok ()
    else .error (.rejected ("FD budget validation failed: ".toList ++ joined "; ".toList fdErrors))

end

/-- A name when a field differs. -/
def changedIf {α : Type} [DecidableEq α] (old new : α) (name : String) : List Str :=
  if old ≠ new then [name.toList] else []

def diffStaticConfig (old new : StaticConfig) : List Str :=
  changedIf old.listeners new.listeners "listeners" ++
  changedIf old.allowWildcardBind new.allowWildcardBind "allow_wildcard_bind" ++
  changedIf old.healthCheckPort new.healthCheckPort "health_check_port" ++
  changedIf old.adminKeyPath new.adminKeyPath "admin_key_path" ++
  changedIf old.shutdownTimeoutSecs new.shutdownTimeoutSecs "shutdown_timeout_secs" ++
  changedIf old.connectionIdleTimeoutSecs new.connectionIdleTimeoutSecs
    "connection_idle_timeout_secs" ++
  changedIf old.tlsHandshakeTimeoutSecs new.tlsHandshakeTimeoutSecs
    "tls_handshake_timeout_secs" ++
  changedIf old.maxConnections new.maxConnections "max_connections" ++
  changedIf old.logging new.logging "logging"

/-- A configuration that was read, and from which version of the file. -/
structure Attempt where
  version : ℕ
  order : ℕ
  content : Str
  newStatic : StaticConfig
  newDynamic : DynamicConfig

/-- Where an attempt is while it holds the mutex. -/
inductive Stage where
  | locked
  | checked (changed : List Str)
  | storedDynamic (changed : List Str)
  | storedBoth (changed : List Str)

inductive Phase where
  | started
  | sawMetadata (modified : Option ℕ)
  | readContent (modified : Option ℕ) (version order : ℕ) (content : Str)
  | waiting (a : Attempt)
  | critical (stage : Stage) (a : Attempt)
  | succeeded (a : Attempt) (changed : List Str)
  | failed (e : ReloadError)
  | cancelled

/-- What an attempt does next; a file operation can fail. -/
inductive Action where
  | metadataBefore (failure : Option Str)
  | readToString (failure : Option Str)
  | metadataAfter (failure : Option Str) (env : Env)
  | lock
  | check (env : Env)
  | storeDynamic
  | storeStatic
  | unlock
  | cancel

structure FileVersion where
  content : Str
  modified : Option ℕ

/-- `ConfigReloadHandle`. -/
structure Handle where
  config : DynamicConfig
  staticConfig : StaticConfig
  reloadMutex : Option ℕ
  cliAllowWildcardBind : Bool

/-- What the attempts share: the file with its former versions, and the
handle. -/
structure Core where
  older : List FileVersion
  file : FileVersion
  reads : ℕ
  handle : Handle
  activeVersion : ℕ

/-- The number of the version that is in place. -/
def Core.version (core : Core) : ℕ := core.older.length

def Core.versions (core : Core) : List FileVersion := core.older ++ [core.file]

def Core.setMutex (core : Core) (holder : Option ℕ) : Core :=
  { core with handle := { core.handle with reloadMutex := holder } }

/-! ### The system -/

section

variable [Lowercase] (parse : Str → Except Str FullConfig)

/-- The result of a file operation. -/
def afterIo (failure : Option Str) (next : Phase) : Phase :=
  match failure with
  | some text => .failed (.io text)
  | none => next

/-- One step of attempt `i`: what it does to the shared state, and its next
phase. -/
def advance (core : Core) (i : ℕ) : Phase → Action → Option (Core × Phase)
  | .started, .metadataBefore failure =>
    some (core, afterIo failure (.sawMetadata core.file.modified))
  | .sawMetadata modified, .readToString none =>
    some ({ core with reads := core.reads + 1 },
      .readContent modified core.version core.reads core.file.content)
  | .sawMetadata _, .readToString (some text) => some (core, .failed (.io text))
  | .readContent modified version order content, .metadataAfter failure env =>
    some (core, afterIo failure <|
      if modified ≠ core.file.modified then .failed .fileChangedDuringRead
      else
        match finishRead parse env core.handle.cliAllowWildcardBind content with
        | .error e => .failed e
        | .ok new => .waiting ⟨version, order, content, new.1, new.2⟩)
  | .waiting a, .lock =>
    match core.handle.reloadMutex with
    | some _ => none
    | none => some (core.setMutex (some i), .critical .locked a)
  | .critical .locked a, .check env =>
    match checkReload env core.handle.cliAllowWildcardBind a.newStatic a.newDynamic with
    -- an early return drops the guard
    | .error e => some (core.setMutex none, .failed e)
    | .ok () =>
      some (core, .critical (.checked (diffStaticConfig core.handle.staticConfig a.newStatic)) a)
  | .critical (.checked changed) a, .storeDynamic =>
    some ({ core with
      handle := { core.handle with config := a.newDynamic }
      activeVersion := a.version }, .critical (.storedDynamic changed) a)
  | .critical (.storedDynamic changed) a, .storeStatic =>
    some ({ core with handle := { core.handle with staticConfig := a.newStatic } },
      .critical (.storedBoth changed) a)
  | .critical (.storedBoth changed) a, .unlock => some (core.setMutex none, .succeeded a changed)
  -- the four awaits
  | .started, .cancel => some (core, .cancelled)
  | .sawMetadata _, .cancel => some (core, .cancelled)
  | .readContent .., .cancel => some (core, .cancelled)
  | .waiting _, .cancel => some (core, .cancelled)
  | _, _ => none

structure Task where
  startedAt : ℕ
  phase : Phase

structure System where
  core : Core
  tasks : ℕ → Option Task

inductive Event where
  | replaceFile (file : FileVersion)
  | request (i : ℕ)
  | task (i : ℕ) (action : Action)

def step (sys : System) : Event → Option System
  | .replaceFile file =>
    some { sys with core := { sys.core with older := sys.core.versions, file := file } }
  | .request i =>
    match sys.tasks i with
    | some _ => none
    | none => some { sys with
        tasks := Function.update sys.tasks i (some ⟨sys.core.version, .started⟩) }
  | .task i action => do
    let task ← sys.tasks i
    let r ← advance parse sys.core i task.phase action
    return ⟨r.1, Function.update sys.tasks i (some { task with phase := r.2 })⟩

/-- The system as `run_server` sets it up from a loaded configuration. -/
def System.start (file : FileVersion) (loaded : LoadedConfig) : System where
  core :=
    { older := []
      file := file
      reads := 0
      handle :=
        { config := loaded.dynamicConfig
          staticConfig := loaded.staticConfig
          reloadMutex := none
          cliAllowWildcardBind := loaded.allowWildcardBind }
      activeVersion := 0 }
  tasks := fun _ => none

/-! ### What one step can do -/

/-- An attempt that has not asked for the mutex, or waits for it. -/
def Phase.BeforeLock : Phase → Prop
  | .started => True
  | .sawMetadata _ => True
  | .readContent .. => True
  | .waiting _ => True
  | _ => False

/-- The steps of an attempt, one by one. -/
inductive Move (core : Core) (i : ℕ) : Phase → Action → Core → Phase → Prop
  | metadataBefore :
    Move core i .started (.metadataBefore none) core (.sawMetadata core.file.modified)
  | readToString (modified : Option ℕ) :
    Move core i (.sawMetadata modified) (.readToString none) { core with reads := core.reads + 1 }
      (.readContent modified core.version core.reads core.file.content)
  | finishRead {env : Env} {version order : ℕ} {content : Str} {new : StaticConfig × DynamicConfig}
    (modified : Option ℕ)
    (h : finishRead parse env core.handle.cliAllowWildcardBind content = .ok new) :
    Move core i (.readContent modified version order content) (.metadataAfter none env) core
      (.waiting ⟨version, order, content, new.1, new.2⟩)
  | lock (a : Attempt) (h : core.handle.reloadMutex = none) :
    Move core i (.waiting a) .lock (core.setMutex (some i)) (.critical .locked a)
  | check {env : Env} (a : Attempt)
    (h : checkReload env core.handle.cliAllowWildcardBind a.newStatic a.newDynamic = .ok ()) :
    Move core i (.critical .locked a) (.check env) core
      (.critical (.checked (diffStaticConfig core.handle.staticConfig a.newStatic)) a)
  | reject (env : Env) (a : Attempt) (e : ReloadError) :
    Move core i (.critical .locked a) (.check env) (core.setMutex none) (.failed e)
  | storeDynamic (a : Attempt) (changed : List Str) :
    Move core i (.critical (.checked changed) a) .storeDynamic
      { core with
        handle := { core.handle with config := a.newDynamic }
        activeVersion := a.version }
      (.critical (.storedDynamic changed) a)
  | storeStatic (a : Attempt) (changed : List Str) :
    Move core i (.critical (.storedDynamic changed) a) .storeStatic
      { core with handle := { core.handle with staticConfig := a.newStatic } }
      (.critical (.storedBoth changed) a)
  | unlock (a : Attempt) (changed : List Str) :
    Move core i (.critical (.storedBoth changed) a) .unlock (core.setMutex none)
      (.succeeded a changed)
  | fail {p : Phase} (hp : p.BeforeLock) (action : Action) (e : ReloadError) :
    Move core i p action core (.failed e)
  | cancel {p : Phase} (hp : p.BeforeLock) : Move core i p .cancel core .cancelled

variable {parse}

theorem move_of_advance {core core' : Core} {i : ℕ} {p p' : Phase} {action : Action}
    (h : advance parse core i p action = some (core', p')) :
    Move parse core i p action core' p' := by
  unfold advance at h
  split at h
  · next failure =>
    obtain ⟨rfl, rfl⟩ := Prod.mk.inj (Option.some_inj.mp h)
    cases failure with
    | none => exact .metadataBefore
    | some text => exact .fail (by trivial) _ _
  · next modified =>
    obtain ⟨rfl, rfl⟩ := Prod.mk.inj (Option.some_inj.mp h)
    exact .readToString modified
  · obtain ⟨rfl, rfl⟩ := Prod.mk.inj (Option.some_inj.mp h)
    exact .fail (by trivial) _ _
  · next modified version order content failure env =>
    obtain ⟨rfl, rfl⟩ := Prod.mk.inj (Option.some_inj.mp h)
    cases failure with
    | some text => exact .fail (by trivial) _ _
    | none =>
      simp only [afterIo]
      split
      · exact .fail (by trivial) _ _
      · split
        · exact .fail (by trivial) _ _
        · next hfinish => exact .finishRead modified hfinish
  · next a =>
    split at h
    · cases h
    · next hfree =>
      obtain ⟨rfl, rfl⟩ := Prod.mk.inj (Option.some_inj.mp h)
      exact .lock a hfree
  · next a env =>
    split at h
    · obtain ⟨rfl, rfl⟩ := Prod.mk.inj (Option.some_inj.mp h)
      exact .reject env a _
    · next hcheck =>
      obtain ⟨rfl, rfl⟩ := Prod.mk.inj (Option.some_inj.mp h)
      exact .check a hcheck
  · next changed a =>
    obtain ⟨rfl, rfl⟩ := Prod.mk.inj (Option.some_inj.mp h)
    exact .storeDynamic a changed
  · next changed a =>
    obtain ⟨rfl, rfl⟩ := Prod.mk.inj (Option.some_inj.mp h)
    exact .storeStatic a changed
  · next changed a =>
    obtain ⟨rfl, rfl⟩ := Prod.mk.inj (Option.some_inj.mp h)
    exact .unlock a changed
  -- the four awaits
  iterate 4
    obtain ⟨rfl, rfl⟩ := Prod.mk.inj (Option.some_inj.mp h)
    exact .cancel (by trivial)
  cases h

/-- A step of an attempt, seen from the system. -/
theorem step_task {sys sys' : System} {i : ℕ} {action : Action}
    (h : step parse sys (.task i action) = some sys') :
    ∃ task core' p', sys.tasks i = some task ∧
      Move parse sys.core i task.phase action core' p' ∧
      sys' = ⟨core', Function.update sys.tasks i (some { task with phase := p' })⟩ := by
  obtain ⟨task, htask, h⟩ := Option.bind_eq_some_iff.mp h
  obtain ⟨⟨core', p'⟩, hadv, h⟩ := Option.bind_eq_some_iff.mp h
  exact ⟨task, core', p', htask, move_of_advance hadv, (Option.some_inj.mp h).symm⟩

theorem step_request {sys sys' : System} {i : ℕ} (h : step parse sys (.request i) = some sys') :
    sys.tasks i = none ∧
      sys' = { sys with
        tasks := Function.update sys.tasks i (some ⟨sys.core.version, .started⟩) } := by
  simp only [step] at h
  split at h
  · cases h
  · next hnone => exact ⟨hnone, (Option.some_inj.mp h).symm⟩

theorem finishRead_eq_ok {env : Env} {flag : Bool} {content : Str}
    {new : StaticConfig × DynamicConfig} (h : finishRead parse env flag content = .ok new) :
    ∃ full, parse content = .ok full ∧ full.intoStaticAndDynamic = new ∧
      validate env.pathExists new.1 new.2 flag = .ok () := by
  simp only [finishRead] at h
  split at h
  · cases h
  · next full hfull =>
    split at h
    · cases h
    · next hvalid =>
      cases h
      exact ⟨full, hfull, rfl, hvalid⟩

theorem loadConfig_eq_ok {env : Env} {cli : Bool} {content : Str} {loaded : LoadedConfig}
    (h : loadConfig parse env cli content = .ok loaded) :
    ∃ full, parse content = .ok full ∧
      full.intoStaticAndDynamic = (loaded.staticConfig, loaded.dynamicConfig) ∧
      loaded.allowWildcardBind = (loaded.staticConfig.allowWildcardBind || cli) ∧
      validate env.pathExists loaded.staticConfig loaded.dynamicConfig cli = .ok () ∧
      validateNofile env.softNofileLimit loaded.staticConfig.maxConnections = [] := by
  simp only [loadConfig] at h
  split at h
  · cases h
  · next full hparse =>
    split at h
    · cases h
    · next hvalid =>
      split at h
      · next hbudget =>
        cases h
        exact ⟨full, hparse, rfl, rfl, hvalid, hbudget⟩
      · cases h

theorem checkReload_eq_ok {env : Env} {flag : Bool} {newStatic : StaticConfig}
    {newDynamic : DynamicConfig} :
    checkReload env flag newStatic newDynamic = .ok () ↔
      validate env.pathExists newStatic newDynamic flag = .ok () ∧
        validateNofile env.softNofileLimit newStatic.maxConnections = [] := by
  simp only [checkReload]
  split
  · next errors hvalid => simp [hvalid]
  · next hvalid =>
    split
    · next hbudget => simp [hvalid, hbudget]
    · next hbudget => simp [hbudget]

end

end Reload
