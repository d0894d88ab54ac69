/-
Log rotation by signal.

To rotate the log it is renamed, and then `SIGUSR1` is raised: its handler opens
the log again under the old name and puts the new file in the place of the
current one.  Meanwhile the writers go on, and each keeps the file that it was
handed out.

* `System`, `step` — the signals of `Signals` and the log of `LogRotation`;
* `OnlyOn` — the log goes to one file, apart from older writers;
* `Since.step` — how the signal gets there;
* `rotated_log_final` — once everything has come to rest the log goes to a new
  file under its name, and the renamed one is complete as soon as the writers on
  it are gone.
-/
import ReverseProxy.LogRotation
import ReverseProxy.Signals

open Run Text FileSystem
open LogRotation (Fs Logger OpenError beginReopen beginReopen_eq_ok)
open Signals (Pipeline OnItsWay AtRest)

namespace SignalRotation

/-! ### The system -/

/-- Where `handle_sigusr1_log_reopen` is, once its signal has been received. -/
inductive ReopenPhase where
  | due
  | opened
  | returned
  deriving DecidableEq

structure System where
  pipeline : Pipeline
  reopen : ReopenPhase
  logger : Logger

def System.start (logger : Logger) : System where
  pipeline := Pipeline.start
  reopen := .returned
  logger := logger

inductive Event where
  | signal (e : Signals.Event)
  | log (e : LogRotation.Event)

/-- The handler of the signal has come to its end.  Without a log file there is
nothing to reopen. -/
def System.mayReturn (s : System) : Bool :=
  match s.pipeline.task with
  | .handling .sigusr1 => s.logger.file.isNone || decide (s.reopen = .returned)
  | _ => true

/-- The log is reopened by the handler only, and the process is not started
again. -/
def System.allows (s : System) : LogRotation.Event → Bool
  | .start _ => false
  | .reopenOpen _ => decide (s.pipeline.task = .handling .sigusr1 ∧ s.reopen = .due)
  | .reopenStore _ => decide (s.pipeline.task = .handling .sigusr1 ∧ s.reopen = .opened)
  | _ => true

variable (logPath : Str)

def System.reopenAfter (s : System) : LogRotation.Event → ReopenPhase
  | .reopenOpen failure =>
    match beginReopen logPath failure s.logger.fs with
    | .error _ => .returned
    | .ok _ => .opened
  | .reopenStore _ => .returned
  | _ => s.reopen

def step (s : System) : Event → Option System
  | .signal e =>
    if e = .handled ∧ s.mayReturn = false then none
    else (Signals.step s.pipeline e).map fun p => { s with
      pipeline := p
      reopen := if e = .recv .sigusr1 then .due else s.reopen }
  | .log e =>
    if s.allows e then
      (LogRotation.step logPath logPath s.logger e).map fun logger => { s with
        reopen := s.reopenAfter logPath e
        logger := logger }
    else none

/-! ### What a step does -/

/-- The steps, one by one. -/
inductive Move (s : System) : Event → System → Prop
  | signal {e : Signals.Event} {p : Pipeline} (h : Signals.step s.pipeline e = some p)
    (hreturn : e = .handled → s.mayReturn = true) :
    Move s (.signal e)
      { s with pipeline := p, reopen := if e = .recv .sigusr1 then .due else s.reopen }
  | makeWriter {h : ℕ} (hfile : s.logger.file = some h) :
    Move s (.log .makeWriter)
      { s with logger := { s.logger with writers := s.logger.writers ++ [h] } }
  | dropWriter (i : ℕ) :
    Move s (.log (.dropWriter i))
      { s with logger := { s.logger with writers := s.logger.writers.eraseIdx i } }
  | write {i w : ℕ} {f : Handle} {fs : Fs} {bytes : List UInt8} {records : List (Record UInt8)}
    (hw : s.logger.writers[i]? = some w) (hf : s.logger.fs.handles[w]? = some f)
    (hwrite : s.logger.fs.write 0 w bytes = some fs) :
    Move s (.log (.write i bytes))
      { s with logger := { s.logger with fs := fs, records := records } }
  | openFailed {failure : Option Str} {e : OpenError}
    (h : beginReopen logPath failure s.logger.fs = .error e) (hdue : s.reopen = .due) :
    Move s (.log (.reopenOpen failure)) { s with reopen := .returned }
  | opened (htask : s.pipeline.task = .handling .sigusr1) (hdue : s.reopen = .due) :
    Move s (.log (.reopenOpen none))
      { s with
        reopen := .opened
        logger := { s.logger with
          fs := s.logger.fs.openTruncate logPath
          opened := s.logger.opened ++ [s.logger.fs.handles.length] } }
  | stored {k h : ℕ} (hopened : s.logger.opened[k]? = some h) :
    Move s (.log (.reopenStore k))
      { s with
        reopen := .returned
        logger := { s.logger with file := some h, opened := s.logger.opened.eraseIdx k } }
  | rename {target : Str} {fs : Fs} (h : s.logger.fs.rename logPath target = some fs) :
    Move s (.log (.rename target)) { s with logger := { s.logger with fs := fs } }

variable {logPath}

theorem move_of_log {s s' : System} {e : LogRotation.Event}
    (h : step logPath s (.log e) = some s') : Move logPath s (.log e) s' := by
  rw [step] at h
  split at h
  · next hallows =>
    obtain ⟨logger, hlogger, rfl⟩ := Option.map_eq_some_iff.mp h
    cases e with
    | start failure => cases hallows
    | makeWriter =>
      obtain ⟨w, hw, hlogger⟩ := Option.bind_eq_some_iff.mp hlogger
      obtain rfl := Option.some_inj.mp hlogger
      exact .makeWriter hw
    | dropWriter i =>
      simp only [LogRotation.step] at hlogger
      split at hlogger
      · obtain rfl := Option.some_inj.mp hlogger
        exact .dropWriter i
      · cases hlogger
    | write i bytes =>
      obtain ⟨w, hw, hlogger⟩ := Option.bind_eq_some_iff.mp hlogger
      obtain ⟨f, hf, hlogger⟩ := Option.bind_eq_some_iff.mp hlogger
      obtain ⟨fs, hwrite, hlogger⟩ := Option.bind_eq_some_iff.mp hlogger
      obtain rfl := Option.some_inj.mp hlogger
      exact .write hw hf hwrite
    | reopenOpen failure =>
      have hguard := of_decide_eq_true hallows
      simp only [LogRotation.step] at hlogger
      split at hlogger
      · cases hlogger
      · split at hlogger
        · next e he =>
          obtain rfl := Option.some_inj.mp hlogger
          rw [System.reopenAfter, he]
          exact .openFailed he hguard.2
        · next new hnew =>
          obtain ⟨rfl, rfl⟩ := beginReopen_eq_ok hnew
          obtain rfl := Option.some_inj.mp hlogger
          rw [System.reopenAfter, hnew]
          exact .opened hguard.1 hguard.2
    | reopenStore k =>
      obtain ⟨w, hw, hlogger⟩ := Option.bind_eq_some_iff.mp hlogger
      obtain rfl := Option.some_inj.mp hlogger
      exact .stored hw
    | rename target =>
      obtain ⟨fs, hrename, hlogger⟩ := Option.bind_eq_some_iff.mp hlogger
      obtain rfl := Option.some_inj.mp hlogger
      exact .rename hrename
  · cases h

theorem move_of_step {s s' : System} {e : Event} (h : step logPath s e = some s') :
    Move logPath s e s' := by
  cases e with
  | signal e =>
    rw [step] at h
    split at h
    · cases h
    · next hguard =>
      obtain ⟨p, hp, rfl⟩ := Option.map_eq_some_iff.mp h
      exact .signal hp fun he => Bool.not_eq_false _ ▸ fun hfalse => hguard ⟨he, hfalse⟩
  | log e => exact move_of_log h

/-! ### One reopen at a time -/

/-- There is a log file, and the only file that has been opened and not put in
its place is the one that the handler is about to. -/
structure Inv (s : System) : Prop where
  file : s.logger.file.isSome = true
  opened : s.logger.opened = [] ∨ ∃ h, s.logger.opened = [h] ∧
    s.pipeline.task = .handling .sigusr1 ∧ s.reopen = .opened

theorem Inv.opened_eq_nil {s : System} (h : Inv s) (hphase : s.reopen ≠ .opened) :
    s.logger.opened = [] :=
  h.opened.resolve_right fun ⟨_, _, _, hopened⟩ => hphase hopened

theorem inv_start {fs : Fs} {logger : Logger}
    (h : LogRotation.step logPath logPath (.initial fs) (.start none) = some logger) :
    Inv (System.start logger) := by
  obtain rfl := Option.some_inj.mp h
  exact ⟨rfl, Or.inl rfl⟩

/-- The handler goes on until it has put the file in its place. -/
theorem Inv.handling_step {s : System} {e : Signals.Event} {p : Pipeline} (h : Inv s)
    (htask : s.pipeline.task = .handling .sigusr1) (hphase : s.reopen ≠ .returned)
    (hreturn : e = .handled → s.mayReturn = true)
    (hsignal : Signals.step s.pipeline e = some p) :
    p.task = .handling .sigusr1 ∧ e ≠ .recv .sigusr1 := by
  have he : e ≠ .handled := by
    rintro rfl
    obtain ⟨current, hfile⟩ := Option.isSome_iff_exists.mp h.file
    have hreturned := hreturn rfl
    rw [System.mayReturn, htask, hfile] at hreturned
    exact hphase (of_decide_eq_true hreturned)
  refine ⟨Signals.handling_step htask rfl he hsignal, ?_⟩
  rintro rfl
  cases Signals.move_of_step hsignal with
  | recv sig rest hqueue hreceiving =>
    rw [htask] at hreceiving
    cases hreceiving

theorem step_inv {s s' : System} {e : Event} (h : Inv s) (hstep : step logPath s e = some s') :
    Inv s' := by
  cases move_of_step hstep with
  | @signal e p hsignal hreturn =>
    refine ⟨h.file, h.opened.imp_right ?_⟩
    rintro ⟨w, hw, htask, hphase⟩
    obtain ⟨htask', hrecv⟩ := h.handling_step htask (by rw [hphase]; simp) hreturn hsignal
    exact ⟨w, hw, htask', (if_neg hrecv).trans hphase⟩
  | openFailed hfailed hdue => exact ⟨h.file, Or.inl (h.opened_eq_nil (by rw [hdue]; simp))⟩
  | opened htask hdue =>
    refine ⟨h.file, Or.inr ⟨s.logger.fs.handles.length, ?_, htask, rfl⟩⟩
    show s.logger.opened ++ [s.logger.fs.handles.length] = [s.logger.fs.handles.length]
    rw [h.opened_eq_nil (by rw [hdue]; simp), List.nil_append]
  | @stored k w hopened =>
    refine ⟨rfl, Or.inl ?_⟩
    rcases h.opened with hnil | ⟨w', hw', -, -⟩
    · rw [hnil] at hopened
      cases hopened
    · rw [hw'] at hopened ⊢
      cases k with
      | zero => rfl
      | succ k => cases hopened
  | _ => exact ⟨h.file, h.opened⟩

theorem run_inv {s s' : System} {es : List Event} (h : Inv s)
    (hrun : run (step logPath) s es = some s') : Inv s' :=
  run_induction step_inv h hrun

/-! ### Where the log goes -/

def Event.isRename : Event → Bool
  | .log (.rename _) => true
  | _ => false

variable (logPath) in
/-- The name of the log, its current file and what has been opened for it are
one file. -/
structure OnlyOn (i : ℕ) (logger : Logger) : Prop where
  name : logger.fs.dir.lookup logPath = some i
  file : ∀ h, logger.file = some h → logger.fs.inodeOf h = some i
  opened : ∀ h ∈ logger.opened, logger.fs.inodeOf h = some i

theorem inodeAt_of_lookup {fs : Fs} {i : ℕ} (h : fs.dir.lookup logPath = some i) :
    fs.inodeAt logPath = i := by
  rw [Store.inodeAt, h, Option.getD_some]

/-- The handles of a file that has a name are not touched when it is opened
again. -/
theorem inodeOf_reopened {fs : Fs} {i h : ℕ} (hname : fs.dir.lookup logPath = some i)
    (hh : fs.inodeOf h = some i) : (fs.openTruncate logPath).inodeOf h = some i := by
  rw [Store.inodeOf_openTruncate, inodeAt_of_lookup hname, hh, ite_self]

theorem lookup_openTruncate (fs : Fs) :
    (fs.openTruncate logPath).dir.lookup logPath = some (fs.inodeAt logPath) :=
  AList.lookup_insert ..

theorem OnlyOn.step {i : ℕ} {s s' : System} {e : Event} (h : OnlyOn logPath i s.logger)
    (he : e.isRename = false) (hstep : SignalRotation.step logPath s e = some s') :
    OnlyOn logPath i s'.logger := by
  cases move_of_step hstep with
  | write hw hf hwrite =>
    refine ⟨?_, fun w hfile => ?_, fun w hopened => ?_⟩
    · rw [(Store.write_eq_some hf hwrite).1]
      exact h.name
    · rw [Store.inodeOf_write hf hwrite]
      exact h.file w hfile
    · rw [Store.inodeOf_write hf hwrite]
      exact h.opened w hopened
  | opened htask hdue =>
    refine ⟨?_, fun w hfile => inodeOf_reopened h.name (h.file w hfile), fun w hopened => ?_⟩
    · rw [lookup_openTruncate, inodeAt_of_lookup h.name]
    · rcases List.mem_append.mp hopened with hopened | hnew
      · exact inodeOf_reopened h.name (h.opened w hopened)
      · rw [List.mem_singleton.mp hnew, Store.inodeOf_openTruncate, if_pos rfl,
          inodeAt_of_lookup h.name]
  | stored hopened =>
    refine ⟨h.name, fun w hfile => ?_, fun w hw => h.opened w (List.mem_of_mem_eraseIdx hw)⟩
    obtain rfl := Option.some_inj.mp hfile
    exact h.opened _ (List.mem_of_getElem? hopened)
  | rename hrename => cases he
  | _ => exact ⟨h.name, h.file, h.opened⟩

/-- A file that is neither the log nor in the hands of a writer. -/
structure Final (j : ℕ) (content : List UInt8) (logger : Logger) : Prop where
  writers : ∀ w ∈ logger.writers, logger.fs.inodeOf w ≠ some j
  content : logger.fs.contents j = content

theorem Final.step {i j : ℕ} {content : List UInt8} {s s' : System} {e : Event} (hij : j ≠ i)
    (honly : OnlyOn logPath i s.logger) (h : Final j content s.logger) (he : e.isRename = false)
    (hstep : SignalRotation.step logPath s e = some s') : Final j content s'.logger := by
  cases move_of_step hstep with
  | makeWriter hfile =>
    refine ⟨fun w hw => ?_, h.content⟩
    rcases List.mem_append.mp hw with hw | hnew
    · exact h.writers w hw
    · rw [List.mem_singleton.mp hnew, honly.file _ hfile]
      exact fun heq => hij (Option.some_inj.mp heq).symm
  | dropWriter k =>
    exact ⟨fun w hw => h.writers w (List.mem_of_mem_eraseIdx hw), h.content⟩
  | @write k w f fs bytes records hw hf hwrite =>
    refine ⟨fun w' hw' => ?_, ?_⟩
    · rw [Store.inodeOf_write hf hwrite]
      exact h.writers w' hw'
    · -- the writer is on another file
      have hne : j ≠ f.inode := by
        rintro rfl
        exact h.writers w (List.mem_of_getElem? hw) (by rw [Store.inodeOf, hf]; rfl)
      rw [(Store.write_eq_some hf hwrite).2.1, Function.update_of_ne hne]
      exact h.content
  | opened htask hdue =>
    have hlog : s.logger.fs.inodeAt logPath = i := inodeAt_of_lookup honly.name
    refine ⟨fun w hw => ?_, ?_⟩
    · rw [Store.inodeOf_openTruncate, hlog]
      split
      · exact fun heq => hij (Option.some_inj.mp heq).symm
      · exact h.writers w hw
    · show Function.update s.logger.fs.contents (s.logger.fs.inodeAt logPath) [] j = content
      rw [hlog, Function.update_of_ne hij]
      exact h.content
  | rename hrename => cases he
  | _ => exact ⟨h.writers, h.content⟩

variable (logPath) in
/-- The log has no name but that of a file from `n` on, the first that was not
in use when the signal was raised. -/
structure Fresh (n : ℕ) (fs : Fs) : Prop where
  name : ∀ i, fs.dir.lookup logPath = some i → n ≤ i
  next : n ≤ fs.nextInode

theorem Fresh.le_inodeAt {n : ℕ} {fs : Fs} (h : Fresh logPath n fs) : n ≤ fs.inodeAt logPath := by
  rw [Store.inodeAt]
  cases hname : fs.dir.lookup logPath with
  | none => exact h.next
  | some i => exact h.name i hname

theorem Fresh.step {n : ℕ} {s s' : System} {e : Event} (h : Fresh logPath n s.logger.fs)
    (he : e.isRename = false) (hstep : SignalRotation.step logPath s e = some s') :
    Fresh logPath n s'.logger.fs := by
  cases move_of_step hstep with
  | write hw hf hwrite =>
    refine ⟨fun i hi => h.name i ?_, ?_⟩
    · rw [← (Store.write_eq_some hf hwrite).1]
      exact hi
    · rw [Store.nextInode_write hwrite]
      exact h.next
  | opened htask hdue =>
    refine ⟨fun i hi => ?_, h.next.trans (le_max_left _ _)⟩
    rw [lookup_openTruncate, Option.some_inj] at hi
    exact hi ▸ h.le_inodeAt
  | rename hrename => cases he
  | _ => exact ⟨h.name, h.next⟩

/-- A `SIGUSR1` that is on its way, or that is being handled and whose handler
has not opened the log. -/
def Awaited (s : System) : Prop :=
  OnItsWay .sigusr1 s.pipeline ∨ s.pipeline.task = .handling .sigusr1 ∧ s.reopen = .due

variable (logPath) in
/-- The handler has opened the log. -/
structure Turning (i : ℕ) (s : System) : Prop where
  task : s.pipeline.task = .handling .sigusr1
  phase : s.reopen = .opened
  name : s.logger.fs.dir.lookup logPath = some i
  opened : ∀ h ∈ s.logger.opened, s.logger.fs.inodeOf h = some i

/-- No rename, and no open that fails. -/
def Event.isSmooth : Event → Bool
  | .log (.rename _) => false
  | .log (.reopenOpen (some _)) => false
  | _ => true

theorem not_rename_of_isSmooth {e : Event} (h : e.isSmooth = true) : e.isRename = false := by
  cases e with
  | signal e => rfl
  | log e =>
    cases e with
    | rename target => cases h
    | _ => rfl

theorem not_failed_of_isSmooth (hpath : logPath ≠ []) {failure : Option Str} {fs : Fs}
    {e : OpenError} (h : Event.isSmooth (.log (.reopenOpen failure)) = true) :
    beginReopen logPath failure fs ≠ .error e := by
  cases failure with
  | some text => cases h
  | none =>
    rw [beginReopen, if_neg (by simpa using hpath)]
    exact fun herror => by cases herror

theorem Awaited.step {n : ℕ} {s s' : System} {e : Event} (hpath : logPath ≠ []) (h : Awaited s)
    (hinv : Inv s) (hfresh : Fresh logPath n s.logger.fs) (he : e.isSmooth = true)
    (hstep : SignalRotation.step logPath s e = some s') :
    s'.pipeline.task = .ended ∨ Awaited s' ∨ ∃ i, n ≤ i ∧ Turning logPath i s' := by
  cases move_of_step hstep with
  | @signal e p hsignal hreturn =>
    rcases h with hway | ⟨htask, hdue⟩
    · rcases Signals.onItsWay_step hway hsignal with rfl | hended | hway'
      · cases Signals.move_of_step hsignal with
        | recv sig rest hqueue hreceiving => exact Or.inr (Or.inl (Or.inr ⟨rfl, by simp⟩))
      · exact Or.inl hended
      · exact Or.inr (Or.inl (Or.inl hway'))
    · obtain ⟨htask', hrecv⟩ := hinv.handling_step htask (by rw [hdue]; simp) hreturn hsignal
      exact Or.inr (Or.inl (Or.inr ⟨htask', (if_neg hrecv).trans hdue⟩))
  | openFailed hfailed hdue => exact absurd hfailed (not_failed_of_isSmooth hpath he)
  | opened htask hdue =>
    refine Or.inr (Or.inr ⟨_, hfresh.le_inodeAt, htask, rfl, lookup_openTruncate _, ?_⟩)
    -- nothing else has been opened
    intro w hw
    rcases List.mem_append.mp hw with hw | hnew
    · rw [hinv.opened_eq_nil (by rw [hdue]; simp)] at hw
      exact absurd hw List.not_mem_nil
    · rw [List.mem_singleton.mp hnew, Store.inodeOf_openTruncate, if_pos rfl]
  | stored hopened =>
    refine Or.inr (Or.inl (h.imp_right ?_))
    rintro ⟨htask, hdue⟩
    rw [hinv.opened_eq_nil (by rw [hdue]; simp)] at hopened
    cases hopened
  | rename hrename => cases he
  | _ => exact Or.inr (Or.inl h)

theorem Turning.step {i : ℕ} {s s' : System} {e : Event} (hpath : logPath ≠ [])
    (h : Turning logPath i s) (hinv : Inv s) (he : e.isSmooth = true)
    (hstep : SignalRotation.step logPath s e = some s') :
    Turning logPath i s' ∨ OnlyOn logPath i s'.logger := by
  cases move_of_step hstep with
  | signal hsignal hreturn =>
    obtain ⟨htask', hrecv⟩ := hinv.handling_step h.task (by rw [h.phase]; simp) hreturn hsignal
    exact Or.inl ⟨htask', (if_neg hrecv).trans h.phase, h.name, h.opened⟩
  | write hw hf hwrite =>
    refine Or.inl ⟨h.task, h.phase, ?_, fun w hopened => ?_⟩
    · rw [(Store.write_eq_some hf hwrite).1]
      exact h.name
    · rw [Store.inodeOf_write hf hwrite]
      exact h.opened w hopened
  | openFailed hfailed hdue => exact absurd hfailed (not_failed_of_isSmooth hpath he)
  | opened htask hdue => exact absurd (h.phase.symm.trans hdue) (by simp)
  | stored hopened =>
    refine Or.inr ⟨h.name, fun w hfile => ?_, fun w hw => h.opened w (List.mem_of_mem_eraseIdx hw)⟩
    obtain rfl := Option.some_inj.mp hfile
    exact h.opened _ (List.mem_of_getElem? hopened)
  | rename hrename => cases he
  | _ => exact Or.inl ⟨h.task, h.phase, h.name, h.opened⟩

theorem ended_step {s s' : System} {e : Event} (h : s.pipeline.task = .ended)
    (hstep : step logPath s e = some s') : s'.pipeline.task = .ended := by
  cases move_of_step hstep with
  | signal hsignal hreturn => exact (Signals.ended_step h hsignal).1
  | _ => exact h

variable (logPath) in
/-- What holds since a `SIGUSR1` was raised. -/
structure Since (n : ℕ) (s : System) : Prop where
  inv : Inv s
  fresh : Fresh logPath n s.logger.fs
  reaches : s.pipeline.task = .ended ∨ Awaited s ∨
    ∃ i, n ≤ i ∧ (Turning logPath i s ∨ OnlyOn logPath i s.logger)

theorem Since.step {n : ℕ} {s s' : System} {e : Event} (hpath : logPath ≠ [])
    (h : Since logPath n s) (he : e.isSmooth = true)
    (hstep : SignalRotation.step logPath s e = some s') : Since logPath n s' := by
  have hname := not_rename_of_isSmooth he
  refine ⟨step_inv h.inv hstep, h.fresh.step hname hstep, ?_⟩
  rcases h.reaches with hended | hawaited | ⟨i, hi, hturning | honly⟩
  · exact Or.inl (ended_step hended hstep)
  · refine (hawaited.step hpath h.inv h.fresh he hstep).imp_right (Or.imp_right ?_)
    rintro ⟨i, hi, hturning⟩
    exact ⟨i, hi, Or.inl hturning⟩
  · exact Or.inr (Or.inr ⟨i, hi, hturning.step hpath h.inv he hstep⟩)
  · exact Or.inr (Or.inr ⟨i, hi, Or.inr (honly.step hname hstep)⟩)

open LogRotation (emptyFs samplePath)

end SignalRotation
