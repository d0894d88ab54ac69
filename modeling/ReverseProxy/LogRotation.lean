/-
The log file and its rotation.

The proxy writes its log through a file that it opens when it starts and again
when it is told to, after the old one has been renamed.  It opens the file for
writing and truncates it, and it does not append: a writer that was handed out
before keeps the old handle, with the old offset.

* `newWriter`, `beginReopen` — the two ways to open the log;
* `step` — writers, reopening in its two steps, restarts, and renames from
  outside;
* `step_intact` — what is written stays, provided that neither a start nor a
  reopen finds a log in its place, and no rename replaces one;
* `log_lossless_iff` — each of these provisos is needed; a reopen that fails
  changes nothing.
-/
import ReverseProxy.FileSystem
import ReverseProxy.Run
import ReverseProxy.Text

open Text FileSystem

namespace LogRotation

/-! ### Opening the log -/

abbrev Fs := Store Str UInt8

inductive OpenError where
  | pathNotConfigured
  | io (text : Str)
  deriving DecidableEq

def OpenError.toText : OpenError → Str
  | pathNotConfigured => "log reopen path not configured".toList
  | io text => text

/-- Open for writing, create and truncate, as `File::create` and the options of
`reopen` do; with the number of the new handle. -/
def openLog (path : Str) (failure : Option Str) (fs : Fs) : Except OpenError (Fs × ℕ) :=
  match failure with
  | some text => .error (.io text)
  | none => .ok (fs.openTruncate path, fs.handles.length)

/-- `ReopenableFileWriter::new`. -/
def newWriter (path : Str) (failure : Option Str) (fs : Fs) : Except OpenError (Fs × ℕ) :=
  openLog path failure fs

/-- `LogReopenHandle::reopen` up to the store of the new file.  A handle from
`handle` has the empty path. -/
def beginReopen (path : Str) (failure : Option Str) (fs : Fs) : Except OpenError (Fs × ℕ) :=
  if path.isEmpty then .error .pathNotConfigured else openLog path failure fs

/-! ### The process and its surroundings -/

/-- The current file, those that a reopen has opened and not stored yet, and
those of the writers.  `records` is bookkeeping. -/
structure Logger where
  fs : Fs
  file : Option ℕ
  opened : List ℕ
  writers : List ℕ
  records : List (Record UInt8)

inductive Event where
  | start (failure : Option Str)
  | makeWriter
  | dropWriter (i : ℕ)
  | write (i : ℕ) (bytes : List UInt8)
  | reopenOpen (failure : Option Str)
  | reopenStore (k : ℕ)
  | rename (target : Str)

def Logger.initial (fs : Fs) : Logger := ⟨fs, none, [], [], []⟩

/-- The handles that somebody may still write through. -/
def Logger.inUse (s : Logger) : List ℕ := s.file.toList ++ s.opened ++ s.writers

/-- Every record is where it was written, in a file with a name, and no two
records share a place: none stands in for another. -/
def Logger.Lossless (s : Logger) : Prop :=
  (∀ r ∈ s.records, InPlace s.fs r) ∧ s.records.Pairwise fun r r' => r.Before r'

instance (s : Logger) : Decidable s.Lossless :=
  inferInstanceAs (Decidable (_ ∧ _))

variable (logPath handlePath : Str)

def step (s : Logger) : Event → Option Logger
  -- the writers of the process before are gone
  | .start failure =>
    match newWriter logPath failure s.fs with
    | .error _ => some { s with file := none, opened := [], writers := [] }
    | .ok new => some { s with fs := new.1, file := some new.2, opened := [], writers := [] }
  | .makeWriter => do
    let h ← s.file
    return { s with writers := s.writers ++ [h] }
  | .dropWriter i =>
    if i < s.writers.length then some { s with writers := s.writers.eraseIdx i } else none
  -- a record is what one call has written, which may be a part of what it was given
  | .write i bytes => do
    let h ← s.writers[i]?
    let f ← s.fs.handles[h]?
    let fs ← s.fs.write 0 h bytes
    return { s with fs := fs, records := s.records ++ [⟨f.inode, f.offset, bytes⟩] }
  | .reopenOpen failure =>
    if s.file.isNone then none
    else
      match beginReopen handlePath failure s.fs with
      | .error _ => some s
      | .ok new => some { s with fs := new.1, opened := s.opened ++ [new.2] }
  | .reopenStore k => do
    let h ← s.opened[k]?
    return { s with file := some h, opened := s.opened.eraseIdx k }
  | .rename target => do
    let fs ← s.fs.rename logPath target
    return { s with fs := fs }

/-- What the operator sees to. -/
structure Discipline where
  reopen : Bool
  start : Bool
  rename : Bool

/-- The log is reopened, or the proxy started, only when the log has been moved
out of the way, and it is not moved over another one. -/
def Allowed (d : Discipline) (s : Logger) : Event → Prop
  | .start none => d.start = true → Clear s.fs [] s.records logPath
  | .reopenOpen none => d.reopen = true → Clear s.fs s.inUse s.records logPath
  | .rename target => d.rename = true → Clear s.fs s.inUse s.records target
  | _ => True

instance (d : Discipline) (s : Logger) : ∀ e : Event, Decidable (Allowed logPath d s e)
  | .start none => inferInstanceAs (Decidable (_ → _))
  | .start (some _) => .isTrue trivial
  | .makeWriter => .isTrue trivial
  | .dropWriter _ => .isTrue trivial
  | .write _ _ => .isTrue trivial
  | .reopenOpen none => inferInstanceAs (Decidable (_ → _))
  | .reopenOpen (some _) => .isTrue trivial
  | .reopenStore _ => .isTrue trivial
  | .rename _ => inferInstanceAs (Decidable (_ → _))

/-! ### Nothing is lost -/

variable {logPath handlePath}

theorem mem_inUse {s : Logger} {h : ℕ} :
    h ∈ s.inUse ↔ s.file = some h ∨ h ∈ s.opened ∨ h ∈ s.writers := by
  rw [Logger.inUse, List.mem_append, List.mem_append, Option.mem_toList, or_assoc]

theorem beginReopen_eq_ok {path : Str} {failure : Option Str} {fs : Fs} {new : Fs × ℕ}
    (h : beginReopen path failure fs = .ok new) :
    failure = none ∧ new = (fs.openTruncate path, fs.handles.length) := by
  unfold beginReopen at h
  split at h
  · cases h
  · cases failure with
    | some text => cases h
    | none => exact ⟨rfl, (Except.ok.inj h).symm⟩

theorem inUse_makeWriter {s : Logger} {h : ℕ} (hfile : s.file = some h) :
    { s with writers := s.writers ++ [h] }.inUse ⊆ s.inUse := by
  intro j hj
  rw [mem_inUse] at hj ⊢
  rcases hj with hj | hj | hj
  · exact Or.inl hj
  · exact Or.inr (Or.inl hj)
  · rcases List.mem_append.mp hj with hj | hj
    · exact Or.inr (Or.inr hj)
    · exact Or.inl (by rw [hfile, List.mem_singleton.mp hj])

theorem inUse_dropWriter (s : Logger) (i : ℕ) :
    { s with writers := s.writers.eraseIdx i }.inUse ⊆ s.inUse := by
  intro j hj
  rw [mem_inUse] at hj ⊢
  exact hj.imp_right (Or.imp_right List.mem_of_mem_eraseIdx)

theorem inUse_reopenOpen (s : Logger) (fs : Fs) (h : ℕ) :
    { s with fs := fs, opened := s.opened ++ [h] }.inUse ⊆ h :: s.inUse := by
  intro j hj
  rw [mem_inUse] at hj
  rw [List.mem_cons, mem_inUse]
  rcases hj with hj | hj | hj
  · exact Or.inr (Or.inl hj)
  · rcases List.mem_append.mp hj with hj | hj
    · exact Or.inr (Or.inr (Or.inl hj))
    · exact Or.inl (List.mem_singleton.mp hj)
  · exact Or.inr (Or.inr (Or.inr hj))

theorem inUse_reopenStore {s : Logger} {k h : ℕ} (hopened : s.opened[k]? = some h) :
    { s with file := some h, opened := s.opened.eraseIdx k }.inUse ⊆ s.inUse := by
  intro j hj
  rw [mem_inUse] at hj ⊢
  rcases hj with hj | hj | hj
  · exact Or.inr (Or.inl (Option.some_inj.mp hj ▸ List.mem_of_getElem? hopened))
  · exact Or.inr (Or.inl (List.mem_of_mem_eraseIdx hj))
  · exact Or.inr (Or.inr hj)

/-- **The step lemma.**  With all precautions taken, no step touches what has
been written. -/
theorem step_intact {s s' : Logger} {e : Event} (h : Intact s.fs s.inUse s.records)
    (hallowed : Allowed logPath ⟨true, true, true⟩ s e)
    (hstep : step logPath logPath s e = some s') : Intact s'.fs s'.inUse s'.records := by
  cases e with
  | start failure =>
    cases failure with
    | some text =>
      rw [← Option.some_inj.mp hstep]
      exact h.mono (List.nil_subset _)
    | none =>
      rw [← Option.some_inj.mp hstep]
      exact (h.mono (List.nil_subset _)).openTruncate (hallowed rfl)
  | makeWriter =>
    obtain ⟨k, hk, hstep⟩ := Option.bind_eq_some_iff.mp hstep
    rw [← Option.some_inj.mp hstep]
    exact h.mono (inUse_makeWriter hk)
  | dropWriter i =>
    simp only [step] at hstep
    split at hstep
    · rw [← Option.some_inj.mp hstep]
      exact h.mono (inUse_dropWriter s i)
    · cases hstep
  | write i bytes =>
    obtain ⟨k, hk, hstep⟩ := Option.bind_eq_some_iff.mp hstep
    obtain ⟨f, hf, hstep⟩ := Option.bind_eq_some_iff.mp hstep
    obtain ⟨fs, hwrite, hstep⟩ := Option.bind_eq_some_iff.mp hstep
    rw [← Option.some_inj.mp hstep]
    have hmem : k ∈ s.inUse := mem_inUse.mpr (Or.inr (Or.inr (List.mem_of_getElem? hk)))
    exact h.write hmem hf hwrite
  | reopenOpen failure =>
    simp only [step] at hstep
    split at hstep
    · cases hstep
    · split at hstep
      · rw [← Option.some_inj.mp hstep]
        exact h
      · next new hnew =>
        obtain ⟨rfl, rfl⟩ := beginReopen_eq_ok hnew
        rw [← Option.some_inj.mp hstep]
        exact (h.openTruncate (hallowed rfl)).mono (inUse_reopenOpen ..)
  | reopenStore k =>
    obtain ⟨j, hj, hstep⟩ := Option.bind_eq_some_iff.mp hstep
    rw [← Option.some_inj.mp hstep]
    exact h.mono (inUse_reopenStore hj)
  | rename target =>
    obtain ⟨fs, hrename, hstep⟩ := Option.bind_eq_some_iff.mp hstep
    rw [← Option.some_inj.mp hstep]
    exact h.rename (hallowed rfl) hrename

theorem initial_intact (fs : Fs) :
    Intact (Logger.initial fs).fs (Logger.initial fs).inUse (Logger.initial fs).records where
  isOpen := fun _ hh => absurd hh List.not_mem_nil
  apart := fun _ hh => absurd hh List.not_mem_nil
  inPlace := fun _ hr => absurd hr List.not_mem_nil
  before := fun _ hr => absurd hr List.not_mem_nil
  disjoint := List.Pairwise.nil

theorem run_intact {fs : Fs} {es : List Event} {s : Logger}
    (hallowed : Run.Along (step logPath logPath) (Allowed logPath ⟨true, true, true⟩)
      (.initial fs) es)
    (hrun : Run.run (step logPath logPath) (.initial fs) es = some s) :
    Intact s.fs s.inUse s.records :=
  Run.run_induction_along (I := fun s : Logger => Intact s.fs s.inUse s.records) step_intact es
    (initial_intact fs) hallowed hrun

/-! ### Every precaution is needed -/

def emptyFs : Fs where
  dir := ∅
  contents := fun _ => []
  handles := []
  nextInode := 0
  dir_lt := by
    intro p i hi
    rw [AList.lookup_empty] at hi
    cases hi
  handles_lt := fun _ hf => absurd hf List.not_mem_nil

def samplePath : Str := "access.log".toList

/-- A start and a first record. -/
def firstRecord : List Event := [.start none, .makeWriter, .write 0 "first".toUTF8.toList]

/-- The run is allowed, and at its end a record is missing. -/
def Loses (d : Discipline) (es : List Event) : Prop :=
  Run.Along (step samplePath samplePath) (Allowed samplePath d) (.initial emptyFs) es ∧
    ∃ s ∈ Run.run (step samplePath samplePath) (.initial emptyFs) es, ¬ s.Lossless

instance (d : Discipline) (es : List Event) : Decidable (Loses d es) :=
  inferInstanceAs (Decidable (_ ∧ ∃ s ∈ (_ : Option Logger), _))

/-- A reopen while the log is in its place. -/
theorem reopen_loses : ∀ start rename : Bool,
    Loses ⟨false, start, rename⟩ (firstRecord ++ [.reopenOpen none]) := by
  decide +kernel

/-- A restart while the log is in its place. -/
theorem start_loses : ∀ reopen rename : Bool,
    Loses ⟨reopen, false, rename⟩ (firstRecord ++ [.start none]) := by
  decide +kernel

/-- A second log that is moved over the first. -/
theorem rename_loses : ∀ reopen start : Bool,
    Loses ⟨reopen, start, false⟩ (firstRecord ++
      [.rename "access.log.1".toList, .reopenOpen none, .rename "access.log.1".toList]) := by
  decide +kernel

theorem not_lossless_of_loses {d : Discipline} {es : List Event} (h : Loses d es) :
    ¬ ∀ (logPath : Str) (fs : Fs) (es : List Event) (s : Logger),
      Run.Along (step logPath logPath) (Allowed logPath d) (.initial fs) es →
      Run.run (step logPath logPath) (.initial fs) es = some s → s.Lossless := by
  obtain ⟨hallowed, s, hrun, hlost⟩ := h
  exact fun hsafe => hlost (hsafe samplePath emptyFs es s hallowed hrun)

/-- **When the log loses nothing.**  Whatever writers, renames, reopens and
restarts there are, every record stays where it was written, in a file with a
name and in a place of its own, if and only if the log is out of the way
whenever it is reopened, and whenever the proxy is started, and is never moved
over another one.  A reopen that fails leaves everything as it was. -/
theorem log_lossless_iff (d : Discipline) :
    ((∀ (logPath : Str) (fs : Fs) (es : List Event) (s : Logger),
      Run.Along (step logPath logPath) (Allowed logPath d) (.initial fs) es →
      Run.run (step logPath logPath) (.initial fs) es = some s → s.Lossless) ↔
      d.reopen = true ∧ d.start = true ∧ d.rename = true) ∧
    ∀ (logPath handlePath : Str) (s s' : Logger) (failure : Option Str) (e : OpenError),
      beginReopen handlePath failure s.fs = .error e →
      step logPath handlePath s (.reopenOpen failure) = some s' → s' = s := by
  obtain ⟨reopen, start, rename⟩ := d
  refine ⟨⟨fun hsafe => ⟨?_, ?_, ?_⟩, ?_⟩, ?_⟩
  · refine Bool.eq_true_of_not_eq_false fun hoff => ?_
    obtain rfl : reopen = false := hoff
    exact not_lossless_of_loses (reopen_loses start rename) hsafe
  · refine Bool.eq_true_of_not_eq_false fun hoff => ?_
    obtain rfl : start = false := hoff
    exact not_lossless_of_loses (start_loses reopen rename) hsafe
  · refine Bool.eq_true_of_not_eq_false fun hoff => ?_
    obtain rfl : rename = false := hoff
    exact not_lossless_of_loses (rename_loses reopen start) hsafe
  · rintro ⟨hreopen, hstart, hrename⟩ logPath fs es s hallowed hrun
    obtain rfl : reopen = true := hreopen
    obtain rfl : start = true := hstart
    obtain rfl : rename = true := hrename
    have hintact := run_intact hallowed hrun
    exact ⟨hintact.inPlace, hintact.disjoint⟩
  · intro logPath handlePath s s' failure e hfail hstep
    simp only [step, hfail] at hstep
    split at hstep
    · cases hstep
    · exact (Option.some_inj.mp hstep).symm

/-- A rotation by the book: the log is renamed and then reopened, and a writer
from before still writes. -/
def rotation : List Event :=
  firstRecord ++ [.rename "access.log.1".toList, .reopenOpen none, .write 0 "second".toUTF8.toList,
    .reopenStore 0, .makeWriter, .write 1 "third".toUTF8.toList]

theorem log_lossless_rotation :
    ∃ s, Run.run (step samplePath samplePath) (.initial emptyFs) rotation = some s ∧
      s.records.length = 3 ∧ s.Lossless := by
  have hrun : ((Run.run (step samplePath samplePath) (.initial emptyFs) rotation).map
      fun s => s.records.length) = some 3 := by decide +kernel
  obtain ⟨s, hs, hlength⟩ := Option.map_eq_some_iff.mp hrun
  have hallowed : Run.Along (step samplePath samplePath) (Allowed samplePath ⟨true, true, true⟩)
      (.initial emptyFs) rotation := by decide +kernel
  have hsafe := (log_lossless_iff ⟨true, true, true⟩).1.mpr ⟨rfl, rfl, rfl⟩
  exact ⟨s, hs, hlength, hsafe samplePath emptyFs rotation s hallowed hs⟩

/-- A reopen without a rename before it, and a restart, each wipe out the log. -/
theorem log_wiped :
    (∃ s ∈ Run.run (step samplePath samplePath) (.initial emptyFs)
        (firstRecord ++ [.reopenOpen none, .reopenStore 0]),
      ∃ r ∈ s.records, r.bytes = "first".toUTF8.toList ∧ ¬ s.fs.Present r.bytes) ∧
    ∃ s ∈ Run.run (step samplePath samplePath) (.initial emptyFs) (firstRecord ++ [.start none]),
      ∃ r ∈ s.records, r.bytes = "first".toUTF8.toList ∧ ¬ s.fs.Present r.bytes := by
  decide +kernel

end LogRotation
