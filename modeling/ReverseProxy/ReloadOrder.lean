/-
The order of reloads.

Every version of the file has a number, every read of the file by an attempt
has a place in the order of all reads (`Attempt.order`), and `activeVersion`
is the number of the version that the active configuration was read from.  An
attempt reads the file before it waits for the mutex, so nothing makes the
attempts store in the order in which they read.

* `Stamps` — later reads see later versions;
* `InOrder` — the runs in which the mutex is taken in the order of the reads;
* `reload_never_older` — in these runs no reload replaces the configuration of
  a newer version by that of an older one;
* `reload_older_replaces_newer` — a run in which one does.
-/
import ReverseProxy.ReloadAtomic

open Text Config Validation

namespace Reload

/-! ### Reads are stamped -/

/-- The version that an attempt has read, and when. -/
def Phase.stamp : Phase → Option (ℕ × ℕ)
  | .readContent _ version order _ => some (version, order)
  | .waiting a => some (a.version, a.order)
  | .critical _ a => some (a.version, a.order)
  | .succeeded a _ => some (a.version, a.order)
  | _ => none

/-- Stamps given out so far: none is from the future, and a later read has
seen no older version. -/
structure Stamps (version reads : ℕ) (stamps : ℕ → Option (ℕ × ℕ)) : Prop where
  bound : ∀ {i v o}, stamps i = some (v, o) → v ≤ version ∧ o < reads
  mono : ∀ {i j v o v' o'}, stamps i = some (v, o) → stamps j = some (v', o') → o ≤ o' → v ≤ v'

theorem Stamps.grow {version version' reads : ℕ} {stamps : ℕ → Option (ℕ × ℕ)}
    (h : Stamps version reads stamps) (hv : version ≤ version') : Stamps version' reads stamps where
  bound hi := ⟨(h.bound hi).1.trans hv, (h.bound hi).2⟩
  mono := h.mono

theorem Stamps.forget {version reads : ℕ} {stamps : ℕ → Option (ℕ × ℕ)}
    (h : Stamps version reads stamps) (i : ℕ) :
    Stamps version reads (Function.update stamps i none) := by
  have hold : ∀ {j s}, Function.update stamps i none j = some s → stamps j = some s := by
    intro j s hj
    by_cases hji : j = i
    · rw [hji, Function.update_self] at hj
      cases hj
    · rwa [Function.update_of_ne hji] at hj
  exact ⟨fun hj => h.bound (hold hj), fun hj hk => h.mono (hold hj) (hold hk)⟩

/-- A new read gets the next stamp. -/
theorem Stamps.stamp {version reads : ℕ} {stamps : ℕ → Option (ℕ × ℕ)}
    (h : Stamps version reads stamps) (i : ℕ) :
    Stamps version (reads + 1) (Function.update stamps i (some (version, reads))) := by
  have hcases : ∀ {j v o}, Function.update stamps i (some (version, reads)) j = some (v, o) →
      v = version ∧ o = reads ∨ stamps j = some (v, o) := by
    intro j v o hj
    obtain ⟨-, heq⟩ | ⟨-, hj⟩ := update_eq_some hj
    · obtain ⟨hv, ho⟩ := Prod.mk.inj heq
      exact Or.inl ⟨hv.symm, ho.symm⟩
    · exact Or.inr hj
  constructor
  · intro j v o hj
    obtain ⟨rfl, rfl⟩ | hj := hcases hj
    · omega
    · have := h.bound hj
      omega
  · intro j k v o v' o' hj hk hle
    rcases hcases hj with ⟨hv, ho⟩ | hj
    · rcases hcases hk with ⟨hv', -⟩ | hk
      · omega
      · -- nothing was read after the newest read
        have := (h.bound hk).2
        omega
    · rcases hcases hk with ⟨hv', -⟩ | hk
      · exact hv' ▸ (h.bound hj).1
      · exact h.mono hj hk hle

/-! ### The active version -/

def Phase.attempt : Phase → Option Attempt
  | .waiting a => some a
  | .critical _ a => some a
  | .succeeded a _ => some a
  | _ => none

/-- No attempt that has stored, or is about to, is newer than the active
version, or older. -/
structure Newest (core : Core) (phases : ℕ → Option Phase) : Prop where
  settled : ∀ i a changed, phases i = some (.succeeded a changed) → a.version ≤ core.activeVersion
  holder : ∀ i stage a, phases i = some (.critical stage a) → core.activeVersion ≤ a.version ∧
    ((Phase.critical stage a).Committed → a.version ≤ core.activeVersion)
  active : core.activeVersion = 0 ∨
    ∃ i p a, phases i = some p ∧ p.Committed ∧ p.attempt = some a ∧
      a.version = core.activeVersion

section moves

variable {core core' : Core} {phases : ℕ → Option Phase} {i : ℕ} {p p' : Phase}

theorem of_phase {C : Phase → Prop} (hp : phases i = some p) (h : C p) :
    ∀ q, phases i = some q → C q := by
  intro q hq
  rw [hp, Option.some_inj] at hq
  exact hq ▸ h

/-- A step that stores no configuration. -/
theorem Newest.update (h : Newest core phases)
    (hactive : core'.activeVersion = core.activeVersion)
    (hsettled : ∀ a changed, p' = .succeeded a changed → a.version ≤ core.activeVersion)
    (hholder : ∀ stage a, p' = .critical stage a → core.activeVersion ≤ a.version ∧
      ((Phase.critical stage a).Committed → a.version ≤ core.activeVersion))
    (hkeep : ∀ p, phases i = some p → p.Committed → p'.Committed ∧ p'.attempt = p.attempt) :
    Newest core' (Function.update phases i (some p')) := by
  refine ⟨fun j a changed hj => ?_, fun j stage a hj => ?_, ?_⟩
  · rw [hactive]
    obtain ⟨-, hj⟩ | ⟨-, hj⟩ := update_eq_some hj
    · exact hsettled a changed hj
    · exact h.settled j a changed hj
  · rw [hactive]
    obtain ⟨-, hj⟩ | ⟨-, hj⟩ := update_eq_some hj
    · exact hholder stage a hj
    · exact h.holder j stage a hj
  · rw [hactive]
    refine h.active.imp id ?_
    rintro ⟨j, q, a, hj, hq, ha, hversion⟩
    by_cases hji : j = i
    · subst hji
      obtain ⟨hcommitted, hattempt⟩ := hkeep q hj hq
      exact ⟨j, p', a, Function.update_self .., hcommitted, hattempt.trans ha, hversion⟩
    · exact ⟨j, q, a, by rw [Function.update_of_ne hji, hj], hq, ha, hversion⟩

theorem not_committed_of_beforeLock (h : p.BeforeLock) : ¬ p.Committed := by
  cases p with
  | critical stage a => exact h.elim
  | succeeded a changed => exact h.elim
  | _ => exact id

variable [Lowercase] {parse : Str → Except Str FullConfig} {start : Env}
  {taken : ℕ → Action → Prop}

/-- The step that stores the configuration; no other attempt is in its
way. -/
theorem Newest.store (h : Newest core phases) (hinv : Inv parse start taken core phases)
    {a : Attempt} {changed : List Str} (hp : phases i = some (.critical (.checked changed) a))
    (hactive : core'.activeVersion = a.version) :
    Newest core' (Function.update phases i (some (.critical (.storedDynamic changed) a))) := by
  refine ⟨fun j b changed' hj => ?_, fun j stage b hj => ?_, ?_⟩
  · rw [hactive]
    obtain ⟨-, heq⟩ | ⟨-, hj⟩ := update_eq_some hj
    · cases heq
    · exact (h.settled j b changed' hj).trans (h.holder i _ a hp).1
  · rw [hactive]
    obtain ⟨-, heq⟩ | ⟨hji, hj⟩ := update_eq_some hj
    · cases heq
      exact ⟨le_rfl, fun _ => le_rfl⟩
    · exact absurd (hinv.eq_holder hp hj) hji
  · exact Or.inr ⟨i, _, a, Function.update_self .., trivial, rfl, hactive.symm⟩

/-- What a step does to the active version, given that the attempt that takes
the mutex is not older than it. -/
theorem Newest.move (h : Newest core phases) (hinv : Inv parse start taken core phases)
    {action : Action} (hp : phases i = some p) (hmove : Move parse core i p action core' p')
    (hlock : ∀ a, p = .waiting a → action = .lock → core.handle.reloadMutex = none →
      core.activeVersion ≤ a.version) :
    Newest core' (Function.update phases i (some p')) := by
  cases hmove with
  | lock a hfree =>
    refine h.update rfl (fun _ _ heq => Phase.noConfusion heq) ?_ (of_phase hp fun hc => hc.elim)
    rintro stage b heq
    cases heq
    exact ⟨hlock a rfl rfl hfree, fun hc => hc.elim⟩
  | check a hcheck =>
    refine h.update rfl (fun _ _ heq => Phase.noConfusion heq) ?_ (of_phase hp fun hc => hc.elim)
    rintro stage b heq
    cases heq
    exact ⟨(h.holder i _ a hp).1, fun hc => hc.elim⟩
  | storeDynamic a changed =>
    -- the one step that changes the active version
    exact h.store hinv hp rfl
  | storeStatic a changed =>
    refine h.update rfl (fun _ _ heq => Phase.noConfusion heq) ?_
      (of_phase hp fun _ => ⟨trivial, rfl⟩)
    rintro stage b heq
    cases heq
    exact ⟨(h.holder i _ a hp).1, fun _ => (h.holder i _ a hp).2 trivial⟩
  | unlock a changed =>
    refine h.update rfl ?_ (fun _ _ heq => Phase.noConfusion heq)
      (of_phase hp fun _ => ⟨trivial, rfl⟩)
    rintro b changed' heq
    cases heq
    exact (h.holder i _ a hp).2 trivial
  | reject env a e =>
    exact h.update rfl (fun _ _ heq => Phase.noConfusion heq)
      (fun _ _ heq => Phase.noConfusion heq) (of_phase hp fun hc => hc.elim)
  | fail hbefore action e =>
    exact h.update rfl (fun _ _ heq => Phase.noConfusion heq)
      (fun _ _ heq => Phase.noConfusion heq)
      (of_phase hp fun hc => absurd hc (not_committed_of_beforeLock hbefore))
  | cancel hbefore =>
    exact h.update rfl (fun _ _ heq => Phase.noConfusion heq)
      (fun _ _ heq => Phase.noConfusion heq)
      (of_phase hp fun hc => absurd hc (not_committed_of_beforeLock hbefore))
  | _ =>
    exact h.update rfl (fun _ _ heq => Phase.noConfusion heq)
      (fun _ _ heq => Phase.noConfusion heq) (of_phase hp fun hc => hc.elim)

/-- A step leaves the stamp of its attempt alone, drops it, or is the read. -/
theorem Move.stamp {action : Action} (hmove : Move parse core i p action core' p') :
    core'.version = core.version ∧
    (core'.reads = core.reads ∧ (p'.stamp = p.stamp ∨ p'.stamp = none) ∨
      p.stamp = none ∧ core'.reads = core.reads + 1 ∧
        p'.stamp = some (core.version, core.reads)) := by
  cases hmove with
  | readToString modified => exact ⟨rfl, Or.inr ⟨rfl, rfl, rfl⟩⟩
  | reject env a e => exact ⟨rfl, Or.inl ⟨rfl, Or.inr rfl⟩⟩
  | fail hbefore action e => exact ⟨rfl, Or.inl ⟨rfl, Or.inr rfl⟩⟩
  | cancel hbefore => exact ⟨rfl, Or.inl ⟨rfl, Or.inr rfl⟩⟩
  | _ => exact ⟨rfl, Or.inl ⟨rfl, Or.inl rfl⟩⟩

end moves

/-! ### Runs in order -/

def Phase.isSucceeded : Phase → Bool
  | .succeeded _ _ => true
  | _ => false

theorem Phase.eq_succeeded {p : Phase} (h : p.isSucceeded) :
    ∃ a changed, p = .succeeded a changed := by
  cases p with
  | succeeded a changed => exact ⟨a, changed, rfl⟩
  | _ => cases h

section runs

variable [Lowercase] (parse : Str → Except Str FullConfig)

def System.stamps (sys : System) (i : ℕ) : Option (ℕ × ℕ) := (sys.phases i).bind Phase.stamp

/-- An attempt has read nothing older than what was there when it started. -/
def Task.Fresh (core : Core) (task : Task) : Prop :=
  task.startedAt ≤ core.version ∧ ∀ v o, task.phase.stamp = some (v, o) → task.startedAt ≤ v

structure Ordered (sys : System) : Prop where
  inv : ∃ start, Inv parse start (fun _ _ => True) sys.core sys.phases
  stamps : Stamps sys.core.version sys.core.reads sys.stamps
  fresh : ∀ i task, sys.tasks i = some task → task.Fresh sys.core
  newest : Newest sys.core sys.phases

/-- The mutex is taken in the order of the reads: by an attempt only if those
that have already succeeded read the file before it. -/
def InOrder (sys : System) : Event → Prop
  | .task i .lock => ∀ a, sys.phases i = some (.waiting a) →
    ∀ j b changed, sys.phases j = some (.succeeded b changed) → b.order ≤ a.order
  | _ => True

variable {parse}

/-- The attempt that takes the mutex in order is not older than what is
active. -/
theorem Ordered.active_le {sys : System} (h : Ordered parse sys) {i : ℕ} {a : Attempt}
    (hp : sys.phases i = some (.waiting a)) (hfree : sys.core.handle.reloadMutex = none)
    (horder : InOrder sys (.task i .lock)) : sys.core.activeVersion ≤ a.version := by
  rcases h.newest.active with hzero | ⟨j, q, b, hj, hcommitted, hattempt, hversion⟩
  · omega
  · have hstamp : sys.stamps i = some (a.version, a.order) := by rw [System.stamps, hp]; rfl
    rw [← hversion]
    cases q with
    | succeeded b' changed =>
      cases hattempt
      have hstamp' : sys.stamps j = some (b.version, b.order) := by rw [System.stamps, hj]; rfl
      exact h.stamps.mono hstamp' hstamp (horder a hp j b changed hj)
    | critical stage b' =>
      -- the mutex is free, so nobody is between its stores
      obtain ⟨start, hinv⟩ := h.inv
      rw [(hinv.mutex j).mpr ⟨stage, b', hj⟩] at hfree
      cases hfree
    | _ => exact hcommitted.elim

omit [Lowercase] in
theorem stamps_update (sys : System) (core : Core) (i : ℕ) (task : Task) :
    (⟨core, Function.update sys.tasks i (some task)⟩ : System).stamps
      = Function.update sys.stamps i task.phase.stamp := by
  funext j
  rw [System.stamps, phases_update]
  by_cases hj : j = i
  · rw [hj, Function.update_self, Function.update_self, Option.bind_some]
  · rw [Function.update_of_ne hj, Function.update_of_ne hj]
    rfl

theorem Ordered.step_inv {sys sys' : System} {e : Event} (h : Ordered parse sys)
    (hstep : Reload.step parse sys e = some sys') :
    ∃ start, Inv parse start (fun _ _ => True) sys'.core sys'.phases :=
  h.inv.imp fun _ hinv => Reload.step_inv hinv (fun _ _ _ => trivial) hstep

theorem Ordered.task {sys sys' : System} {i : ℕ} {action : Action} (h : Ordered parse sys)
    (horder : InOrder sys (.task i action)) (hstep : step parse sys (.task i action) = some sys') :
    Ordered parse sys' := by
  have hinv := h.step_inv hstep
  obtain ⟨task, core', p', htask, hmove, rfl⟩ := step_task hstep
  have hp : sys.phases i = some task.phase := by rw [System.phases, htask, Option.map_some]
  obtain ⟨hversion, hstamp⟩ := hmove.stamp
  refine ⟨hinv, ?_, fun j t ht => ?_, ?_⟩
  · -- the stamp of the attempt is as it was, gone, or new
    rw [stamps_update]
    show Stamps core'.version core'.reads (Function.update sys.stamps i p'.stamp)
    rw [hversion]
    rcases hstamp with ⟨hreads, hsame | hnone⟩ | ⟨-, hreads, hnew⟩
    · have hold : sys.stamps i = p'.stamp := by rw [System.stamps, hp, hsame, Option.bind_some]
      rw [hreads, ← hold, Function.update_eq_self]
      exact h.stamps
    · rw [hreads, hnone]
      exact h.stamps.forget i
    · rw [hreads, hnew]
      exact h.stamps.stamp i
  · obtain ⟨-, rfl⟩ | ⟨-, ht⟩ := update_eq_some ht
    · obtain ⟨hstarted, hread⟩ := h.fresh i task htask
      refine ⟨hstarted.trans hversion.ge, fun v o hv => ?_⟩
      rcases hstamp with ⟨-, hsame | hnone⟩ | ⟨-, -, hnew⟩
      · exact hread v o (hsame ▸ hv)
      · exact absurd (hnone.symm.trans hv) (by simp)
      · obtain ⟨rfl, -⟩ := Prod.mk.inj (Option.some_inj.mp (hnew.symm.trans hv))
        exact hstarted
    · obtain ⟨hstarted, hread⟩ := h.fresh j t ht
      exact ⟨hstarted.trans hversion.ge, hread⟩
  · rw [phases_update]
    obtain ⟨start, hinv⟩ := h.inv
    refine h.newest.move hinv hp hmove ?_
    rintro a ha rfl hfree
    exact h.active_le (ha ▸ hp) hfree horder

theorem Ordered.step {sys sys' : System} {e : Event} (h : Ordered parse sys)
    (horder : InOrder sys e) (hstep : Reload.step parse sys e = some sys') :
    Ordered parse sys' := by
  cases e with
  | replaceFile file =>
    -- a new version; what was read before is older
    have hinv := h.step_inv hstep
    obtain rfl := Option.some_inj.mp hstep
    have hgrow : sys.core.version ≤ sys.core.versions.length := by
      rw [Core.versions, List.length_append]
      exact Nat.le_add_right _ _
    exact ⟨hinv, h.stamps.grow hgrow,
      fun i task ht => ⟨(h.fresh i task ht).1.trans hgrow, (h.fresh i task ht).2⟩,
      ⟨h.newest.settled, h.newest.holder, h.newest.active⟩⟩
  | request i =>
    have hinv := h.step_inv hstep
    obtain ⟨hnone, rfl⟩ := step_request hstep
    refine ⟨hinv, ?_, fun j t ht => ?_, ?_⟩
    · rw [stamps_update]
      exact h.stamps.forget i
    · obtain ⟨-, rfl⟩ | ⟨-, ht⟩ := update_eq_some ht
      · exact ⟨le_rfl, fun v o hv => by cases hv⟩
      · exact h.fresh j t ht
    · rw [phases_update]
      refine h.newest.update rfl (fun _ _ heq => Phase.noConfusion heq)
        (fun _ _ heq => Phase.noConfusion heq) fun p hp => ?_
      rw [System.phases, hnone] at hp
      cases hp
  | task i action => exact h.task horder hstep

theorem Ordered.start {env : Env} {cli : Bool} {file : FileVersion} {loaded : LoadedConfig}
    (hload : loadConfig parse env cli file.content = .ok loaded) :
    Ordered parse (System.start file loaded) where
  inv := ⟨env, start_inv _ hload⟩
  stamps := { bound := fun hi => (by cases hi), mono := fun hi => (by cases hi) }
  fresh := fun i task hi => by cases hi
  newest :=
    { settled := fun i a changed hi => (by cases hi)
      holder := fun i stage a hi => (by cases hi)
      active := Or.inl rfl }

theorem Ordered.config_eq {sys : System} (h : Ordered parse sys) :
    ∃ f full, sys.core.versions[sys.core.activeVersion]? = some f ∧ parse f.content = .ok full ∧
      sys.core.handle.config = full.intoStaticAndDynamic.2 := by
  obtain ⟨start, hinv⟩ := h.inv
  obtain ⟨origin, a, ha, hversion, hconfig⟩ := hinv.active
  obtain ⟨f, hf, hcontent⟩ := ha.version
  obtain ⟨full, hparse, hsplit⟩ := ha.split
  exact ⟨f, full, hversion ▸ hf, hcontent ▸ hparse, by rw [hconfig, hsplit]⟩

/-- What an attempt that succeeded found when it started is not newer than
what is active. -/
theorem Ordered.version_le {sys : System} (h : Ordered parse sys) {i : ℕ} {task : Task}
    {a : Attempt} {changed : List Str} (htask : sys.tasks i = some task)
    (hphase : task.phase = .succeeded a changed) : task.startedAt ≤ sys.core.activeVersion := by
  have hp : sys.phases i = some (.succeeded a changed) := by
    rw [System.phases, htask, Option.map_some, hphase]
  have hread : task.startedAt ≤ a.version :=
    (h.fresh i task htask).2 a.version a.order (by rw [hphase]; rfl)
  exact hread.trans (h.newest.settled i a changed hp)

variable (parse)

/-- **Reloads in order.**  In a run in which the mutex is taken in the order of
the reads, the active configuration is that of the active version of the file,
no store makes this version older, and when all attempts have succeeded and
one of them started after the last replacement it is the latest. -/
theorem reload_never_older (env : Env) (cli : Bool) (file : FileVersion) (loaded : LoadedConfig)
    (hload : loadConfig parse env cli file.content = .ok loaded) (es : List Event) (sys : System)
    (hrun : Run.run (step parse) (System.start file loaded) es = some sys)
    (horder : Run.Along (step parse) InOrder (System.start file loaded) es) :
    (∃ f full, sys.core.versions[sys.core.activeVersion]? = some f ∧ parse f.content = .ok full ∧
      sys.core.handle.config = full.intoStaticAndDynamic.2) ∧
    (∀ i sys', step parse sys (.task i .storeDynamic) = some sys' →
      sys.core.activeVersion ≤ sys'.core.activeVersion) ∧
    ((∀ i task, sys.tasks i = some task → task.phase.isSucceeded) →
      (∃ i task, sys.tasks i = some task ∧ task.startedAt = sys.core.version) →
      ∃ full, parse sys.core.file.content = .ok full ∧
        sys.core.handle.config = full.intoStaticAndDynamic.2) := by
  have hordered : Ordered parse sys :=
    Run.run_induction_along (fun h horder hstep => h.step horder hstep) es (Ordered.start hload)
      horder hrun
  obtain ⟨f, full, hf, hparse, hconfig⟩ := hordered.config_eq
  refine ⟨⟨f, full, hf, hparse, hconfig⟩, fun i sys' hstep => ?_, ?_⟩
  · obtain ⟨task, core', p', htask, hmove, rfl⟩ := step_task hstep
    have hp : sys.phases i = some task.phase := by rw [System.phases, htask, Option.map_some]
    generalize task.phase = p at hp hmove
    cases hmove with
    | storeDynamic a changed => exact (hordered.newest.holder i _ a hp).1
    | fail hbefore action e => exact le_rfl
  · rintro hall ⟨i, task, htask, hstarted⟩
    obtain ⟨a, changed, hphase⟩ := Phase.eq_succeeded (hall i task htask)
    have hlatest := hordered.version_le htask hphase
    -- no version is later than the one in place
    have hbound : sys.core.activeVersion < sys.core.versions.length :=
      (List.getElem?_eq_some_iff.mp hf).1
    rw [Core.versions, List.length_append] at hbound
    have hactive : sys.core.activeVersion = sys.core.older.length := by
      have hversion : sys.core.version = sys.core.older.length := rfl
      have hone : [sys.core.file].length = 1 := rfl
      omega
    rw [hactive, Core.versions, List.getElem?_concat_length, Option.some_inj] at hf
    exact ⟨full, hf ▸ hparse, hconfig⟩

/-! ### Examples of runs -/

variable {parse}

theorem step_tasks_none {sys sys' : System} {e : Event} {i : ℕ} (h : sys.tasks i = none)
    (he : e ≠ .request i) (hstep : step parse sys e = some sys') : sys'.tasks i = none := by
  cases e with
  | replaceFile file =>
    rw [← Option.some_inj.mp hstep]
    exact h
  | request j =>
    obtain ⟨-, rfl⟩ := step_request hstep
    have hij : i ≠ j := fun hij => he (hij ▸ rfl)
    exact (Function.update_of_ne hij ..).trans h
  | task j action =>
    obtain ⟨task, core', p', htask, -, rfl⟩ := step_task hstep
    have hij : i ≠ j := by
      rintro rfl
      rw [h] at htask
      cases htask
    exact (Function.update_of_ne hij ..).trans h

theorem run_tasks_none {es : List Event} {sys sys' : System} {i : ℕ}
    (hes : ∀ e ∈ es, e ≠ .request i) (h : sys.tasks i = none)
    (hrun : Run.run (step parse) sys es = some sys') : sys'.tasks i = none :=
  Run.run_induction_events (I := fun sys => sys.tasks i = none) step_tasks_none hes h hrun

def Phase.waitingOrder : Phase → Option ℕ
  | .waiting a => some a.order
  | _ => none

def Phase.succeededOrder : Phase → Option ℕ
  | .succeeded b _ => some b.order
  | _ => none

/-- `InOrder` as a test, where no more than `n` attempts are known. -/
def lockedInOrder (n : ℕ) (sys : System) : Event → Bool
  | .task i .lock => ((sys.phases i).bind Phase.waitingOrder).all fun order =>
    (List.range n).all fun j => ((sys.phases j).bind Phase.succeededOrder).all (· ≤ order)
  | _ => true

omit [Lowercase] in
theorem inOrder_of_test {n : ℕ} {sys : System} {e : Event} (hnone : ∀ j, n ≤ j → sys.tasks j = none)
    (h : lockedInOrder n sys e = true) : InOrder sys e := by
  unfold InOrder
  split
  · next i =>
    intro a ha j b changed hb
    -- the others have not been requested
    have hj : j < n := by
      by_contra hge
      rw [System.phases, hnone j (not_lt.mp hge)] at hb
      cases hb
    rw [lockedInOrder, ha] at h
    have htest := List.all_eq_true.mp h j (List.mem_range.mpr hj)
    rw [hb] at htest
    exact of_decide_eq_true htest
  · trivial

theorem along_inOrder_of_test {n : ℕ} (es : List Event) : ∀ {sys : System},
    (∀ e ∈ es, ∀ j, n ≤ j → e ≠ .request j) → (∀ j, n ≤ j → sys.tasks j = none) →
    Run.Along (step parse) (fun sys e => lockedInOrder n sys e = true) sys es →
    Run.Along (step parse) InOrder sys es := by
  induction es with
  | nil => exact fun _ _ _ => trivial
  | cons e es ih =>
    rintro sys hes hnone ⟨htest, halong⟩
    have he := hes e List.mem_cons_self
    refine ⟨inOrder_of_test hnone htest, fun sys' hstep => ?_⟩
    exact ih (fun e' he' => hes e' (List.mem_cons_of_mem e he'))
      (fun j hj => step_tasks_none (hnone j hj) (he j hj) hstep) (halong sys' hstep)

end runs

/-- What an attempt does from the mutex on. -/
def lockedActions (env : Env) : List Action :=
  [.lock, .check env, .storeDynamic, .storeStatic, .unlock]

/-- The file is replaced between the reads of two attempts, which take the mutex
in the order in which they have read. -/
def inTurnRun (env : Env) : List Event :=
  ([.request 0, .task 0 (.metadataBefore none), .task 0 (.readToString none),
    .task 0 (.metadataAfter none env), .replaceFile ⟨['#'], none⟩, .request 1,
    .task 1 (.metadataBefore none), .task 1 (.readToString none),
    .task 1 (.metadataAfter none env)] : List Event) ++
  (lockedActions env).map (Event.task 0) ++ (lockedActions env).map (Event.task 1)

theorem reload_never_older_fresh : letI := asciiLowercase
    ∃ sys, Run.run (step parseSamples) (System.start ⟨[], none⟩ sampleLoaded)
        (inTurnRun quietEnv) = some sys ∧
      sys.core.activeVersion = 1 ∧
      ∃ f full, sys.core.versions[sys.core.activeVersion]? = some f ∧
        parseSamples f.content = .ok full ∧
        sys.core.handle.config = full.intoStaticAndDynamic.2 := by
  let _ := asciiLowercase
  have hend : (Run.run (step parseSamples) (System.start ⟨[], none⟩ sampleLoaded)
      (inTurnRun quietEnv)).map (·.core.activeVersion) = some 1 := by decide +kernel
  obtain ⟨sys, hrun, hactive⟩ := Option.map_eq_some_iff.mp hend
  have htwo : ∀ e ∈ inTurnRun quietEnv, ∀ j, 2 ≤ j → e ≠ .request j := by
    intro e he j hj
    rintro rfl
    simp only [inTurnRun, lockedActions, List.map_cons, List.map_nil, List.mem_append,
      List.mem_cons, List.not_mem_nil, Event.request.injEq, reduceCtorEq, false_or,
      or_false] at he
    omega
  have htest : Run.Along (step parseSamples) (fun sys e => lockedInOrder 2 sys e = true)
      (System.start ⟨[], none⟩ sampleLoaded) (inTurnRun quietEnv) := by decide +kernel
  have hload : loadConfig parseSamples quietEnv false [] = .ok sampleLoaded :=
    loadConfig_sample rfl
  have hnever := reload_never_older parseSamples quietEnv false ⟨[], none⟩ sampleLoaded hload
    (inTurnRun quietEnv) sys hrun (along_inOrder_of_test _ htwo (fun _ _ => rfl) htest)
  exact ⟨sys, hrun, hactive, hnever.1⟩

/-- The first attempt reads the file and waits for the mutex while the file
is replaced and the second attempt reloads it. -/
def overtakenRun (env : Env) : List Event :=
  ([.request 0, .task 0 (.metadataBefore none), .task 0 (.readToString none),
    .task 0 (.metadataAfter none env), .replaceFile ⟨['#'], none⟩, .request 1] : List Event) ++
  (successfulActions env).map (Event.task 1) ++ [.task 0 .lock, .task 0 (.check env)]

/-- An attempt that was overtaken puts back the configuration of the file
that the other attempt replaced, and nothing reloads the new one. -/
theorem reload_older_replaces_newer : letI := asciiLowercase
    loadConfig parseSamples quietEnv false [] = .ok sampleLoaded ∧
    (∃ sys sys', Run.run (step parseSamples) (System.start ⟨[], none⟩ sampleLoaded)
        (overtakenRun quietEnv) = some sys ∧
      step parseSamples sys (.task 0 .storeDynamic) = some sys' ∧
      sys'.core.activeVersion < sys.core.activeVersion) ∧
    ∃ sys, Run.run (step parseSamples) (System.start ⟨[], none⟩ sampleLoaded)
        (overtakenRun quietEnv ++
          [.task 0 .storeDynamic, .task 0 .storeStatic, .task 0 .unlock]) = some sys ∧
      (∀ i task, sys.tasks i = some task → task.phase.isSucceeded) ∧
      (∃ i task, sys.tasks i = some task ∧ task.startedAt = sys.core.version) ∧
      ∀ full, parseSamples sys.core.file.content = .ok full →
        sys.core.handle.config ≠ full.intoStaticAndDynamic.2 := by
  let _ := asciiLowercase
  have hload : loadConfig parseSamples quietEnv false [] = .ok sampleLoaded :=
    loadConfig_sample rfl
  refine ⟨hload, ?_, ?_⟩
  · have hstore : ((Run.run (step parseSamples) (System.start ⟨[], none⟩ sampleLoaded)
        (overtakenRun quietEnv)).bind fun sys =>
          (step parseSamples sys (.task 0 .storeDynamic)).map fun sys' =>
            (sys'.core.activeVersion, sys.core.activeVersion)) = some (0, 1) := by decide +kernel
    obtain ⟨sys, hrun, hstore⟩ := Option.bind_eq_some_iff.mp hstore
    obtain ⟨sys', hstep, hversions⟩ := Option.map_eq_some_iff.mp hstore
    obtain ⟨h0, h1⟩ := Prod.mk.inj hversions
    exact ⟨sys, sys', hrun, hstep, by omega⟩
  · have hend : (Run.run (step parseSamples) (System.start ⟨[], none⟩ sampleLoaded)
        (overtakenRun quietEnv ++
          [.task 0 .storeDynamic, .task 0 .storeStatic, .task 0 .unlock])).map (fun sys =>
            ((sys.tasks 0).map fun t => t.phase.isSucceeded,
              (sys.tasks 1).map fun t => (t.phase.isSucceeded, t.startedAt),
              sys.core.version, sys.core.file.content, sys.core.handle.config.rateLimit))
        = some (some true, some (true, 1), 1, ['#'], Routing.sampleConfig.rateLimit) := by
      decide +kernel
    obtain ⟨sys, hrun, hend⟩ := Option.map_eq_some_iff.mp hend
    simp only [Prod.mk.injEq, Option.map_eq_some_iff] at hend
    obtain ⟨⟨t₀, ht₀, hdone₀⟩, ⟨t₁, ht₁, hdone₁, hstarted⟩, hversion, hfile, hconfig⟩ := hend
    refine ⟨sys, hrun, fun i task htask => ?_, ⟨1, t₁, ht₁, by rw [hstarted, hversion]⟩, ?_⟩
    · match i, htask with
      | 0, htask => rwa [← Option.some_inj.mp (ht₀.symm.trans htask)]
      | 1, htask => rwa [← Option.some_inj.mp (ht₁.symm.trans htask)]
      | n + 2, htask =>
        -- the run holds two requests only
        have hnone : sys.tasks (n + 2) = none := by
          refine run_tasks_none (fun e he => ?_) rfl hrun
          rintro rfl
          simp [overtakenRun, successfulActions] at he
        rw [hnone] at htask
        cases htask
    · intro full hparse heq
      rw [hfile] at hparse
      rw [heq, ← Except.ok.inj hparse] at hconfig
      exact absurd hconfig (by decide)

end Reload
